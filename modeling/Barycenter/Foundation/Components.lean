import Mathlib.Logic.Relation

/-!
# Connected components by a search with a stack

Every node that has not been seen starts a search.  The search takes the last
node from its stack, adds it to the component and pushes its unseen
neighbours, which are seen from then on.  When the neighbour relation is
symmetric, what a search finds is the whole component of its start, because no
node of a finished component can lead to an unseen one.
-/

namespace Barycenter

namespace Components

variable {α : Type} [DecidableEq α] (neighbours : α → List α)

abbrev Linked (left right : α) : Prop := right ∈ neighbours left

abbrev Connected : α → α → Prop := Relation.ReflTransGen (Linked neighbours)

structure Search (α : Type) where
  seen : List α
  stack : List α

/-- Push the unseen ones of some nodes, which are seen from then on. -/
def push (search : Search α) : List α → Search α
  | [] => search
  | next :: rest =>
      if next ∈ search.seen then push search rest
      else push ⟨next :: search.seen, next :: search.stack⟩ rest

/-- Take nodes from the stack until it is empty; the result is what was found and seen. -/
def explore : Nat → Search α → List α → List α × List α
  | 0, search, found => (found, search.seen)
  | _ + 1, ⟨seen, []⟩, found => (found, seen)
  | fuel + 1, ⟨seen, current :: stack⟩, found =>
      explore fuel (push ⟨seen, stack⟩ (neighbours current)) (found ++ [current])

def componentsFrom (fuel : Nat) : List α → List α → List (List α)
  | [], _ => []
  | start :: rest, seen =>
      if start ∈ seen then componentsFrom fuel rest seen
      else
        let result := explore neighbours fuel ⟨start :: seen, [start]⟩ []
        result.1 :: componentsFrom fuel rest result.2

def components (nodes : List α) : List (List α) :=
  componentsFrom neighbours nodes.length nodes []

/-! ## One step of a search -/

variable {nodes : List α} {node : α}

theorem mem_push_seen {search : Search α} :
    node ∈ (push search nodes).seen ↔ node ∈ search.seen ∨ node ∈ nodes := by
  induction nodes generalizing search with
  | nil => simp [push]
  | cons next rest induction =>
      by_cases already : next ∈ search.seen
      · rw [push, if_pos already, induction]
        grind
      · rw [push, if_neg already, induction]
        grind

theorem mem_push_stack {search : Search α} :
    node ∈ (push search nodes).stack ↔
      node ∈ search.stack ∨ (node ∈ nodes ∧ node ∉ search.seen) := by
  induction nodes generalizing search with
  | nil => simp [push]
  | cons next rest induction =>
      by_cases already : next ∈ search.seen
      · rw [push, if_pos already, induction]
        grind
      · rw [push, if_neg already, induction]
        grind

def unseen (nodes seen : List α) : List α := nodes.filter fun node => node ∉ seen

theorem length_unseen_cons {nodes seen : List α} (inside : node ∈ nodes) (fresh : node ∉ seen) :
    (unseen nodes (node :: seen)).length < (unseen nodes seen).length := by
  have narrower : unseen nodes (node :: seen) = (unseen nodes seen).filter (· ≠ node) := by
    simp only [unseen, List.filter_filter]
    congr 1
    funext other
    simp [not_or]
  rw [narrower]
  refine List.length_filter_lt_length_iff_exists.mpr ⟨node, ?_, by simp⟩
  simp [unseen, inside, fresh]

/-- Pushing a node takes it from the unseen ones, so a search gets no longer by it. -/
theorem length_push_le {search : Search α} {pushed : List α}
    (inside : ∀ node ∈ pushed, node ∈ nodes) :
    (push search pushed).stack.length + (unseen nodes (push search pushed).seen).length ≤
      search.stack.length + (unseen nodes search.seen).length := by
  induction pushed generalizing search with
  | nil => simp [push]
  | cons next rest induction =>
      have restInside : ∀ node ∈ rest, node ∈ nodes :=
        fun node member => inside node (List.mem_cons_of_mem _ member)
      by_cases already : next ∈ search.seen
      · rw [push, if_pos already]
        exact induction restInside
      · rw [push, if_neg already]
        have shorter := length_unseen_cons (inside next List.mem_cons_self) already
        have later := @induction ⟨next :: search.seen, next :: search.stack⟩ restInside
        simp only [List.length_cons] at later
        omega

/-! ## One search -/

/--
A search from `start` on its way.  `before` are the nodes that were seen when
it started; nothing that it meets is among them.
-/
structure Exploring (before : List α) (start : α) (search : Search α) (found : List α) :
    Prop where
  seen_iff : ∀ node, node ∈ search.seen ↔
    node ∈ before ∨ node ∈ found ∨ node ∈ search.stack
  fresh : ∀ node, node ∈ found ∨ node ∈ search.stack → node ∉ before
  reached : ∀ node, node ∈ found ∨ node ∈ search.stack → Connected neighbours start node
  spread : ∀ node ∈ found, ∀ next ∈ neighbours node, next ∈ search.seen
  started : start ∈ found ∨ start ∈ search.stack

variable {neighbours}

omit [DecidableEq α] in
theorem Exploring.start {before : List α} {start : α} (fresh : start ∉ before) :
    Exploring neighbours before start ⟨start :: before, [start]⟩ [] := by
  constructor
  · intro node
    simp [or_comm]
  · intro node member
    have same : node = start := by simpa using member
    rwa [same]
  · intro node member
    have same : node = start := by simpa using member
    rw [same]
  · simp
  · simp

theorem Exploring.step {before : List α} {start current : α} {seen stack found : List α}
    (exploring : Exploring neighbours before start ⟨seen, current :: stack⟩ found) :
    Exploring neighbours before start (push ⟨seen, stack⟩ (neighbours current))
      (found ++ [current]) := by
  have currentReached := exploring.reached current (by simp)
  constructor
  · intro node
    have was := exploring.seen_iff node
    simp only [mem_push_seen, mem_push_stack, List.mem_append, List.mem_cons] at was ⊢
    grind
  · intro node member
    by_cases old : node ∈ found ∨ node ∈ current :: stack
    · exact exploring.fresh node old
    · have unseenNode : node ∉ seen := by
        simp only [mem_push_stack, List.mem_append, List.mem_cons] at member old
        grind
      intro inBefore
      exact unseenNode ((exploring.seen_iff node).mpr (Or.inl inBefore))
  · intro node member
    by_cases old : node ∈ found ∨ node ∈ current :: stack
    · exact exploring.reached node old
    · have linked : node ∈ neighbours current := by
        simp only [mem_push_stack, List.mem_append, List.mem_cons] at member old
        grind
      exact currentReached.tail linked
  · intro node member next linked
    rw [mem_push_seen]
    rcases List.mem_append.mp member with inFound | isCurrent
    · exact Or.inl (exploring.spread node inFound next linked)
    · rw [List.mem_singleton.mp isCurrent] at linked
      exact Or.inr linked
  · have was := exploring.started
    simp only [mem_push_stack, List.mem_append, List.mem_cons] at was ⊢
    grind

theorem Exploring.run {nodes before : List α}
    (inside : ∀ node next, next ∈ neighbours node → next ∈ nodes) {start : α} (fuel : Nat)
    {search : Search α} {found : List α}
    (enough : search.stack.length + (unseen nodes search.seen).length ≤ fuel)
    (exploring : Exploring neighbours before start search found) :
    Exploring neighbours before start ⟨(explore neighbours fuel search found).2, []⟩
      (explore neighbours fuel search found).1 := by
  induction fuel generalizing search found with
  | zero =>
      obtain ⟨seen, stack⟩ := search
      have empty : stack = [] :=
        List.eq_nil_of_length_eq_zero
          (Nat.le_zero.mp (Nat.le_trans (Nat.le_add_right _ _) enough))
      subst empty
      exact exploring
  | succ fuel induction =>
      obtain ⟨seen, stack⟩ := search
      cases stack with
      | nil => exact exploring
      | cons current stack =>
          have pushed := @length_push_le _ _ nodes ⟨seen, stack⟩ (neighbours current)
            (inside current)
          refine induction ?_ exploring.step
          simp only [List.length_cons] at enough
          simp only at pushed
          omega

/-! ## Components -/

/-- Nothing leads out of the nodes that have been seen. -/
def Closed (neighbours : α → List α) (seen : List α) : Prop :=
  ∀ node ∈ seen, ∀ next ∈ neighbours node, next ∈ seen

omit [DecidableEq α] in
theorem connected_symm (symmetric : ∀ left right, right ∈ neighbours left → left ∈ neighbours right)
    {left right : α} (connected : Connected neighbours left right) :
    Connected neighbours right left := by
  induction connected with
  | refl => exact Relation.ReflTransGen.refl
  | tail _ linked back => exact Relation.ReflTransGen.head (symmetric _ _ linked) back

omit [DecidableEq α] in
theorem Exploring.finished {before found seen : List α} {start : α}
    (symmetric : ∀ left right, right ∈ neighbours left → left ∈ neighbours right)
    (closed : Closed neighbours before)
    (exploring : Exploring neighbours before start ⟨seen, []⟩ found) :
    (∀ node, node ∈ found ↔ Connected neighbours start node) ∧ Closed neighbours seen ∧
      ∀ node, node ∈ seen ↔ node ∈ before ∨ node ∈ found := by
  have seen_iff : ∀ node, node ∈ seen ↔ node ∈ before ∨ node ∈ found := by
    simpa using exploring.seen_iff
  have stays : ∀ node ∈ found, ∀ next ∈ neighbours node, next ∈ found := by
    intro node member next linked
    rcases (seen_iff next).mp (exploring.spread node member next linked) with old | new
    · exact absurd (closed next old node (symmetric node next linked))
        (exploring.fresh node (Or.inl member))
    · exact new
  refine ⟨fun node => ⟨fun member => exploring.reached node (Or.inl member), ?_⟩, ?_, seen_iff⟩
  · intro connected
    induction connected with
    | refl => simpa using exploring.started
    | tail _ linked member => exact stays _ member _ linked
  · intro node member next linked
    rcases (seen_iff node).mp member with old | new
    · exact (seen_iff next).mpr (Or.inl (closed node old next linked))
    · exact (seen_iff next).mpr (Or.inr (stays node new next linked))

section

variable (symmetric : ∀ left right, right ∈ neighbours left → left ∈ neighbours right)
  {nodes : List α} (inside : ∀ node next, next ∈ neighbours node → next ∈ nodes)

include symmetric inside

theorem componentsFrom_spec {starts seen : List α} (closed : Closed neighbours seen)
    (startsInside : ∀ start ∈ starts, start ∈ nodes) :
    (∀ component ∈ componentsFrom neighbours nodes.length starts seen, ∃ start ∈ starts,
        ∀ node, node ∈ component ↔ Connected neighbours start node) ∧
      ∀ start ∈ starts, start ∈ seen ∨
        ∃ component ∈ componentsFrom neighbours nodes.length starts seen,
          start ∈ component := by
  induction starts generalizing seen with
  | nil => simp [componentsFrom]
  | cons start rest induction =>
      have restInside : ∀ other ∈ rest, other ∈ nodes :=
        fun other member => startsInside other (List.mem_cons_of_mem _ member)
      by_cases already : start ∈ seen
      · rw [componentsFrom, if_pos already]
        obtain ⟨whole, covered⟩ := induction closed restInside
        refine ⟨?_, ?_⟩
        · intro component member
          obtain ⟨first, firstMember, exact_iff⟩ := whole component member
          exact ⟨first, List.mem_cons_of_mem _ firstMember, exact_iff⟩
        · intro other member
          rcases List.mem_cons.mp member with rfl | inRest
          · exact Or.inl already
          · exact covered other inRest
      · rw [componentsFrom, if_neg already]
        have enough : [start].length + (unseen nodes (start :: seen)).length ≤ nodes.length := by
          have shorter := length_unseen_cons (startsInside start List.mem_cons_self) already
          have bounded : (unseen nodes seen).length ≤ nodes.length :=
            List.length_filter_le _ _
          simp only [List.length_cons, List.length_nil]
          omega
        have run := (Exploring.start already).run inside nodes.length enough
        obtain ⟨found_iff, nextClosed, seen_iff⟩ := run.finished symmetric closed
        obtain ⟨whole, covered⟩ := induction nextClosed restInside
        refine ⟨?_, ?_⟩
        · intro component member
          rcases List.mem_cons.mp member with rfl | inRest
          · exact ⟨start, List.mem_cons_self, found_iff⟩
          · obtain ⟨first, firstMember, exact_iff⟩ := whole component inRest
            exact ⟨first, List.mem_cons_of_mem _ firstMember, exact_iff⟩
        · intro other member
          have foundNow : ∀ node, Connected neighbours start node →
              ∃ component ∈ (explore neighbours nodes.length ⟨start :: seen, [start]⟩ []).1 ::
                componentsFrom neighbours nodes.length rest
                  (explore neighbours nodes.length ⟨start :: seen, [start]⟩ []).2,
                node ∈ component :=
            fun node connected => ⟨_, List.mem_cons_self, (found_iff node).mpr connected⟩
          rcases List.mem_cons.mp member with rfl | inRest
          · exact Or.inr (foundNow _ Relation.ReflTransGen.refl)
          · rcases covered other inRest with seenNow | ⟨component, later, inside⟩
            · rcases (seen_iff other).mp seenNow with old | new
              · exact Or.inl old
              · exact Or.inr (foundNow other ((found_iff other).mp new))
            · exact Or.inr ⟨component, List.mem_cons_of_mem _ later, inside⟩

theorem exists_component (member : node ∈ nodes) :
    ∃ component ∈ components neighbours nodes, node ∈ component := by
  have closed : Closed neighbours [] := by simp [Closed]
  have covered := (componentsFrom_spec symmetric inside closed fun _ start => start).2
    node member
  simpa [components] using covered

theorem mem_component_iff {component : List α} (isComponent : component ∈ components neighbours nodes)
    {node other : α} (member : node ∈ component) :
    other ∈ component ↔ Connected neighbours node other := by
  have closed : Closed neighbours [] := by simp [Closed]
  obtain ⟨start, -, exact_iff⟩ := (componentsFrom_spec symmetric inside closed
    fun _ start => start).1 component isComponent
  have toNode := (exact_iff node).mp member
  rw [exact_iff]
  exact ⟨fun toOther => (connected_symm symmetric toNode).trans toOther,
    fun toOther => toNode.trans toOther⟩

end

end Components

end Barycenter
