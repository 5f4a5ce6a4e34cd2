import Mathlib.Logic.Function.Basic
import Mathlib.Data.List.Nodup
import Barycenter.Foundation.History

/-!
# Optimistic concurrency over a versioned store

Any number of clients share one store.  Each client works its own queue off:
it loads, computes the next payload from what it loaded, and saves with a
compare-and-swap on the version.  A save that comes too late is computed again
from what is there now, a bounded number of times.

The sequential object says what one operation does to one payload.  Every run
of the clients is a sequential run of the object in the order of the successful
saves, and every submitted operation is answered at most once.
-/

namespace Barycenter

/-- What operations do to a payload, when they run alone.  There may be no
payload yet. -/
structure SequentialObject where
  Payload : Type
  Op : Type
  Reply : Op → Type
  Fault : Type
  apply : (op : Op) → Option Payload → Except Fault (Reply op × Payload)

namespace OptimisticStore

variable {X : SequentialObject} {ι : Type} [DecidableEq ι]

structure Stored (X : SequentialObject) where
  version : Nat
  payload : X.Payload

def versionOf (store : Option (Stored X)) : Nat := (store.map Stored.version).getD 0

/-- What a client is doing.  The ticket names the submission. -/
inductive Activity (X : SequentialObject) where
  | idle
  | loading (ticket : Nat) (op : X.Op) (attempt : Nat)
  | saving (ticket : Nat) (op : X.Op) (attempt version : Nat) (payload : X.Payload)
      (reply : X.Reply op)

structure Client (X : SequentialObject) where
  queue : List (Nat × X.Op)
  activity : Activity X

structure System (X : SequentialObject) (ι : Type) where
  store : Option (Stored X)
  clients : ι → Client X
  fresh : Nat

inductive Outcome (X : SequentialObject) where
  | quiet
  | succeeded (ticket : Nat) (op : X.Op) (reply : X.Reply op)
  | refused (ticket : Nat) (fault : X.Fault)
  | outrun (ticket : Nat)

inductive Action (X : SequentialObject) (ι : Type) where
  | submit (client : ι) (op : X.Op)
  | advance (client : ι)

def System.become (s : System X ι) (client : ι) (activity : Activity X) : System X ι :=
  { s with
    clients := Function.update s.clients client
      { s.clients client with activity := activity } }

/-- Load and compute.  Nothing happens between the two. -/
def load (s : System X ι) (client : ι) (ticket : Nat) (op : X.Op) (attempt : Nat) :
    System X ι × Outcome X :=
  match X.apply op (s.store.map Stored.payload) with
  | .error fault => (s.become client .idle, .refused ticket fault)
  | .ok (reply, payload) =>
      (s.become client
        (.saving ticket op attempt (versionOf s.store + 1) payload reply), .quiet)

/-- Save when the version is the successor of the stored one. -/
def save (limit : Nat) (s : System X ι) (client : ι) (ticket : Nat) (op : X.Op)
    (attempt version : Nat) (payload : X.Payload) (reply : X.Reply op) :
    System X ι × Outcome X :=
  if version = versionOf s.store + 1 then
    ({ s.become client .idle with
        store := some { version := version, payload := payload } },
      .succeeded ticket op reply)
  else if limit ≤ attempt then (s.become client .idle, .outrun ticket)
  else (s.become client (.loading ticket op (attempt + 1)), .quiet)

def dequeue (s : System X ι) (client : ι) : Option (System X ι × Outcome X) :=
  match (s.clients client).queue with
  | [] => none
  | (ticket, op) :: rest =>
      some
        ({ s with
            clients := Function.update s.clients client
              { queue := rest
                activity := .loading ticket op 0 } },
          .quiet)

def act (limit : Nat) (s : System X ι) : Action X ι → Option (System X ι × Outcome X)
  | .submit client op =>
      some
        ({ s with
            clients := Function.update s.clients client
              { s.clients client with
                queue := (s.clients client).queue ++ [(s.fresh, op)] }
            fresh := s.fresh + 1 },
          .quiet)
  | .advance client =>
      match (s.clients client).activity with
      | .idle => dequeue s client
      | .loading ticket op attempt => some (load s client ticket op attempt)
      | .saving ticket op attempt version payload reply =>
          some (save limit s client ticket op attempt version payload reply)

def Step (limit : Nat) (before : System X ι) (label : Action X ι × Outcome X)
    (after : System X ι) : Prop :=
  act limit before label.1 = some (after, label.2)

abbrev History (X : SequentialObject) (ι : Type) :=
  List (Event (System X ι) (Action X ι × Outcome X))

/-- One operation of the sequential object on the stored payload. -/
def Applied (before : Option (Stored X)) (done : (op : X.Op) × X.Reply op)
    (after : Option (Stored X)) : Prop :=
  ∃ payload, X.apply done.1 (before.map Stored.payload) = .ok (done.2, payload) ∧
    after = some { version := versionOf before + 1, payload := payload }

/-- A payload about to be saved was computed from the stored one, unless the
store has moved on since. -/
def Pending (store : Option (Stored X)) : Activity X → Prop
  | .saving _ op _ version payload reply =>
      version ≤ versionOf store + 1 ∧
        (version = versionOf store + 1 →
          X.apply op (store.map Stored.payload) = .ok (reply, payload))
  | _ => True

def Coherent (s : System X ι) : Prop :=
  ∀ client, Pending s.store (s.clients client).activity

/-- What one step does: it answers a success and applies it, or it leaves the
store alone. -/
inductive Effect (before : System X ι) (outcome : Outcome X) (after : System X ι) : Prop where
  | applied (ticket : Nat) (op : X.Op) (reply : X.Reply op)
      (answer : outcome = .succeeded ticket op reply)
      (once : Applied before.store ⟨op, reply⟩ after.store)
  | unchanged (silent : ∀ ticket op reply, outcome ≠ .succeeded ticket op reply)
      (same : after.store = before.store)

theorem Pending.stale {before after : Option (Stored X)} {activity : Activity X}
    (grown : versionOf after = versionOf before + 1) (pending : Pending before activity) :
    Pending after activity := by
  cases activity with
  | idle | loading ticket op attempt => trivial
  | saving ticket op attempt version payload reply =>
      refine ⟨by have := pending.1; omega, ?_⟩
      intro current
      have bounded := pending.1
      omega

theorem Coherent.become {s : System X ι} (coherent : Coherent s) (client : ι)
    {activity : Activity X} (pending : Pending s.store activity) :
    Coherent (s.become client activity) := by
  intro other
  by_cases same : other = client
  · subst same
    simpa [System.become] using pending
  · simpa [System.become, Function.update_of_ne same] using coherent other

variable {before after : System X ι} {limit : Nat}

theorem step_effect {label : Action X ι × Outcome X} (step : Step limit before label after)
    (coherent : Coherent before) : Coherent after ∧ Effect before label.2 after := by
  obtain ⟨action, outcome⟩ := label
  cases action with
  | submit client op =>
      simp only [Step, act, Option.some.injEq, Prod.mk.injEq] at step
      obtain ⟨rfl, rfl⟩ := step
      refine ⟨?_, .unchanged nofun rfl⟩
      intro other
      by_cases same : other = client
      · subst same
        simpa using coherent other
      · simpa [Function.update_of_ne same] using coherent other
  | advance client =>
      have own := coherent client
      simp only [Step, act] at step
      split at step
      · simp only [dequeue] at step
        split at step
        · cases step
        · cases step
          refine ⟨?_, .unchanged nofun rfl⟩
          intro other
          by_cases same : other = client
          · subst same
            simp [Pending]
          · simpa [Function.update_of_ne same] using coherent other
      · simp only [load] at step
        split at step
        · cases step
          exact ⟨coherent.become client trivial, .unchanged nofun rfl⟩
        · rename_i computed
          cases step
          exact ⟨coherent.become client ⟨Nat.le_refl _, fun _ => computed⟩,
            .unchanged nofun rfl⟩
      · rename_i ticket op attempt version payload reply saving
        simp only [save] at step
        split at step
        · rename_i current
          cases step
          rw [saving] at own
          refine ⟨?_, .applied ticket op reply rfl ⟨payload, own.2 current, by rw [current]⟩⟩
          intro other
          have idle : Pending before.store Activity.idle := trivial
          exact Pending.stale current (coherent.become client idle other)
        · split at step
          · cases step
            exact ⟨coherent.become client trivial, .unchanged nofun rfl⟩
          · cases step
            exact ⟨coherent.become client trivial, .unchanged nofun rfl⟩

/-- The successful saves of a history, as events of the sequential object. -/
def successes (history : History X ι) :
    List (Event (Option (Stored X)) ((op : X.Op) × X.Reply op)) :=
  history.filterMap fun event =>
    match event.label.2 with
    | .succeeded _ op reply =>
        some
          { before := event.before.store
            label := ⟨op, reply⟩
            after := event.after.store }
    | _ => none

variable {start final : System X ι} {history : History X ι}

theorem linearization (run : Follows (Step limit) start history final) (coherent : Coherent start) :
    Follows Applied start.store (successes history) final.store := by
  induction run with
  | nil => exact .nil _
  | @cons start middle final label history first later induction =>
      obtain ⟨kept, effect⟩ := step_effect first coherent
      have rest := induction kept
      cases effect with
      | applied ticket op reply answer once =>
          simp only [successes, List.filterMap_cons, answer]
          exact .cons once rest
      | unchanged silent same =>
          rw [same] at rest
          have skipped : successes
              ({ before := start, label := label, after := middle } :: history) =
                successes history := by
            obtain ⟨action, outcome⟩ := label
            cases outcome with
            | succeeded ticket op reply => exact absurd rfl (silent ticket op reply)
            | _ => rfl
          rw [skipped]
          exact rest

theorem version_counts {start final : Option (Stored X)}
    {history : List (Event (Option (Stored X)) ((op : X.Op) × X.Reply op))}
    (run : Follows Applied start history final) :
    versionOf final = versionOf start + history.length := by
  induction run with
  | nil => simp
  | cons first later induction =>
      obtain ⟨payload, -, rfl⟩ := first
      rw [induction]
      simp only [versionOf, Option.map_some, Option.getD_some, List.length_cons]
      omega

def Client.owes (client : Client X) : List Nat :=
  (match client.activity with
    | .idle => []
    | .loading ticket _ _ => [ticket]
    | .saving ticket _ _ _ _ _ => [ticket]) ++ client.queue.map Prod.fst

def Outcome.answers : Outcome X → Option Nat
  | .quiet => none
  | .succeeded ticket _ _ => some ticket
  | .refused ticket _ => some ticket
  | .outrun ticket => some ticket

structure Ticketed (s : System X ι) : Prop where
  issued : ∀ client, ∀ ticket ∈ (s.clients client).owes, ticket < s.fresh
  distinct : ∀ client, (s.clients client).owes.Nodup
  apart : ∀ client other, ∀ ticket ∈ (s.clients client).owes,
    ticket ∈ (s.clients other).owes → client = other

def Settled (s : System X ι) (ticket : Nat) : Prop :=
  ticket < s.fresh ∧ ∀ client, ticket ∉ (s.clients client).owes

/-- How a step changes what is owed: it issues a ticket, keeps them, or answers
the first one of a client. -/
inductive Debt (before : System X ι) (outcome : Outcome X) (after : System X ι) : Prop where
  | issued (client : ι) (silent : outcome.answers = none)
      (next : after.fresh = before.fresh + 1)
      (owes : ∀ other, (after.clients other).owes =
        if other = client then (before.clients other).owes ++ [before.fresh]
        else (before.clients other).owes)
  | kept (silent : outcome.answers = none) (next : after.fresh = before.fresh)
      (owes : ∀ other, (after.clients other).owes = (before.clients other).owes)
  | answered (client : ι) (ticket : Nat) (answer : outcome.answers = some ticket)
      (next : after.fresh = before.fresh)
      (first : (before.clients client).owes = ticket :: (after.clients client).owes)
      (owes : ∀ other, other ≠ client →
        (after.clients other).owes = (before.clients other).owes)

theorem become_owes_other (s : System X ι) {client other : ι} (activity : Activity X)
    (different : other ≠ client) :
    ((s.become client activity).clients other).owes = (s.clients other).owes := by
  simp [System.become, Function.update_of_ne different]

theorem step_debt {label : Action X ι × Outcome X} (step : Step limit before label after) :
    Debt before label.2 after := by
  obtain ⟨action, outcome⟩ := label
  cases action with
  | submit client op =>
      simp only [Step, act, Option.some.injEq, Prod.mk.injEq] at step
      obtain ⟨rfl, rfl⟩ := step
      refine .issued client rfl rfl fun other => ?_
      by_cases same : other = client
      · subst same
        simp [Client.owes]
      · simp [Function.update_of_ne same, same]
  | advance client =>
      simp only [Step, act] at step
      split at step
      · rename_i idle
        simp only [dequeue] at step
        split at step
        · cases step
        · rename_i ticket op rest queued
          cases step
          refine .kept rfl rfl fun other => ?_
          by_cases same : other = client
          · subst same
            simp [Client.owes, idle, queued]
          · simp [Function.update_of_ne same]
      · rename_i ticket op attempt loading
        simp only [load] at step
        split at step
        · cases step
          refine .answered client ticket rfl rfl ?_ fun other different =>
            become_owes_other before .idle different
          simp [Client.owes, System.become, loading]
        · cases step
          refine .kept rfl rfl fun other => ?_
          by_cases same : other = client
          · subst same
            simp [Client.owes, System.become, loading]
          · exact become_owes_other before _ same
      · rename_i ticket op attempt version payload reply saving
        simp only [save] at step
        split at step
        · cases step
          refine .answered client ticket rfl rfl ?_ fun other different =>
            become_owes_other before .idle different
          simp [Client.owes, System.become, saving]
        · split at step
          · cases step
            refine .answered client ticket rfl rfl ?_ fun other different =>
              become_owes_other before .idle different
            simp [Client.owes, System.become, saving]
          · cases step
            refine .kept rfl rfl fun other => ?_
            by_cases same : other = client
            · subst same
              simp [Client.owes, System.become, saving]
            · exact become_owes_other before _ same

variable {outcome : Outcome X}

theorem Debt.ticketed
    (debt : Debt before outcome after) (ticketed : Ticketed before) : Ticketed after := by
  cases debt with
  | issued client silent next owes =>
      have old : ∀ other, before.fresh ∉ (before.clients other).owes := fun other member =>
        absurd (ticketed.issued other _ member) (Nat.lt_irrefl _)
      refine
        { issued := ?_
          distinct := ?_
          apart := ?_ }
      · intro other ticket member
        rw [owes] at member
        rw [next]
        split at member
        · rcases List.mem_append.mp member with known | new
          · exact Nat.lt_succ_of_lt (ticketed.issued other ticket known)
          · rw [List.mem_singleton.mp new]
            exact Nat.lt_succ_self _
        · exact Nat.lt_succ_of_lt (ticketed.issued other ticket member)
      · intro other
        rw [owes]
        split
        · exact List.Nodup.append (ticketed.distinct other) (List.nodup_singleton _)
            fun _ member new => old other (List.mem_singleton.mp new ▸ member)
        · exact ticketed.distinct other
      · intro left right ticket inLeft inRight
        rw [owes] at inLeft inRight
        split at inLeft <;> split at inRight
        · rename_i isLeft isRight
          exact isLeft.trans isRight.symm
        · rename_i isLeft _
          rcases List.mem_append.mp inLeft with known | new
          · exact ticketed.apart left right ticket known inRight
          · exact absurd (List.mem_singleton.mp new ▸ inRight) (old right)
        · rename_i _ isRight
          rcases List.mem_append.mp inRight with known | new
          · exact ticketed.apart left right ticket inLeft known
          · exact absurd (List.mem_singleton.mp new ▸ inLeft) (old left)
        · exact ticketed.apart left right ticket inLeft inRight
  | kept silent next owes =>
      exact
        { issued := fun other ticket member =>
            next ▸ ticketed.issued other ticket (owes other ▸ member)
          distinct := fun other => owes other ▸ ticketed.distinct other
          apart := fun left right ticket inLeft inRight =>
            ticketed.apart left right ticket (owes left ▸ inLeft) (owes right ▸ inRight) }
  | answered client ticket answer next first owes =>
      have subset : ∀ other, ∀ name ∈ (after.clients other).owes,
          name ∈ (before.clients other).owes := by
        intro other name member
        by_cases same : other = client
        · subst same
          rw [first]
          exact List.mem_cons_of_mem _ member
        · rw [← owes other same]
          exact member
      refine
        { issued := fun other name member =>
            next ▸ ticketed.issued other name (subset other name member)
          distinct := ?_
          apart := fun left right name inLeft inRight =>
            ticketed.apart left right name (subset left name inLeft)
              (subset right name inRight) }
      intro other
      by_cases same : other = client
      · subst same
        have whole := ticketed.distinct other
        rw [first] at whole
        exact (List.nodup_cons.mp whole).2
      · rw [owes other same]
        exact ticketed.distinct other

variable {ticket : Nat}

theorem Debt.settled (debt : Debt before outcome after) (settled : Settled before ticket) :
    Settled after ticket := by
  obtain ⟨known, unowed⟩ := settled
  cases debt with
  | issued client silent next owes =>
      refine ⟨by omega, fun other member => ?_⟩
      rw [owes] at member
      split at member
      · rcases List.mem_append.mp member with old | new
        · exact unowed other old
        · rw [List.mem_singleton.mp new] at known
          exact Nat.lt_irrefl _ known
      · exact unowed other member
  | kept silent next owes =>
      exact ⟨next ▸ known, fun other member => unowed other (owes other ▸ member)⟩
  | answered client name answer next first owes =>
      refine ⟨next ▸ known, fun other member => ?_⟩
      by_cases same : other = client
      · subst same
        exact unowed other (first ▸ List.mem_cons_of_mem _ member)
      · exact unowed other (owes other same ▸ member)

theorem Debt.settles (debt : Debt before outcome after) (ticketed : Ticketed before)
    (answer : outcome.answers = some ticket) : Settled after ticket := by
  cases debt with
  | issued client silent next owes | kept silent next owes => simp [silent] at answer
  | answered client name answered next first owes =>
      obtain rfl : name = ticket := Option.some.inj (answered.symm.trans answer)
      have owed : name ∈ (before.clients client).owes := by
        rw [first]
        exact List.mem_cons_self
      refine ⟨next ▸ ticketed.issued client name owed, fun other member => ?_⟩
      by_cases same : other = client
      · subst same
        have whole := ticketed.distinct other
        rw [first] at whole
        exact (List.nodup_cons.mp whole).1 member
      · rw [owes other same] at member
        exact same (ticketed.apart client other name owed member).symm

theorem Debt.owed (debt : Debt before outcome after)
    (answer : outcome.answers = some ticket) : ¬ Settled before ticket := by
  cases debt with
  | issued client silent next owes | kept silent next owes => simp [silent] at answer
  | answered client name answered next first owes =>
      obtain rfl : name = ticket := Option.some.inj (answered.symm.trans answer)
      intro settled
      exact settled.2 client (first ▸ List.mem_cons_self)

theorem settled_never_answered (run : Follows (Step limit) start history final)
    (settled : Settled start ticket) :
    ∀ event ∈ history, event.label.2.answers ≠ some ticket := by
  induction run with
  | nil => simp
  | cons first later induction =>
      have debt := step_debt first
      intro event member
      rcases List.mem_cons.mp member with rfl | old
      · intro answer
        exact debt.owed answer settled
      · exact induction (debt.settled settled) event old

theorem answered_once (run : Follows (Step limit) start history final) (ticketed : Ticketed start) :
    history.Pairwise fun first second =>
      ∀ ticket, first.label.2.answers = some ticket →
        second.label.2.answers ≠ some ticket := by
  induction run with
  | nil => exact List.Pairwise.nil
  | cons first later induction =>
      have debt := step_debt first
      refine List.Pairwise.cons ?_ (induction (debt.ticketed ticketed))
      intro event member ticket answer
      exact settled_never_answered later (debt.settles ticketed answer) event member

def blank (X : SequentialObject) (ι : Type) : System X ι :=
  { store := none
    clients := fun _ => { queue := [], activity := .idle }
    fresh := 0 }

omit [DecidableEq ι] in
theorem blank_coherent : Coherent (blank X ι) := fun _ => trivial

omit [DecidableEq ι] in
theorem blank_ticketed : Ticketed (blank X ι) :=
  { issued := fun _ _ member => nomatch member
    distinct := fun _ => List.nodup_nil
    apart := fun _ _ _ member => nomatch member }

end OptimisticStore

end Barycenter
