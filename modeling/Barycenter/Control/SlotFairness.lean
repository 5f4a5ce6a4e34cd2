import Mathlib.Data.List.GetD
import Barycenter.Foundation.Apportionment
import Barycenter.Control.Membership

/-!
# How the cells of a slot list are shared

Every peer has a cell, the list is bounded, and while the reduced weights fit
under the cap the cells are exactly proportional to the weights.  Beyond the cap
the cells that are left after rounding go to the heaviest peers, one for each, so
that a heavier peer never falls behind a lighter one.

The source divides doubles.  With weights up to a million and at most 256 cells a
quotient that is no integer is further from one than a double is off, and two
different places of copies differ by more than that, so floors and order are those
of exact fractions.
-/

namespace Barycenter

namespace Control

/-! ## Cells handed out one by one -/

@[simp]
theorem length_spreadLeft (order : List Nat) (left position : Nat) (counts : List Nat) :
    (spreadLeft order left position counts).length = counts.length := by
  induction left generalizing position counts with
  | zero => rfl
  | succ left induction => simp [spreadLeft, induction]

theorem spreadLeft_getElem? {order : List Nat} (distinct : order.Nodup) {left position : Nat}
    {counts : List Nat} (fits : position + left ≤ order.length) (index : Nat) :
    (spreadLeft order left position counts)[index]? =
      counts[index]?.map fun count =>
        count + if index ∈ (order.drop position).take left then 1 else 0 := by
  induction left generalizing position counts with
  | zero => simp [spreadLeft]
  | succ left induction =>
      have bound : position < order.length := by omega
      have split : (order.drop position).take (left + 1) =
          order[position] :: (order.drop (position + 1)).take left := by
        rw [List.drop_eq_getElem_cons bound, List.take_succ_cons]
      have fresh : order[position] ∉ (order.drop (position + 1)).take left := by
        have suffix := distinct.sublist (List.drop_sublist position order)
        rw [List.drop_eq_getElem_cons bound] at suffix
        exact fun member => (List.nodup_cons.mp suffix).1 (List.mem_of_mem_take member)
      have onward : (spreadLeft order left ((position + 1) % order.length)
          (counts.modify order[position] (· + 1)))[index]? =
          (counts.modify order[position] (· + 1))[index]?.map fun count =>
            count + if index ∈ (order.drop (position + 1)).take left then 1 else 0 := by
        by_cases last : position + 1 = order.length
        · obtain rfl : left = 0 := by omega
          simp [spreadLeft]
        · rw [Nat.mod_eq_of_lt (by omega)]
          exact induction (by omega)
      rw [spreadLeft, List.getD_eq_getElem _ _ bound, onward, List.getElem?_modify, split]
      cases counts[index]? with
      | none => simp
      | some count =>
          by_cases here : order[position] = index
          · subst here
            simp [fresh]
          · simp [here, Ne.symm here]

theorem sum_spreadLeft {order : List Nat} {left position : Nat} {counts : List Nat}
    (position_lt : 0 < left → position < order.length)
    (within : ∀ index ∈ order, index < counts.length) :
    (spreadLeft order left position counts).sum = counts.sum + left := by
  induction left generalizing position counts with
  | zero => rfl
  | succ left induction =>
      have bound := position_lt (Nat.succ_pos left)
      have inside : order[position] < counts.length := within _ (List.getElem_mem bound)
      rw [spreadLeft, List.getD_eq_getElem _ _ bound, induction]
      · rw [Apportionment.sum_modify inside]
        omega
      · exact fun _ => Nat.mod_lt _ (by omega)
      · simpa using within

/-! ## Counts under the cap -/

def heaviestFirst (excess : List Nat) (length : Nat) : List Nat :=
  (List.range length).mergeSort fun left right =>
    decide (excess.getD right 0 ≤ excess.getD left 0)

theorem mem_heaviestFirst {excess : List Nat} {length index : Nat} :
    index ∈ heaviestFirst excess length ↔ index < length := by
  simp [heaviestFirst]

theorem length_heaviestFirst (excess : List Nat) (length : Nat) :
    (heaviestFirst excess length).length = length := by
  simp [heaviestFirst]

theorem nodup_heaviestFirst (excess : List Nat) (length : Nat) :
    (heaviestFirst excess length).Nodup :=
  (List.mergeSort_perm _ _).nodup_iff.mpr List.nodup_range

theorem heaviestFirst_falling (excess : List Nat) (length : Nat) :
    (heaviestFirst excess length).Pairwise fun left right =>
      excess.getD right 0 ≤ excess.getD left 0 := by
  have sorted : (heaviestFirst excess length).Pairwise fun left right =>
      decide (excess.getD right 0 ≤ excess.getD left 0) = true :=
    List.pairwise_mergeSort
      (fun first second third => by simp only [decide_eq_true_eq]; omega)
      (fun left right => by simp only [Bool.or_eq_true, decide_eq_true_eq]; omega) _
  simpa only [decide_eq_true_eq] using sorted

section Shrinking

variable {counts : List Nat}

def excessOf (counts : List Nat) : List Nat := counts.map (· - 1)

def sharesOf (counts : List Nat) : List Nat :=
  (excessOf counts).map fun each =>
    1 + each * (slotExpansionCap - counts.length) / (excessOf counts).sum

theorem shrinkCounts_eq (counts : List Nat) :
    shrinkCounts counts =
      spreadLeft (heaviestFirst (excessOf counts) counts.length)
        (slotExpansionCap - (sharesOf counts).sum) 0 (sharesOf counts) := by
  simp [shrinkCounts, sharesOf, excessOf, heaviestFirst]

theorem sum_excessOf (positive : ∀ count ∈ counts, 0 < count) :
    (excessOf counts).sum + counts.length = counts.sum := by
  induction counts with
  | nil => rfl
  | cons count rest induction =>
      have here := positive count List.mem_cons_self
      have later := induction fun each member => positive each (List.mem_cons_of_mem _ member)
      simp only [excessOf, List.map_cons, List.sum_cons, List.length_cons] at later ⊢
      omega

theorem sum_sharesOf (counts : List Nat) :
    (sharesOf counts).sum = counts.length +
      (Apportionment.floors (excessOf counts) (slotExpansionCap - counts.length)
        (excessOf counts).sum).sum := by
  have shifted (parts : List Nat) (budget whole : Nat) :
      (parts.map fun each => 1 + each * budget / whole).sum =
        parts.length + (Apportionment.floors parts budget whole).sum := by
    induction parts with
    | nil => rfl
    | cons part rest induction =>
        simp only [Apportionment.floors, List.map_cons, List.sum_cons, List.length_cons] at *
        omega
  rw [sharesOf, shifted]
  simp [excessOf]

/-- The counts exceed the cap, and there are fewer peers than cells. -/
structure Crowded (counts : List Nat) : Prop where
  positive : ∀ count ∈ counts, 0 < count
  beyond : slotExpansionCap < counts.sum
  few : counts.length < slotExpansionCap

namespace Crowded

theorem excess_pos (crowded : Crowded counts) : 0 < (excessOf counts).sum := by
  have split := sum_excessOf crowded.positive
  have beyond := crowded.beyond
  have few := crowded.few
  omega

theorem shares_le (crowded : Crowded counts) : (sharesOf counts).sum ≤ slotExpansionCap := by
  have bound := @Apportionment.sum_floors_le _ (slotExpansionCap - counts.length) crowded.excess_pos
  have few := crowded.few
  rw [sum_sharesOf]
  omega

theorem left_lt (crowded : Crowded counts) :
    slotExpansionCap - (sharesOf counts).sum < counts.length := by
  have bound := @Apportionment.budget_lt _ (slotExpansionCap - counts.length) crowded.excess_pos
  have few := crowded.few
  have room := crowded.shares_le
  have sum := sum_sharesOf counts
  simp only [excessOf, List.length_map] at bound sum
  omega

theorem sum_shrinkCounts (crowded : Crowded counts) :
    (shrinkCounts counts).sum = slotExpansionCap := by
  have left := crowded.left_lt
  have room := crowded.shares_le
  rw [shrinkCounts_eq, sum_spreadLeft]
  · omega
  · intro _
    rw [length_heaviestFirst]
    omega
  · intro index member
    simpa [sharesOf, excessOf] using mem_heaviestFirst.mp member

theorem shrinkCounts_getElem? (crowded : Crowded counts) {index count : Nat}
    (stored : counts[index]? = some count) :
    (shrinkCounts counts)[index]? = some
      (1 + (count - 1) * (slotExpansionCap - counts.length) / (excessOf counts).sum +
        if index ∈ (heaviestFirst (excessOf counts) counts.length).take
          (slotExpansionCap - (sharesOf counts).sum) then 1 else 0) := by
  have left := crowded.left_lt
  rw [shrinkCounts_eq, spreadLeft_getElem? (nodup_heaviestFirst _ _)
    (by rw [length_heaviestFirst]; omega)]
  simp [sharesOf, excessOf, stored]

theorem shrinkCounts_mono (crowded : Crowded counts) {lighter heavier small large : Nat}
    (storedSmall : counts[lighter]? = some small) (storedLarge : counts[heavier]? = some large)
    (more : small < large) :
    ∃ few many, (shrinkCounts counts)[lighter]? = some few ∧
      (shrinkCounts counts)[heavier]? = some many ∧ few ≤ many := by
  refine ⟨_, _, crowded.shrinkCounts_getElem? storedSmall,
    crowded.shrinkCounts_getElem? storedLarge, ?_⟩
  have floors : (small - 1) * (slotExpansionCap - counts.length) / (excessOf counts).sum ≤
      (large - 1) * (slotExpansionCap - counts.length) / (excessOf counts).sum :=
    Nat.div_le_div_right (Nat.mul_le_mul_right _ (by omega))
  have bound : heavier < counts.length := (List.getElem?_eq_some_iff.mp storedLarge).1
  have smallPositive := crowded.positive small (List.mem_of_getElem? storedSmall)
  have excess {index count : Nat} (stored : counts[index]? = some count) :
      (excessOf counts).getD index 0 = count - 1 := by
    simp [excessOf, List.getD_eq_getElem?_getD, stored]
  have follows : lighter ∈ (heaviestFirst (excessOf counts) counts.length).take
        (slotExpansionCap - (sharesOf counts).sum) →
      heavier ∈ (heaviestFirst (excessOf counts) counts.length).take
        (slotExpansionCap - (sharesOf counts).sum) := fun first =>
    Apportionment.larger_among_first (heaviestFirst_falling _ _) (mem_heaviestFirst.mpr bound)
      first (by rw [excess storedSmall, excess storedLarge]; omega)
  split
  · next first => rw [if_pos (follows first)]; omega
  · omega

end Crowded

end Shrinking

/-! ## Reduced weights -/

def weightGcd (peers : List WeightedPeer) : Nat :=
  peers.foldl (fun divisor each => Nat.gcd divisor each.weight) 0

def askedCells (peers : List WeightedPeer) : Nat :=
  (peers.map fun each => each.weight / weightGcd peers).sum

section Weights

variable {peers others : List WeightedPeer}

theorem weightGcd_dvd {each : WeightedPeer} (member : each ∈ peers) :
    weightGcd peers ∣ each.weight := by
  have general : ∀ (start : Nat),
      (peers.foldl (fun divisor each => Nat.gcd divisor each.weight) start ∣ start) ∧
        ∀ each ∈ peers,
          peers.foldl (fun divisor each => Nat.gcd divisor each.weight) start ∣ each.weight := by
    clear member
    induction peers with
    | nil => exact fun start => ⟨dvd_rfl, by simp⟩
    | cons first rest induction =>
        intro start
        obtain ⟨ofStart, ofRest⟩ := induction (Nat.gcd start first.weight)
        refine ⟨ofStart.trans (Nat.gcd_dvd_left _ _), ?_⟩
        intro each member
        rcases List.mem_cons.mp member with rfl | later
        · exact ofStart.trans (Nat.gcd_dvd_right _ _)
        · exact ofRest each later
  exact (general 0).2 each member

theorem weightGcd_perm (permutation : others.Perm peers) : weightGcd others = weightGcd peers := by
  refine permutation.foldl_eq' ?_ 0
  intro first _ second _ divisor
  rw [Nat.gcd_assoc, Nat.gcd_assoc, Nat.gcd_comm second.weight]

theorem reducedCounts_eq (weights : ∀ each ∈ peers, 1 ≤ each.weight) :
    reducedCounts peers = peers.map fun each => each.weight / weightGcd peers := by
  have sameGcd : peers.foldl (fun acc each => Nat.gcd acc (max 1 each.weight)) 0 =
      weightGcd peers := by
    refine List.foldl_ext _ _ 0 fun divisor each member => ?_
    rw [Nat.max_eq_right (weights each member)]
  refine List.map_congr_left fun each member => ?_
  have weight := weights each member
  have divides := weightGcd_dvd member
  have positive : 0 < weightGcd peers := Nat.pos_of_dvd_of_pos divides weight
  have quotient : 0 < each.weight / weightGcd peers :=
    Nat.div_pos (Nat.le_of_dvd weight divides) positive
  simp only [sameGcd, if_neg (Nat.ne_of_gt positive), Nat.max_eq_right weight]
  omega

theorem reduced_lt {lighter heavier : WeightedPeer} (member : heavier ∈ peers)
    (more : lighter.weight < heavier.weight) :
    lighter.weight / weightGcd peers < heavier.weight / weightGcd peers :=
  Nat.div_lt_div_of_lt_of_dvd (weightGcd_dvd member) more

end Weights

/-! ## The list of cells -/

theorem count_repeated {α : Type} [DecidableEq α] {items : List (α × Nat)} {item : α} {width : Nat}
    (distinct : (items.map Prod.fst).Nodup) (member : (item, width) ∈ items) :
    (items.flatMap fun each => List.replicate each.2 each.1).count item = width := by
  induction items with
  | nil => simp at member
  | cons first rest induction =>
      obtain ⟨fresh, later⟩ := List.nodup_cons.mp distinct
      rw [List.flatMap_cons, List.count_append]
      rcases List.mem_cons.mp member with rfl | member
      · have absent : item ∉ rest.flatMap fun each => List.replicate each.2 each.1 := by
          intro among
          obtain ⟨each, inside, repeated⟩ := List.mem_flatMap.mp among
          exact fresh (List.mem_map.mpr ⟨each, inside, (List.eq_of_mem_replicate repeated).symm⟩)
        rw [List.count_replicate_self, List.count_eq_zero.mpr absent, Nat.add_zero]
      · have other : first.1 ≠ item := by
          rintro rfl
          exact fresh (List.mem_map.mpr ⟨_, member, rfl⟩)
        rw [induction later member, List.count_replicate]
        simp [other]

theorem length_slotCounts (sorted : List WeightedPeer) :
    (slotCounts sorted).length = sorted.length := by
  unfold slotCounts cappedCounts
  split
  · split <;> simp [shrinkCounts, reducedCounts]
  · simp [reducedCounts]

/-- Every peer of a sorted list with its number of cells -/
def cellsOf (sorted : List WeightedPeer) : List (String × Nat) :=
  sorted.zipIdx.map fun (each, position) => (each.peer, (slotCounts sorted).getD position 1)

theorem cells_perm (peers : List WeightedPeer) :
    (weightedSlots peers).Perm
      ((cellsOf (sortedBy WeightedPeer.peer peers)).flatMap fun each =>
        List.replicate each.2 each.1) := by
  have marks (sorted : List WeightedPeer) : (slotMarks sorted).map SlotMark.peer =
      (cellsOf sorted).flatMap fun each => List.replicate each.2 each.1 := by
    simp [slotMarks, cellsOf, List.map_flatMap, List.flatMap_map, Function.comp_def,
      List.map_const']
  rw [weightedSlots, ← marks]
  exact (List.mergeSort_perm _ _).map _

theorem cellsOf_fst (sorted : List WeightedPeer) :
    (cellsOf sorted).map Prod.fst = sorted.map WeightedPeer.peer := by
  rw [cellsOf, List.map_map]
  have firsts : sorted.zipIdx.map Prod.fst = sorted := List.zipIdx_map_fst 0 sorted
  conv_rhs => rw [← firsts, List.map_map]
  rfl

theorem cellsOf_snd (sorted : List WeightedPeer) :
    (cellsOf sorted).map Prod.snd = slotCounts sorted := by
  refine List.ext_getElem (by simp [cellsOf, length_slotCounts]) fun index _ bound => ?_
  simp [cellsOf, List.getElem?_eq_getElem bound]

theorem length_weightedSlots (peers : List WeightedPeer) :
    (weightedSlots peers).length = (slotCounts (sortedBy WeightedPeer.peer peers)).sum := by
  rw [(cells_perm peers).length_eq, List.length_flatMap, ← cellsOf_snd]
  simp

theorem count_weightedSlots {peers : List WeightedPeer}
    (distinct : (peers.map WeightedPeer.peer).Nodup) {index count : Nat} {each : WeightedPeer}
    (stored : (sortedBy WeightedPeer.peer peers)[index]? = some each)
    (counted : (slotCounts (sortedBy WeightedPeer.peer peers))[index]? = some count) :
    (weightedSlots peers).count each.peer = count := by
  rw [(cells_perm peers).count_eq]
  refine count_repeated ?_ ?_
  · rw [cellsOf_fst]
    exact ((List.mergeSort_perm _ _).map _).nodup_iff.mpr distinct
  · refine List.mem_map.mpr ⟨(each, index), List.mk_mem_zipIdx_iff_getElem?.mpr stored, ?_⟩
    simp [List.getD_eq_getElem?_getD, counted]

/-! ## Fairness -/

structure FairSlots (peers : List WeightedPeer) (slots : List String) : Prop where
  served : ∀ each ∈ peers, 0 < slots.count each.peer
  nobodyElse : ∀ slot ∈ slots, ∃ each ∈ peers, each.peer = slot
  bounded : slots.length ≤ max slotExpansionCap peers.length
  proportional : askedCells peers ≤ slotExpansionCap → ∀ each ∈ peers,
    slots.count each.peer * weightGcd peers = each.weight
  filled : slotExpansionCap < askedCells peers → peers.length < slotExpansionCap →
    slots.length = slotExpansionCap
  ordered : ∀ lighter ∈ peers, ∀ heavier ∈ peers, lighter.weight < heavier.weight →
    slots.count lighter.peer ≤ slots.count heavier.peer

section Fairness

variable {peers : List WeightedPeer}

theorem reducedCounts_sorted (weights : ∀ each ∈ peers, 1 ≤ each.weight) :
    reducedCounts (sortedBy WeightedPeer.peer peers) =
      (sortedBy WeightedPeer.peer peers).map fun each => each.weight / weightGcd peers := by
  rw [reducedCounts_eq fun each member => weights each (mem_sortedBy.mp member),
    weightGcd_perm (sortedBy_perm _ peers)]

theorem sum_reducedCounts (weights : ∀ each ∈ peers, 1 ≤ each.weight) :
    (reducedCounts (sortedBy WeightedPeer.peer peers)).sum = askedCells peers := by
  rw [reducedCounts_sorted weights]
  exact ((sortedBy_perm WeightedPeer.peer peers).map _).sum_eq

theorem length_reducedCounts (sorted : List WeightedPeer) :
    (reducedCounts sorted).length = sorted.length := by
  simp [reducedCounts]

theorem slotCounts_fitting (weights : ∀ each ∈ peers, 1 ≤ each.weight)
    (fits : askedCells peers ≤ slotExpansionCap) :
    slotCounts (sortedBy WeightedPeer.peer peers) =
      (sortedBy WeightedPeer.peer peers).map fun each => each.weight / weightGcd peers := by
  rw [slotCounts, cappedCounts, if_neg (by rw [sum_reducedCounts weights]; omega),
    reducedCounts_sorted weights]

theorem crowded_reducedCounts (weights : ∀ each ∈ peers, 1 ≤ each.weight)
    (beyond : slotExpansionCap < askedCells peers) (few : peers.length < slotExpansionCap) :
    Crowded (reducedCounts (sortedBy WeightedPeer.peer peers)) where
  positive := reducedCounts_pos _
  beyond := by rwa [sum_reducedCounts weights]
  few := by rwa [length_reducedCounts, length_sortedBy]

theorem slotCounts_crowded (weights : ∀ each ∈ peers, 1 ≤ each.weight)
    (beyond : slotExpansionCap < askedCells peers) (few : peers.length < slotExpansionCap) :
    slotCounts (sortedBy WeightedPeer.peer peers) =
      shrinkCounts (reducedCounts (sortedBy WeightedPeer.peer peers)) := by
  have crowded := crowded_reducedCounts weights beyond few
  rw [slotCounts, cappedCounts, if_pos crowded.beyond, if_pos crowded.few]

theorem slotCounts_ones (weights : ∀ each ∈ peers, 1 ≤ each.weight)
    (beyond : slotExpansionCap < askedCells peers) (many : slotExpansionCap ≤ peers.length) :
    slotCounts (sortedBy WeightedPeer.peer peers) =
      (sortedBy WeightedPeer.peer peers).map fun _ => 1 := by
  rw [slotCounts, cappedCounts, if_pos (by rwa [sum_reducedCounts weights]),
    if_neg (by rw [length_reducedCounts, length_sortedBy]; omega), reducedCounts_sorted weights,
    List.map_map]
  rfl

theorem place_of_mem {each : WeightedPeer} (member : each ∈ peers) :
    ∃ index : Nat, (sortedBy WeightedPeer.peer peers)[index]? = some each :=
  List.mem_iff_getElem?.mp (mem_sortedBy.mpr member)

theorem slotCounts_ordered (weights : ∀ each ∈ peers, 1 ≤ each.weight) {first second : Nat}
    {lighter heavier : WeightedPeer} (member : heavier ∈ peers)
    (storedFirst : (sortedBy WeightedPeer.peer peers)[first]? = some lighter)
    (storedSecond : (sortedBy WeightedPeer.peer peers)[second]? = some heavier)
    (more : lighter.weight < heavier.weight) :
    ∃ few many, (slotCounts (sortedBy WeightedPeer.peer peers))[first]? = some few ∧
      (slotCounts (sortedBy WeightedPeer.peer peers))[second]? = some many ∧ few ≤ many := by
  have reduced := reduced_lt member more
  by_cases fits : askedCells peers ≤ slotExpansionCap
  · rw [slotCounts_fitting weights fits]
    exact ⟨_, _, by rw [List.getElem?_map, storedFirst]; rfl,
      by rw [List.getElem?_map, storedSecond]; rfl, Nat.le_of_lt reduced⟩
  · have beyond := Nat.not_le.mp fits
    by_cases few : peers.length < slotExpansionCap
    · rw [slotCounts_crowded weights beyond few]
      refine (crowded_reducedCounts weights beyond few).shrinkCounts_mono ?_ ?_ reduced
      · rw [reducedCounts_sorted weights, List.getElem?_map, storedFirst]
        rfl
      · rw [reducedCounts_sorted weights, List.getElem?_map, storedSecond]
        rfl
    · rw [slotCounts_ones weights beyond (Nat.not_lt.mp few)]
      exact ⟨1, 1, by rw [List.getElem?_map, storedFirst]; rfl,
        by rw [List.getElem?_map, storedSecond]; rfl, Nat.le_refl 1⟩

theorem length_slots_le (weights : ∀ each ∈ peers, 1 ≤ each.weight) :
    (weightedSlots peers).length ≤ max slotExpansionCap peers.length := by
  rw [length_weightedSlots]
  by_cases fits : askedCells peers ≤ slotExpansionCap
  · have sum : (slotCounts (sortedBy WeightedPeer.peer peers)).sum = askedCells peers := by
      rw [slotCounts_fitting weights fits, ← reducedCounts_sorted weights,
        sum_reducedCounts weights]
    omega
  · have beyond := Nat.not_le.mp fits
    by_cases few : peers.length < slotExpansionCap
    · rw [slotCounts_crowded weights beyond few,
        (crowded_reducedCounts weights beyond few).sum_shrinkCounts]
      omega
    · rw [slotCounts_ones weights beyond (Nat.not_lt.mp few)]
      simp

/-- The slots of distinct peers are shared fairly, and the order in which the
peers are given does not matter. -/
theorem weightedSlots_fair (distinct : (peers.map WeightedPeer.peer).Nodup)
    (weights : ∀ each ∈ peers, 1 ≤ each.weight ∧ each.weight ≤ 1000000) :
    FairSlots peers (weightedSlots peers) ∧
      ∀ others : List WeightedPeer, others.Perm peers →
        weightedSlots others = weightedSlots peers := by
  have counted : ∀ each ∈ peers, 1 ≤ each.weight := fun each member => (weights each member).1
  refine ⟨⟨?_, ?_, length_slots_le counted, ?_, ?_, ?_⟩, ?_⟩
  · intro each member
    exact List.count_pos_iff.mpr (mem_weightedSlots.mpr ⟨each, member, rfl⟩)
  · exact fun slot member => mem_weightedSlots.mp member
  · intro fits each member
    obtain ⟨index, stored⟩ := place_of_mem member
    have count : (slotCounts (sortedBy WeightedPeer.peer peers))[index]? =
        some (each.weight / weightGcd peers) := by
      rw [slotCounts_fitting counted fits, List.getElem?_map, stored]
      rfl
    rw [count_weightedSlots distinct stored count]
    exact Nat.div_mul_cancel (weightGcd_dvd member)
  · intro beyond few
    rw [length_weightedSlots, slotCounts_crowded counted beyond few,
      (crowded_reducedCounts counted beyond few).sum_shrinkCounts]
  · intro lighter lighterMember heavier heavierMember more
    obtain ⟨first, storedFirst⟩ := place_of_mem lighterMember
    obtain ⟨second, storedSecond⟩ := place_of_mem heavierMember
    obtain ⟨few, many, countFew, countMany, ordered⟩ :=
      slotCounts_ordered counted heavierMember storedFirst storedSecond more
    rw [count_weightedSlots distinct storedFirst countFew,
      count_weightedSlots distinct storedSecond countMany]
    exact ordered
  · intro others permutation
    unfold weightedSlots
    rw [sortedBy_eq_of_perm permutation fun left leftMember right rightMember =>
      List.inj_on_of_nodup_map distinct leftMember rightMember]

end Fairness

def unevenPeers : List WeightedPeer :=
  [⟨"10.0.0.2:80", 1, ⟨none, none⟩⟩, ⟨"10.0.0.1:80", 1000000, ⟨none, none⟩⟩]

theorem weightedSlots_fair_unevenPeers :
    (unevenPeers.map WeightedPeer.peer).Nodup ∧
      (∀ each ∈ unevenPeers, 1 ≤ each.weight ∧ each.weight ≤ 1000000) ∧
        FairSlots unevenPeers (weightedSlots unevenPeers) ∧
          (weightedSlots unevenPeers).length = 256 := by
  have distinct : (unevenPeers.map WeightedPeer.peer).Nodup := by decide
  have weights : ∀ each ∈ unevenPeers, 1 ≤ each.weight ∧ each.weight ≤ 1000000 := by decide
  have fair := (weightedSlots_fair distinct weights).1
  exact ⟨distinct, weights, fair, fair.filled (by decide) (by decide)⟩

end Control

end Barycenter
