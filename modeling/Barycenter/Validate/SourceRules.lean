import Barycenter.Validate.Model
import Mathlib.Data.Finset.Max

/-!
# Source rules

The rules of a route are tried from the top, while a table of networks answers
with the longest range.  In a valid model no rule hides a range of a later one,
and the two ways to look an address up agree.
-/

namespace Barycenter

namespace Validate

open Config

variable {family : Family} {number : Nat}

/-! ## Ranges with an address -/

def contains (family : Family) (number : Nat) (cidr : String) : Bool :=
  number < 2 ^ widthOf family && (networkOf cidr).any fun network =>
    let host := 2 ^ (widthOf family - network.length)
    network.family = family && number / host * host = network.first

def lengthOf (cidr : String) : Nat := ((networkOf cidr).map Network.length).getD 0

/-- Of two ranges with a common address the shorter one covers the other. -/
theorem covers_of_common {wide narrow : String} (inWide : contains family number wide = true)
    (inNarrow : contains family number narrow = true) (shorter : lengthOf wide ≤ lengthOf narrow) :
    cidrCovers wide narrow = true := by
  simp only [contains, Bool.and_eq_true, Option.any_eq_true, decide_eq_true_eq] at inWide inNarrow
  obtain ⟨-, outer, wideRead, same, start⟩ := inWide
  obtain ⟨-, inner, read, rfl, first⟩ := inNarrow
  simp only [lengthOf, wideRead, read, Option.map_some, Option.getD_some] at shorter
  obtain ⟨more, split⟩ :=
    Nat.exists_eq_add_of_le (Nat.sub_le_sub_left shorter (widthOf inner.family))
  have inside : inner.first / 2 ^ (widthOf inner.family - outer.length) =
      number / 2 ^ (widthOf inner.family - outer.length) := by
    rw [← first, split, pow_add, ← Nat.div_div_eq_div_mul, ← Nat.div_div_eq_div_mul,
      Nat.mul_div_cancel _ (Nat.two_pow_pos _)]
  simp [cidrCovers, wideRead, read, same, shorter, inside, start]

/-! ## Rules -/

variable (model : Model) (address : SourceAddress)

/-- The ranges that a rule has for one of the two addresses of a connection. -/
def rangesFor (rule : HttpSourceRule) : List String :=
  if rule.address.getD .visitor = address then expandList (rangesOf model) rule.sources else []

def has (family : Family) (number : Nat) (rule : HttpSourceRule) : Bool :=
  (rangesFor model address rule).any (contains family number)

/-- The rule that takes an address, from the top. -/
def firstRule (family : Family) (number : Nat) (rules : List HttpSourceRule) :
    Option HttpSourceRule :=
  rules.find? (has model address family number)

/-- A rule with a range that no rule has a longer one for. -/
def LongestRule (family : Family) (number : Nat) (rules : List HttpSourceRule)
    (rule : HttpSourceRule) : Prop :=
  rule ∈ rules ∧ ∃ cidr ∈ rangesFor model address rule, contains family number cidr = true ∧
    ∀ other ∈ rules, ∀ range ∈ rangesFor model address other,
      contains family number range = true → lengthOf range ≤ lengthOf cidr

def Hides (earlier later : HttpSourceRule) : Prop :=
  ∃ wide ∈ rangesFor model address earlier, ∃ cidr ∈ rangesFor model address later,
    cidrCovers wide cidr = true

variable {model} {address} {rules : List HttpSourceRule} {rule : HttpSourceRule}

theorem has_iff : has model address family number rule = true ↔
    ∃ cidr ∈ rangesFor model address rule, contains family number cidr = true := by
  simp [has]

theorem mem_rangesFor {cidr : String} :
    cidr ∈ rangesFor model address rule ↔
      rule.address.getD .visitor = address ∧ cidr ∈ expandList (rangesOf model) rule.sources := by
  rw [rangesFor]
  split <;> simp_all

theorem unhidden {key : String} {index : Nat} {seen : List SeenRange}
    (quiet : shadowIssues model key index seen rules = []) :
    (∀ rule ∈ rules, ∀ range ∈ seen, range.address = address →
      ∀ cidr ∈ rangesFor model address rule, cidrCovers range.cidr cidr = false) ∧
      rules.Pairwise fun earlier later => ¬ Hides model address earlier later := by
  induction rules generalizing index seen with
  | nil => simp
  | cons rule rest induction =>
      simp only [shadowIssues, List.append_eq_nil_iff, List.filterMap_eq_nil_iff,
        Option.map_eq_none_iff, List.find?_eq_none, Bool.and_eq_true, decide_eq_true_eq, not_and,
        Bool.not_eq_true] at quiet
      obtain ⟨before, after⟩ := induction quiet.2
      constructor
      · intro later listed range member same cidr inside
        rcases List.mem_cons.mp listed with rfl | listed
        · obtain ⟨own, inside⟩ := mem_rangesFor.mp inside
          exact quiet.1 cidr inside range member (same.trans own.symm)
        · exact before later listed range (List.mem_append_left _ member) same cidr inside
      · refine List.pairwise_cons.mpr ⟨fun later listed hides => ?_, after⟩
        obtain ⟨wide, first, cidr, inside, covers⟩ := hides
        obtain ⟨own, first⟩ := mem_rangesFor.mp first
        have free := before later listed ⟨wide, index, rule.address.getD .visitor⟩
          (List.mem_append_right _ (List.mem_map_of_mem first)) own cidr inside
        rw [covers] at free
        cases free

section

variable (apart : rules.Pairwise fun earlier later => ¬ Hides model address earlier later)

include apart

theorem unhidden_by_first (first : firstRule model address family number rules = some rule) :
    has model address family number rule = true ∧ ∀ other ∈ rules,
      has model address family number other = true →
        other = rule ∨ ¬ Hides model address rule other := by
  obtain ⟨taken, front, back, rfl, passed⟩ := List.find?_eq_some_iff_append.mp first
  refine ⟨taken, fun other listed holds => ?_⟩
  rcases List.mem_append.mp listed with early | late
  · have skipped := passed other early
    rw [holds] at skipped
    cases skipped
  · rcases List.mem_cons.mp late with rfl | late
    · exact .inl rfl
    · exact .inr ((List.pairwise_cons.mp (List.pairwise_append.mp apart).2.1).1 other late)

theorem longest_of_first (first : firstRule model address family number rules = some rule) :
    LongestRule model address family number rules rule := by
  obtain ⟨taken, free⟩ := unhidden_by_first apart first
  have some : ((rangesFor model address rule).filter (contains family number)).toFinset.Nonempty := by
    obtain ⟨cidr, member, inside⟩ := has_iff.mp taken
    exact ⟨cidr, by simp [member, inside]⟩
  obtain ⟨cidr, longest, maximal⟩ := Finset.exists_max_image _ lengthOf some
  simp only [List.mem_toFinset, List.mem_filter] at longest maximal
  refine ⟨List.mem_of_find?_eq_some first, cidr, longest.1, longest.2,
    fun other listed range member inside => ?_⟩
  rcases free other listed (has_iff.mpr ⟨range, member, inside⟩) with rfl | unhidden
  · exact maximal range ⟨member, inside⟩
  · -- A longer range of a later rule would lie in the one found here.
    by_contra longer
    exact unhidden ⟨cidr, longest.1, range, member,
      covers_of_common longest.2 inside (Nat.le_of_not_le longer)⟩

theorem first_of_longest (longest : LongestRule model address family number rules rule) :
    firstRule model address family number rules = some rule := by
  obtain ⟨listed, cidr, member, inside, maximal⟩ := longest
  have holds := has_iff.mpr ⟨cidr, member, inside⟩
  obtain ⟨first, found⟩ := Option.isSome_iff_exists.mp
    (List.find?_isSome.mpr ⟨rule, listed, holds⟩)
  obtain ⟨taken, free⟩ := unhidden_by_first apart found
  obtain ⟨wide, own, common⟩ := has_iff.mp taken
  rcases free rule listed holds with rfl | unhidden
  · exact found
  · exact absurd ⟨wide, own, cidr, member, covers_of_common common inside
      (maximal first (List.mem_of_find?_eq_some found) wide own common)⟩ unhidden

end

/-- In a valid model the first rule with an address is the one that a table of
networks would answer with. -/
theorem first_rule_is_longest {runtime : Runtime} {caps : ValidationCapabilities} {route : HttpRoute}
    (valid : validateModel runtime caps model = []) (listed : route ∈ model.httpRoutes) :
    firstRule model address family number (route.sourceRules.getD []) = some rule ↔
      LongestRule model address family number (route.sourceRules.getD []) rule := by
  simp only [validateModel, List.append_eq_nil_iff, List.flatMap_eq_nil_iff] at valid
  have apart : (route.sourceRules.getD []).Pairwise fun earlier later =>
    ¬ Hides model address earlier later := (unhidden (valid.1.1.1.1.1.2 route listed)).2
  exact ⟨longest_of_first apart, first_of_longest apart⟩

def officeRules : List HttpSourceRule :=
  [⟨["10.1.0.0/16"], .reject 403, none⟩, ⟨["10.0.0.0/8"], .reject 410, none⟩]

def officeModel : Model :=
  { listeners := [{ key := "web", bind := "10.0.0.1", port := 80, enabled := true, body := .http {} }]
    httpRoutes := [{ key := "app", listener := "web", hosts := ["a.example.com"], priority := 0,
                     action := .reject 404, sourceRules := some officeRules }] }

/-- The address 10.1.0.0 is in both ranges. -/
theorem first_rule_is_longest_of_nested :
    LongestRule officeModel .visitor .v4 167837696 officeRules
      ⟨["10.1.0.0/16"], .reject 403, none⟩ :=
  (first_rule_is_longest (show validateModel plainRuntime ⟨true, none, none⟩ officeModel = [] by
    decide +kernel) (List.mem_singleton_self _)).mp (by decide +kernel)

end Validate

end Barycenter
