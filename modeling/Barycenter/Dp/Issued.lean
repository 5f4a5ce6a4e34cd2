import Barycenter.Dp.GuardPasses
import Barycenter.Dp.DriverRules

/-!
# What the driver issues

Between two steps of a program the newest token only rises, and whatever journal
is read carries a token that has been seen.  Relying on that, every program of
the driver issues only operations that are ready for the guard.
-/

namespace Barycenter.Dp

open Prog

def guardContract : Contract dataplane Unit where
  rely before after :=
    before.maxLeaderToken ≤ after.maxLeaderToken ∧
      ∀ entry, after.journal = some entry → entry.op.token ≤ after.maxLeaderToken
  answers _ _ _ _ _ := True
  issued op s := Issuable s.maxLeaderToken op
  requested _ _ := True

/-- From any state that has seen the token, the program issues only what is
issuable, and every token seen stays seen. -/
def Issues {α : Type} (token : Nat) (program : Program α) : Prop :=
  ∀ newest state, token ≤ newest → newest ≤ state.maxLeaderToken →
    program.Obeys guardContract (fun _ s _ => newest ≤ s.maxLeaderToken) state ()

namespace Issues

variable {α β : Type} {token : Nat}

theorem ok {value : α} : Issues token (pure value) :=
  fun _ _ _ seen => Obeys.ok seen

theorem fault {thrown : Thrown} : Issues token (throw thrown : Program α) :=
  fun _ _ _ seen => Obeys.fault seen

theorem bind {program : Program α} {rest : α → Program β} (first : Issues token program)
    (then_ : ∀ value, Issues token (rest value)) : Issues token (program >>= rest) := by
  intro newest state above seen
  refine Obeys.bind _ (first newest state above seen) ?_ fun _ _ _ seen => seen
  exact fun value state _ seen => then_ value newest state above seen

theorem handle {program : Program α} {rescue : Thrown → Program α}
    (first : Issues token program) (rescued : ∀ thrown, Issues token (rescue thrown)) :
    Issues token (tryCatch program rescue) := by
  intro newest state above seen
  refine Obeys.handle _ (first newest state above seen) (fun _ _ _ seen => seen) ?_
  exact fun thrown state _ seen => rescued thrown newest state above seen

theorem durably {o : AgentOp} (issuable : ∀ newest, token ≤ newest → Issuable newest o) :
    Issues token (durably o) := by
  intro newest state above seen
  refine obeys_durably fun current relied => ?_
  have still := seen.trans relied.1
  refine ⟨issuable _ (above.trans still), ?_, fun _ _ => still⟩
  exact fun _ _ succeeded => still.trans (serial_newest succeeded)

theorem effect {request : EffectCall} : Issues token (effect request) :=
  fun _ _ _ seen _ relied => ⟨trivial, fun _ _ _ => seen.trans relied.1⟩

theorem snapshot_then {rest : AgentState → Program α}
    (then_ : ∀ s : AgentState, token ≤ s.maxLeaderToken →
      (∀ entry, s.journal = some entry → entry.op.token ≤ s.maxLeaderToken) →
      Issues s.maxLeaderToken (rest s)) :
    Issues token (snapshot >>= rest) := by
  intro newest state above seen
  refine Obeys.snapshot_then fun current relied => ?_
  have still := seen.trans relied.1
  refine Obeys.mono (then_ current (above.trans still) relied.2 _ current (le_refl _)
    (le_refl _)) ?_
  exact fun _ _ _ later => still.trans later

end Issues

/-- What is read carries tokens that have been seen, so an entry of it may be
written on. -/
def issuance : DriverRules where
  Keeps seen program := Issues seen.maxLeaderToken program
  later seen s := seen.maxLeaderToken ≤ s.maxLeaderToken
  trusts seen entry := entry.op.token ≤ seen.maxLeaderToken
  allows seen o := ∀ newest, seen.maxLeaderToken ≤ newest → Issuable newest o
  ok := Issues.ok
  fault := Issues.fault
  bind := Issues.bind
  handle := Issues.handle
  durably := Issues.durably
  effect _ := Issues.effect
  snapshot_then := Issues.snapshot_then
  stays onward known := known.trans onward
  light {seen o} light newest above := by
    cases o <;> first | trivial | cases light
  opens newest above first opened := by
    cases opened
    rfl
  carries known extracted := by
    have carried := (tupleFor_leaderToken extracted).trans_le known
    exact ⟨fun _ above => carried.trans above, fun _ above => carried.trans above,
      fun _ _ above => carried.trans above⟩
  publishes known newest above := known.trans above
  reclaims known newest above := known.trans above
  writes known sameOp count successor newest above := by
    simpa only [Issuable, sameOp] using known.trans above
  wonReload {seen entry rest} known phase within signals after := by
    refine Issues.bind (Issues.handle ?_ fun thrown => ?_) fun won => ?_
    · exact Issues.bind (Issues.durably fun _ above => known.trans above) fun _ => Issues.ok
    · split
      · exact Issues.ok
      · exact Issues.fault
    · rw [signals]
      cases won with
      | false => exact Issues.ok
      | true => exact Issues.bind Issues.effect fun _ => after seen

theorem DriverOp.issues {token : Nat} {deployment : Deployment} (o : DriverOp) :
    Issues token (o.program deployment) := by
  have issues : issuance.Keeps { initial with maxLeaderToken := token } (o.program deployment) :=
    o.keeps
  exact issues

end Barycenter.Dp
