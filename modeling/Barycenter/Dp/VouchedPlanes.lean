import Barycenter.Dp.AgentRuns

/-!
# Who vouches for a plane

A plane that bears a signature was brought to its epoch by a commit of the
signer, with proof of the activation and out of a slot with the staged payload.
-/

namespace Barycenter.Dp

def Vouched (past : AgentHistory) (s : AgentState) : Prop :=
  ∀ plane author, (s.planes.get plane).author = some author →
    ∃ event ∈ past, ∃ op evidence slot, event.label = .commit op evidence ∧
      Agent.Moves event.before op evidence slot ∧ op.plane = plane ∧ op.author = author ∧
      op.target.activationEpoch = (s.planes.get plane).activationEpoch

theorem Vouched.step {past : AgentHistory} {event : Event AgentState AgentOp}
    (vouched : Vouched past event.before)
    (step : AgentStep event.before event.label event.after) :
    Vouched (past ++ [event]) event.after := by
  obtain ⟨reply, succeeded⟩ := step
  intro plane author signed
  rcases serial_planes succeeded plane with
    same | ⟨op, evidence, slot, label, here, moves, placed⟩ | ⟨op, -, rfl, revises, changed⟩
  · rw [same] at signed ⊢
    obtain ⟨found, member, rest⟩ := vouched plane author signed
    exact ⟨found, List.mem_append_left _ member, rest⟩
  · rw [placed] at signed ⊢
    exact ⟨event, by simp, op, evidence, slot, label, moves, here, Option.some.inj signed, rfl⟩
  · -- A revision keeps the epoch and the signature of its plane.
    rw [changed] at signed ⊢
    obtain ⟨found, member, commit, evidence, slot, label, moves, here, author, epoch⟩ :=
      vouched op.plane author signed
    exact ⟨found, List.mem_append_left _ member, commit, evidence, slot, label, moves, here,
      author, epoch.trans revises.sameEpoch.symm⟩

/-- In every state that a run reaches. -/
theorem planes_vouched {history : AgentHistory} {final : AgentState}
    (run : AgentRun history final) : Vouched history final := by
  refine Follows.with_past Vouched run ?_ fun _ _ _ step vouched => vouched.step step
  intro plane author signed
  cases plane <;> cases signed

theorem planes_vouched_of_plain_commit : ∃ history final, AgentRun history final ∧
    Vouched history final ∧ (final.planes.get .http).author.isSome := by
  let op := plainTuple { operationId := "a", transitionId := "b", leaderToken := 1 } .http 0 5
  obtain ⟨history, final, run, -, signed⟩ := exists_run_of_performAll
    [.reserve op, .stage op, .commit op (plainEvidence 5)]
    (fun _ final => (final.planes.get .http).author.isSome) (by decide +kernel)
  exact ⟨history, final, run, planes_vouched run, signed⟩

end Barycenter.Dp
