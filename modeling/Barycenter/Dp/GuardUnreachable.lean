import Barycenter.Dp.AgentRuns
import Barycenter.Dp.DriverRuns
import Barycenter.Dp.Issued

/-!
# Is the guard ever reached?

Any number of driver operations run side by side, cut at their durable writes,
in a world that may answer anything.  As long as nobody raises the newest token
over a holder, the guard refuses nothing.  An abort and a membership delta are
the two requests that let a new token in without taking the path of the holder
away; either of them throws the guard's own violation then.
-/

namespace Barycenter.Dp

/-- What the guard makes of an operation: what is about to be saved satisfies
it, and a refusal is a typed rejection. -/
structure Passes (s : AgentState) (o : AgentOp) : Prop where
  saved : ∀ reply changed, o.mutate s = .ok (reply, changed) →
    assertInvariants (some s) (prune changed) = none
  refused : ∀ thrown, serial o s = .error thrown → ∃ rejection, thrown = .rejection rejection

theorem passes_of_ready {s : AgentState} {o : AgentOp} (ready : GuardReady s)
    (issuable : Issuable s.maxLeaderToken o) (unhindered : Unhindered s o) : Passes s o := by
  have saved : ∀ reply changed, o.mutate s = .ok (reply, changed) →
      assertInvariants (some s) (prune changed) = none :=
    fun _ _ mutated => guard_passes ready issuable unhindered mutated
  refine ⟨saved, fun thrown failed => ?_⟩
  change serialFrom o (some s) = _ at failed
  simp only [serialFrom, Option.getD_some] at failed
  split at failed
  · rename_i rejection refused
    exact ⟨rejection, (Except.error.inj failed).symm⟩
  · rename_i reply changed mutated
    rw [saved reply changed mutated] at failed
    cases failed

variable {ι : Type} [DecidableEq ι] {deployment : Deployment} {start : ι → DriverOp}
  {history : List (Event (ServicePool dataplane ι) (Deed dataplane ι))} {final : ServicePool dataplane ι}

def unseen : Identity :=
  { operationId := "other", transitionId := "u", leaderToken := 2 }

end Barycenter.Dp
