import Barycenter.Foundation.History
import Barycenter.Foundation.Pool
import Barycenter.Dp.AgentFrames
import Barycenter.Dp.Driver

/-!
# Runs of driver operations

Driver operations follow one another on one agent, each running its program to
the end in some world, or they run side by side in a pool.  Nothing is assumed
about what a world answers.
-/

namespace Barycenter.Dp

structure DriverCall where
  op : DriverOp
  result : Except Thrown op.Answer

def DriverStep (deployment : Deployment) (before : AgentState) (done : DriverCall)
    (after : AgentState) : Prop :=
  ∃ (W : Type) (E : Environment dataplane W) (world : W),
    ((done.op.program deployment).exec E before world).result = done.result ∧
      ((done.op.program deployment).exec E before world).state = after

abbrev DriverHistory := List (Event AgentState DriverCall)

def DriverRun (deployment : Deployment) (history : DriverHistory) (final : AgentState) :
    Prop :=
  Follows (DriverStep deployment) initial history final

theorem exec_newest {W α : Type} (E : Environment dataplane W) (program : Program α)
    (state : AgentState) (world : W) :
    state.maxLeaderToken ≤ (program.exec E state world).state.maxLeaderToken := by
  refine Prog.exec_preserves E (fun s => state.maxLeaderToken ≤ s.maxLeaderToken)
    ?_ program (le_refl _)
  intro op s reply next kept performed
  exact kept.trans (serial_newest performed)

theorem driverStep_newest {deployment : Deployment} {before after : AgentState}
    {done : DriverCall} (step : DriverStep deployment before done after) :
    before.maxLeaderToken ≤ after.maxLeaderToken := by
  obtain ⟨W, E, world, -, rfl⟩ := step
  exact exec_newest E _ before world

/-- Driver operations on a fresh agent, each about to start. -/
def driverPool {ι : Type} (deployment : Deployment) (start : ι → DriverOp) :
    ServicePool dataplane ι :=
  { state := initial
    threads := fun thread => do
      let _ ← (start thread).program deployment
      return () }

/-- Driver operations that start at one state are somewhere in their work at
another. -/
def Meanwhile (deployment : Deployment) (before after : AgentState) : Prop :=
  ∃ (start : Nat → DriverOp) (history : List (Event (ServicePool dataplane Nat) (Deed dataplane Nat)))
    (final : ServicePool dataplane Nat),
    Follows ServicePool.Step { driverPool deployment start with state := before } history final ∧
      final.state = after

theorem Meanwhile.refl (deployment : Deployment) (s : AgentState) :
    Meanwhile deployment s s :=
  ⟨fun _ => .recoverConfig, [], _, .nil _, rfl⟩

def driven (deployment : Deployment) (start : Nat → DriverOp)
    (turns : List (ServicePool.Turn dataplane Nat)) (s : AgentState) : AgentState :=
  (ServicePool.play turns { driverPool deployment start with state := s }).state

theorem meanwhile_driven (deployment : Deployment) (start : Nat → DriverOp)
    (turns : List (ServicePool.Turn dataplane Nat)) (s : AgentState) :
    Meanwhile deployment s (driven deployment start turns s) := by
  obtain ⟨history, run⟩ := ServicePool.follows_play turns
    { driverPool deployment start with state := s }
  exact ⟨start, history, _, run, rfl⟩

def plainDeployment : Deployment :=
  { stagesMembership := false
    pushesMembership := false }

def plainAnswers (published : PublishedState) (serving : Option ActivationEvidence) :
    (request : EffectCall) → Except Thrown request.Answer
  | .preflight _ => .ok ({ ok := true } : PreflightResult)
  | .publish _ _ => .ok ()
  | .observePublished => .ok published
  | .signalReload _ => .ok ()
  | .observeActivation => .ok serving
  | .stageMembership _ _ _ => .ok ()
  | .pushMembership _ _ _ => .ok ()

end Barycenter.Dp
