import Barycenter.Foundation.History
import Barycenter.Dp.AgentFrames

/-!
# Runs of the agent

Any number of callers issue operations of one agent in any order.  Each
operation that succeeds is one step of the durable state, and one that fails is
none.  A list of operations can also be executed, which is how concrete runs
are found.
-/

namespace Barycenter.Dp

/-- One operation of some caller reached its durable write. -/
def AgentStep (before : AgentState) (o : AgentOp) (after : AgentState) : Prop :=
  ∃ reply, serial o before = .ok (reply, after)

abbrev AgentHistory := List (Event AgentState AgentOp)

def AgentRun (history : AgentHistory) (final : AgentState) : Prop :=
  Follows AgentStep initial history final

/-- Perform one operation.  A failure performs nothing. -/
def performed (o : AgentOp) (s : AgentState) : Option (AgentOp × AgentState) :=
  match serial o s with
  | .error _ => none
  | .ok (_, next) => some (o, next)

def performAll (ops : List AgentOp) (s : AgentState) : Option (AgentHistory × AgentState) :=
  execute performed ops s

theorem follows_of_performAll {ops : List AgentOp} {s final : AgentState}
    {history : AgentHistory} (executed : performAll ops s = some (history, final)) :
    Follows AgentStep s history final ∧ history.map Event.label = ops := by
  refine follows_of_execute AgentStep (fun label => label) ?_ executed
  intro o before label next acted
  simp only [performed] at acted
  split at acted
  · cases acted
  · rename_i reply after succeeded
    cases acted
    exact ⟨⟨reply, succeeded⟩, rfl⟩

theorem exists_run_of_performAll (ops : List AgentOp)
    (check : AgentHistory → AgentState → Bool)
    (passed : (performAll ops initial).any (fun (history, final) => check history final) =
      true) :
    ∃ history final, AgentRun history final ∧ history.map Event.label = ops ∧
      check history final = true := by
  obtain ⟨⟨history, final⟩, performed, checked⟩ := (Option.any_eq_true _ _).mp passed
  obtain ⟨run, labels⟩ := follows_of_performAll performed
  exact ⟨history, final, run, labels, checked⟩

/-- A plain operation: both planes from one epoch to another. -/
def plainOperation (who : Identity) (current target : Nat) : ApplyOperation :=
  let toward : PlaneTarget :=
    { expectedCurrent :=
        { activationEpoch := .ofNat current
          membershipRevision := .ofNat 0 }
      target :=
        { activationEpoch := .ofNat target
          membershipRevision := .ofNat 0 }
      payloadDigest := s!"payload-{target}" }
  { leaderToken := .ofNat who.leaderToken
    operationId := who.operationId
    transitionId := who.transitionId
    affectedPlanes := [.http, .stream]
    planes := { http := some toward, stream := some toward }
    targetGeneration := s!"generation-{target}"
    generationDigest := s!"digest-{target}" }

def plainTuple (who : Identity) (plane : Plane) (current target : Nat) : OperationTuple :=
  { leaderToken := who.leaderToken
    operationId := who.operationId
    transitionId := who.transitionId
    plane := plane
    expectedCurrent := { activationEpoch := current, membershipRevision := 0 }
    target := { activationEpoch := target, membershipRevision := 0 }
    payloadDigest := s!"payload-{target}"
    targetGeneration := s!"generation-{target}"
    generationDigest := s!"digest-{target}" }

/-- Evidence that the generation of a plain operation is serving. -/
def plainEvidence (target : Nat) : ActivationEvidence :=
  { acceptingGeneration := some s!"generation-{target}" }

end Barycenter.Dp
