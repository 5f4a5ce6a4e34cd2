import Barycenter.Dp.Remote
import Barycenter.Control.GenerationSweep
import Barycenter.Control.MembershipOnly
import Mathlib.Algebra.Group.Nat.Defs

/-!
# The operations of the control plane, from afar

An operation that activates a configuration names the generation it was built as,
and such a name is always a piece of a path.  An operation that moves membership
only repeats the name that was observed as published, and when nothing owned was
observed it has no name at all.
-/

namespace Barycenter.Control

open Dp Dp.Remote

/-- An operation that moves membership only has a name exactly when what was
published is owned under such a name. -/
theorem operationOf_named_iff (request : MembershipRequest) (operationId : String)
    (s : AgentState) (published : PublishedState) :
    isPathSegment (request.operationOf operationId s published).targetGeneration = true ↔
      ∃ record, published = .owned record ∧ isPathSegment record.generation = true := by
  cases published with
  | owned record => simp [MembershipRequest.operationOf]
  | none | inconsistent _ _ => simp [MembershipRequest.operationOf, isPathSegment]

/-- Nothing that an agent answers to a membership move is heard when the published
generation was not an owned one. -/
theorem membership_not_transparent (link : Link) (request : MembershipRequest)
    (operationId : String) (s : AgentState) {published : PublishedState} (plane : Plane)
    (slots : Slots) (notOwned : ∀ record, published ≠ .owned record) :
    ¬ link.Transparent
      (.applyMembership (request.operationOf operationId s published) plane slots) := by
  intro transparent
  have carried := (transparent_iff_carries _ _).mp transparent
  obtain ⟨record, owned, -⟩ :=
    (operationOf_named_iff request operationId s published).mp (carried.named _ rfl)
  exact notOwned record owned

/-- Through the remote driver a call is the call itself, to the agent's driver and to
the caller, exactly when the generation of its operation has a name that is a piece
of a path, no attributes of peers go with it, and its messages have the allowed
size. -/
theorem remote_driver_transparent_iff (link : Link) (call : DataplaneCall) :
    link.Transparent call ↔
      (∀ op ∈ call.operation, isPathSegment op.targetGeneration = true) ∧
        call.attrs = .empty ∧
        call.body.bytes ≤ link.server.maxBody ∧
        ∀ body ∈ answerBody (link.server.driver.perform call),
          body.bytes ≤ maxResponseBytes := by
  rw [transparent_iff_carries]
  constructor
  · intro carried
    exact ⟨carried.named, carried.bare, carried.request, carried.response⟩
  · rintro ⟨named, bare, request, response⟩
    exact ⟨named, bare, request, response⟩

/-! ## A membership move before the first published generation -/

/-- An agent that has moved nothing yet, behind its own driver. -/
def freshDriver : AgentDriver where
  perform call :=
    match call with
    | .applyMembership op plane _ =>
        match tupleFor op plane with
        | .error rejection => .rejected rejection
        | .ok tuple =>
            match serial (.applyHealth tuple) initial with
            | .ok _ => .value (.record [("plane", some (.string plane.text))])
            | .error (.rejection rejection) => .rejected rejection
            | .error _ => .thrown "unexpected"
    | _ => .thrown "unexpected"
  typed call answers := by
    cases call <;> first | trivial | exact absurd answers (by decide)

def freshLink : Link where
  peer := { authorized := true, commonName := some "barycenter-cp" }
  server := { driver := freshDriver, allowedClientNames := ["barycenter-cp"] }
  authorized := rfl
  admitted := by decide

def firstMove : MembershipRequest where
  planId := "plan"
  revision := "3"
  epoch := 0
  slots := { http := .fromEntries [("web", ["10.0.0.1:80"])], stream := .empty }
  leaderToken := 1

def firstMoveCall : DataplaneCall :=
  .applyMembership (firstMove.operationOf "op" initial .none) .http (firstMove.slots.get .http)

def movedBy : Outcome → Bool
  | .value _ => true
  | _ => false

theorem movedBy_iff {outcome : Outcome} :
    movedBy outcome = true ↔ ∃ value, outcome = .value value := by
  cases outcome <;> simp [movedBy]

def unreadable : Seen → Bool
  | .rejected kind _ none => decide (kind = "malformed_request")
  | _ => false

theorem unreadable_iff {seen : Seen} :
    unreadable seen = true ↔ ∃ message, seen = .rejected "malformed_request" message none := by
  cases seen with
  | rejected kind message state => cases state <;> simp [unreadable]
  | _ => simp [unreadable]

/-- The agent's own driver accepts the move; from afar the same call is refused as
one that cannot be read. -/
theorem accepted_move_malformed_from_afar :
    (∃ value, freshDriver.perform firstMoveCall = .value value) ∧
      (∃ message, freshLink.seen firstMoveCall = .rejected "malformed_request" message none) ∧
      ¬ freshLink.Transparent firstMoveCall := by
  have accepted : movedBy (freshDriver.perform firstMoveCall) = true := by decide +kernel
  have refused : unreadable (freshLink.seen firstMoveCall) = true := by decide +kernel
  exact ⟨movedBy_iff.mp accepted, unreadable_iff.mp refused,
    membership_not_transparent freshLink firstMove "op" initial .http _
      (fun _ => PublishedState.noConfusion)⟩

end Barycenter.Control
