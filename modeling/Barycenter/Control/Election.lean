import Barycenter.Foundation.History
import Mathlib.Logic.Function.Basic

/-!
# Leader election over lock sessions

The election keeps the fields of one session at a time, while the callback that
it leaves with every session it has ever installed writes to these same fields.
Acquiring and releasing wait, so calls of both kinds interleave with each other
and with the events of all sessions.

The fields tell the truth about the current session as long as three things do
not happen: a session that was lost before its callback was attached is
installed, an event of another session arrives while a session is current, and
a release goes on while the election already leads with a newer session.
-/

namespace Barycenter.Control

/-! ## The lock session -/

inductive LossKind where
  | error
  | ended
deriving DecidableEq, Repr

/-- A session of the lock, from the moment it has the lock.  It holds the lock
until it loses it or is released; what it reports before anyone listens waits in
`early`. -/
structure LeaderSession where
  token : Nat
  since : String
  listening : Bool := false
  early : List (LossKind × String) := []
  holds : Bool := true
  reported : Bool := false
deriving DecidableEq, Repr

namespace LeaderSession

def lose (session : LeaderSession) (kind : LossKind) (why : String) : LeaderSession :=
  let told := { session with holds := false, reported := true }
  if session.listening then told else { told with early := told.early ++ [(kind, why)] }

/-- From now on somebody listens; what came early has been passed on. -/
def attach (session : LeaderSession) : LeaderSession :=
  { session with listening := true, early := [] }

def close (session : LeaderSession) : LeaderSession := { session with holds := false }

/-- The session has the lock and has not reported that it lost it. -/
def Leads (session : LeaderSession) : Prop := session.holds = true ∧ session.reported = false

instance (session : LeaderSession) : Decidable session.Leads :=
  inferInstanceAs (Decidable (_ ∧ _))

@[simp] theorem lose_token (session : LeaderSession) (kind : LossKind) (why : String) :
    (session.lose kind why).token = session.token := by
  unfold lose
  split <;> rfl

@[simp] theorem lose_listening (session : LeaderSession) (kind : LossKind) (why : String) :
    (session.lose kind why).listening = session.listening := by
  unfold lose
  split <;> rfl

@[simp] theorem lose_reported (session : LeaderSession) (kind : LossKind) (why : String) :
    (session.lose kind why).reported = true := by
  unfold lose
  split <;> rfl

theorem lose_early (session : LeaderSession) (kind : LossKind) (why : String)
    (unheard : session.listening = false) : (session.lose kind why).early ≠ [] := by
  simp [lose, unheard]

@[simp] theorem attach_token (session : LeaderSession) :
    session.attach.token = session.token := rfl

@[simp] theorem attach_listening (session : LeaderSession) :
    session.attach.listening = true := rfl

@[simp] theorem attach_holds (session : LeaderSession) :
    session.attach.holds = session.holds := rfl

@[simp] theorem attach_reported (session : LeaderSession) :
    session.attach.reported = session.reported := rfl

end LeaderSession

/-! ## The election -/

structure LeaderElection where
  session : Option Nat := none
  token : Option Nat := none
  since : Option String := none
  reason : Option String := some "아직 선출을 시도하지 않았다"
  lost : Bool := false
deriving DecidableEq, Repr

structure LeadershipState where
  isLeader : Bool
  token : Option Nat
  since : Option String
  reason : Option String
deriving DecidableEq, Repr

namespace LeaderElection

/-- The callback.  It does not know which session called it. -/
def hear (election : LeaderElection) (kind : LossKind) (why : String) : LeaderElection :=
  match kind with
  | .error => { election with lost := true, reason := some why }
  | .ended => { election with lost := true, reason := some (election.reason.getD why) }

def installed (election : LeaderElection) (identity : Nat) (session : LeaderSession) :
    LeaderElection :=
  let heard := session.early.foldl (fun election (kind, why) => election.hear kind why) election
  { heard with
    session := some identity
    token := some session.token
    since := some session.since
    reason := none
    lost := false }

/-- What a release leaves once the session has been released. -/
def steppedDown (election : LeaderElection) : LeaderElection :=
  { election with token := none, reason := some "스스로 물러났다" }

def isLeader (election : LeaderElection) : Bool := election.session.isSome && !election.lost

def state (election : LeaderElection) : LeadershipState where
  isLeader := election.isLeader
  token := if election.isLeader then election.token else none
  since := if election.isLeader then election.since else none
  reason := if election.isLeader then none else some (election.reason.getD "리더가 아니다")

theorem installed_eq (election : LeaderElection) (identity : Nat) (session : LeaderSession) :
    election.installed identity session =
      { session := some identity, token := some session.token, since := some session.since,
        reason := none, lost := false } := rfl

@[simp] theorem hear_session (election : LeaderElection) (kind : LossKind) (why : String) :
    (election.hear kind why).session = election.session := by
  cases kind <;> rfl

@[simp] theorem hear_token (election : LeaderElection) (kind : LossKind) (why : String) :
    (election.hear kind why).token = election.token := by
  cases kind <;> rfl

@[simp] theorem hear_lost (election : LeaderElection) (kind : LossKind) (why : String) :
    (election.hear kind why).lost = true := by
  cases kind <;> rfl

theorem hear_reason (election : LeaderElection) (kind : LossKind) (why : String) :
    (election.hear kind why).reason.isSome = true := by
  cases kind <;> rfl

/-- After a loss a report changes nothing if it is an end, or an error with the
reason that is known. -/
theorem hear_eq_self_iff (election : LeaderElection) (kind : LossKind) (why : String)
    (explained : election.lost = true → election.reason.isSome = true) :
    election.hear kind why = election ↔
      election.lost = true ∧ (kind = .error → election.reason = some why) := by
  obtain ⟨session, token, since, reason, lost⟩ := election
  cases kind with
  | error => cases lost <;> simp [hear, eq_comm]
  | ended =>
      cases reason with
      | none => cases lost <;> simp_all [hear]
      | some known => cases lost <;> simp [hear]

end LeaderElection

/-! ## Calls and events in any order -/

inductive ElectionCall where
  | idle
  | acquiring
  | opened (session : Nat)
  | releasing (session : Nat)
deriving DecidableEq, Repr

def ElectionCall.toInstall : ElectionCall → Option Nat
  | .opened session => some session
  | _ => none

inductive ElectionAction (ι : Type) where
  | tryAcquire (caller : ι)
  | refused (caller : ι) (why : String)
  | granted (caller : ι) (since : String)
  | install (caller : ι)
  | release (caller : ι)
  | released (caller : ι)
  | loss (session : Nat) (kind : LossKind) (why : String)
deriving DecidableEq

/-- The sessions opened so far are those below `opened`; tokens come from a
sequence. -/
structure ElectionWorld (ι : Type) where
  election : LeaderElection := {}
  opened : Nat := 0
  sessions : Nat → LeaderSession := fun _ => ⟨0, "", false, [], false, false⟩
  tokenSeq : Nat := 0
  calls : ι → ElectionCall := fun _ => .idle

namespace ElectionWorld

variable {ι : Type} [DecidableEq ι]

def put (world : ElectionWorld ι) (caller : ι) (call : ElectionCall) : ElectionWorld ι :=
  { world with calls := Function.update world.calls caller call }

def edit (world : ElectionWorld ι) (identity : Nat) (session : LeaderSession) :
    ElectionWorld ι :=
  { world with sessions := Function.update world.sessions identity session }

/-- One action, if its caller is at the point where it can happen. -/
def act (world : ElectionWorld ι) : ElectionAction ι → Option (ElectionWorld ι)
  | .tryAcquire caller =>
      if world.calls caller = .idle then
        if world.election.isLeader then some world
        else some (world.put caller .acquiring)
      else none
  | .refused caller why =>
      if world.calls caller = .acquiring then
        some (({ world with
          election := { world.election with reason := some why } } : ElectionWorld ι).put
            caller .idle)
      else none
  | .granted caller since =>
      if world.calls caller = .acquiring then
        some ((({ world with
          opened := world.opened + 1
          tokenSeq := world.tokenSeq + 1 } : ElectionWorld ι).edit world.opened
            { token := world.tokenSeq + 1, since := since }).put caller (.opened world.opened))
      else none
  | .install caller =>
      match world.calls caller with
      | .opened identity =>
          some ((({ world with
            election := world.election.installed identity (world.sessions identity) } :
              ElectionWorld ι).edit identity (world.sessions identity).attach).put caller .idle)
      | _ => none
  | .release caller =>
      if world.calls caller = .idle then
        match world.election.session with
        | none => some world
        | some identity =>
            some (({ world with
              election := { world.election with session := none } } : ElectionWorld ι).put
                caller (.releasing identity))
      else none
  | .released caller =>
      match world.calls caller with
      | .releasing identity =>
          some ((({ world with
            election := world.election.steppedDown } : ElectionWorld ι).edit identity
              (world.sessions identity).close).put caller .idle)
      | _ => none
  | .loss identity kind why =>
      if identity < world.opened then
        some (({ world with
          election :=
            if (world.sessions identity).listening then world.election.hear kind why
            else world.election } : ElectionWorld ι).edit identity
              ((world.sessions identity).lose kind why))
      else none

def Step (before : ElectionWorld ι) (action : ElectionAction ι) (after : ElectionWorld ι) :
    Prop :=
  before.act action = some after

end ElectionWorld

end Barycenter.Control
