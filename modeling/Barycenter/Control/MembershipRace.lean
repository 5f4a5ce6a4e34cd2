import Barycenter.Control.MembershipOnly

/-!
# Two calls of one membership-only plan

The operation row is unique for a plan, so of two calls that both find no
operation only one inserts its own.  The other does not notice: it goes on to
push under an operation that is recorded nowhere, and answers with that, or the
agent refuses it.  The two calls agree exactly when one of them looks for the
operation after the other has inserted it.
-/

namespace Barycenter.Control

open Dp

/-! ## The agent grants a fresh membership request -/

/-- The agent has neither ended nor answered an operation on the given planes. -/
structure Unheard (s : AgentState) (operationId : String) (planes : List Plane) : Prop where
  notEnded : ∀ who plane, plane ∈ planes → who.operationId = operationId →
    terminalOf s who plane = none
  notAnswered : ∀ tuple : OperationTuple, tuple.plane ∈ planes →
    tuple.operationId = operationId → s.completed.get? (key tuple .health) = none

variable {s : AgentState}

theorem Unheard.mono {operationId : String} {planes fewer : List Plane}
    (unheard : Unheard s operationId planes) (subset : ∀ plane ∈ fewer, plane ∈ planes) :
    Unheard s operationId fewer :=
  ⟨fun who plane inside => unheard.notEnded who plane (subset plane inside),
    fun tuple inside => unheard.notAnswered tuple (subset _ inside)⟩

/-- The membership of a plane moves in a request of the newest leader that the
agent has not answered before. -/
theorem health_granted {tuple : OperationTuple} (ready : GuardReady s)
    (newest : tuple.leaderToken = s.maxLeaderToken)
    (notEnded : terminalOf s tuple.identity tuple.plane = none)
    (notAnswered : s.completed.get? (key tuple .health) = none)
    (revises : Agent.Revises s tuple) :
    ∃ next, serial (.applyHealth tuple) s = .ok (ackOf tuple (Agent.revised s tuple), next) ∧
      next = prune (record
        { s.raise tuple.leaderToken with
          planes := s.planes.set tuple.plane (Agent.revised s tuple) }
        tuple .health (Agent.revised s tuple)) ∧ GuardReady next := by
  have sameToken : s.raise tuple.leaderToken = s := by
    simp [AgentState.raise, newest]
  have admitted : admitOp s tuple .health = .ok (none, s) := by
    have lets : assertLeader s tuple.leaderToken = .ok () := by
      simp [assertLeader, newest]
    simp only [admitOp, lets, sameToken, notEnded, notAnswered]
    rfl
  have mutated : AgentOp.mutate (.applyHealth tuple) s =
      .ok (ackOf tuple (Agent.revised s tuple), record
        { s.raise tuple.leaderToken with
          planes := s.planes.set tuple.plane (Agent.revised s tuple) }
        tuple .health (Agent.revised s tuple)) := by
    have expected : sameCoordinate (s.planes.get tuple.plane).coordinate tuple.expectedCurrent =
        true := sameCoordinate_iff.mpr revises.expected
    have epoch := revises.sameEpoch
    have forward : ¬tuple.target.membershipRevision ≤
        (s.planes.get tuple.plane).membershipRevision := Nat.not_le.mpr revises.forward
    change Agent.applyHealth tuple s = _
    simp only [Agent.applyHealth, admitted, sameToken]
    simp [expected, epoch, forward, Agent.revised, Bind.bind, Except.bind, pure, Except.pure]
    rfl
  have overtakes : ¬Overtakes s tuple.leaderToken := by
    rw [Overtakes, newest]
    exact fun both => absurd both.1 (Nat.lt_irrefl _)
  have passes := passes_of_ready ready (o := .applyHealth tuple) trivial
    fun above => absurd above overtakes
  have granted : serial (.applyHealth tuple) s =
      .ok (ackOf tuple (Agent.revised s tuple), prune (record
        { s.raise tuple.leaderToken with
          planes := s.planes.set tuple.plane (Agent.revised s tuple) }
        tuple .health (Agent.revised s tuple))) := by
    have saved := passes.saved _ _ mutated
    simp only [serial, serialFrom, Option.getD_some, mutated, saved]
  refine ⟨_, granted, rfl, ?_⟩
  exact serial_ready (o := .applyHealth tuple) ready trivial
    (fun above => absurd above overtakes) granted

theorem Unheard.after_health {tuple : OperationTuple} {remaining : List Plane}
    (unheard : Unheard s tuple.operationId (tuple.plane :: remaining))
    (apart : tuple.plane ∉ remaining) (planes : PerPlane PlaneState) (result : PlaneState) :
    Unheard (prune (record { s.raise tuple.leaderToken with planes := planes } tuple .health result))
      tuple.operationId remaining := by
  refine ⟨fun who plane inside named => ?_, fun other inside named => ?_⟩
  · have before := unheard.notEnded who plane (List.mem_cons_of_mem _ inside) named
    rw [terminalOf, Option.or_eq_none_iff] at before ⊢
    rw [prune_terminal, prune_terminal]
    refine ⟨?_, ?_⟩
    · split
      · rfl
      · exact before.1
    · split
      · rfl
      · exact before.2
  · have before := unheard.notAnswered other (List.mem_cons_of_mem _ inside) named
    rw [Option.eq_none_iff_forall_ne_some]
    intro seen found
    have found := prune_completed found
    simp only [record, OrderedMap.get?_set] at found
    split at found
    · next here =>
      exact apart (key_plane here ▸ inside)
    · rw [raise_completed] at found
      rw [before] at found
      cases found

/-! ## Rows -/

variable {rows : List OperationRow}

theorem insertOperation_first {row : OperationRow} (absent : findOperation rows row.planId = none) :
    insertOperation rows row = rows ++ [row] := by
  simp [insertOperation, absent]

def rowsOf (rows : List OperationRow) (planId : String) : List OperationRow :=
  rows.filter fun row => row.planId = planId

theorem findOperation_rowsOf (rows : List OperationRow) (planId : String) :
    findOperation rows planId = (rowsOf rows planId).head? := by
  rw [findOperation, rowsOf, List.head?_filter]

theorem rowsOf_insert_first {row : OperationRow} (absent : rowsOf rows row.planId = []) :
    rowsOf (insertOperation rows row) row.planId = [row] := by
  have none : findOperation rows row.planId = none := by
    rw [findOperation_rowsOf, absent, List.head?_nil]
  have kept : rows.filter (fun other => other.planId = row.planId) = [] := absent
  rw [insertOperation_first none, rowsOf, List.filter_append, kept]
  simp

theorem rowsOf_recordPhase (rows : List OperationRow) (planId id : String) (phase : ApplyPhase)
    (detail : MembershipDetail) :
    rowsOf (recordPhase rows id phase detail) planId =
      recordPhase (rowsOf rows planId) id phase detail := by
  have same : ∀ row : OperationRow, (if row.id = id then
      { row with phase := .ended phase, detail := some detail } else row).planId = row.planId := by
    intro row
    split <;> rfl
  simp only [rowsOf, recordPhase, List.filter_map, Function.comp_def, same]

/-! ## Calls that make an operation of their own -/

namespace Applying

variable {request : MembershipRequest} {operationId : Bool → String}

@[simp]
theorem become_same (world : Applying) (caller : Bool) (progress : Progress) :
    (world.become caller progress).calls caller = progress :=
  Function.update_self ..

theorem become_other (world : Applying) {caller other : Bool} (different : other ≠ caller)
    (progress : Progress) : (world.become caller progress).calls other = world.calls other :=
  Function.update_of_ne different ..

theorem advance_other (world : Applying) {caller other : Bool} (different : other ≠ caller) :
    (world.advance request operationId caller).calls other = world.calls other := by
  unfold advance
  repeat' split
  all_goals first
    | rfl
    | exact become_other _ different _

def Own (id : String) : Progress → Prop
  | .looking => False
  | .leading | .refused _ => True
  | .inserting op | .pushing op _ | .delivering op _ _ | .recording op | .closing op =>
      op.operationId = id
  | .returned view => view.id = id

variable {caller : Bool}

theorem own_advance {world : Applying} (own : Own (operationId caller) (world.calls caller)) :
    Own (operationId caller) ((world.advance request operationId caller).calls caller) := by
  unfold advance
  cases progress : world.calls caller <;> rw [progress] at own
  case looking => exact own.elim
  case leading =>
    simp only
    split
    · rw [become_same]
      trivial
    · rw [become_same]
      rfl
  case pushing op remaining =>
    cases remaining with
    | nil =>
        simp only [become_same]
        exact own
    | cons plane remaining =>
        simp only
        split
        · rw [become_same]
          trivial
        · split
          · rw [become_same]
            trivial
          · rw [become_same]
            exact own
  case returned view => simpa only [progress] using own
  case refused refusal => simp only [progress, Own]
  all_goals
    simp only [become_same]
    exact own

/-! ## The two calls one after the other -/

def InWindow : Progress → Prop
  | .leading | .inserting _ => True
  | _ => False

/-- A call that looks for the operation does so while the other is not about to
insert one. -/
def Apart (event : Event Applying Bool) : Prop :=
  event.before.calls event.label = .looking → ¬InWindow (event.before.calls !event.label)

def answered : Progress → Bool
  | .returned _ => true
  | _ => false

def ended : Progress → Bool
  | .refused _ => true
  | progress => answered progress

def Finished (progress : Progress) : Prop := ended progress = true

/-- One operation is recorded, its membership was granted once for each plane,
and both calls answer with it. -/
def Idempotent (request : MembershipRequest) (start final : Applying) : Prop :=
  ∃ row, rowsOf final.operations request.planId = [row] ∧
    final.accepted = (request.touched start.agent).map (row.id, ·) ∧
    ∀ caller, ∃ view, final.calls caller = .returned view ∧ view.id = row.id

/-- Two calls that are about to start on a plan that takes the membership path. -/
structure Ready (request : MembershipRequest) (operationId : Bool → String) (world : Applying) :
    Prop where
  start : ∀ caller, world.calls caller = .looking
  unrecorded : rowsOf world.operations request.planId = []
  unaccepted : world.accepted = []
  distinct : operationId false ≠ operationId true
  guarded : GuardReady world.agent
  newest : request.leaderToken = world.agent.maxLeaderToken
  unheard : ∀ caller, Unheard world.agent (operationId caller) Plane.all
  moves : request.touched world.agent ≠ []

/-- The agent after the planes that do not remain were granted. -/
structure Granted (start agent : AgentState) (id : String) (remaining : List Plane) : Prop where
  guarded : GuardReady agent
  newest : agent.maxLeaderToken = start.maxLeaderToken
  still : ∀ plane ∈ remaining, agent.planes.get plane = start.planes.get plane
  unheard : Unheard agent id remaining

/-- How far the call that inserted the operation has come. -/
def Ahead (request : MembershipRequest) (id : String) (start world : Applying) : Progress → Prop
  | .pushing op remaining =>
      op = request.operationOf id start.agent start.published ∧
        Granted start.agent world.agent id remaining ∧
        ∃ done, request.touched start.agent = done ++ remaining ∧
          world.accepted = done.map (id, ·)
  | .delivering op plane remaining =>
      op = request.operationOf id start.agent start.published ∧
        Granted start.agent world.agent id remaining ∧
        ∃ done, request.touched start.agent = done ++ plane :: remaining ∧
          world.accepted = (done ++ [plane]).map (id, ·)
  | .recording op | .closing op =>
      op = request.operationOf id start.agent start.published ∧
        world.accepted = (request.touched start.agent).map (id, ·)
  | .returned view => view.id = id ∧ world.accepted = (request.touched start.agent).map (id, ·)
  | _ => False

structure Untouched (request : MembershipRequest) (start world : Applying) : Prop where
  unrecorded : rowsOf world.operations request.planId = []
  agent : world.agent = start.agent
  published : world.published = start.published
  unaccepted : world.accepted = []

inductive Orderly (request : MembershipRequest) (operationId : Bool → String)
    (start world : Applying) : Prop where
  | idle (untouched : Untouched request start world)
      (looking : ∀ caller, world.calls caller = .looking)
  | window (caller : Bool) (untouched : Untouched request start world)
      (other : world.calls (!caller) = .looking)
      (inside : world.calls caller = .leading ∨ world.calls caller =
        .inserting (request.operationOf (operationId caller) start.agent start.published))
  | claimed (caller : Bool) (row : OperationRow)
      (recorded : rowsOf world.operations request.planId = [row])
      (named : row.id = operationId caller)
      (other : world.calls (!caller) = .looking ∨
        ∃ view, world.calls (!caller) = .returned view ∧ view.id = operationId caller)
      (ahead : Ahead request (operationId caller) start world (world.calls caller))

theorem touched_nodup (s : AgentState) : (request.touched s).Nodup :=
  List.Nodup.filter _ (by decide)

theorem mem_touched {s : AgentState} {plane : Plane} (member : plane ∈ request.touched s) :
    (s.planes.get plane).activationEpoch = request.epoch := by
  have kept := (List.mem_filter.mp member).2
  simp only [Bool.and_eq_true, decide_eq_true_eq] at kept
  exact kept.1

theorem tupleFor_operationOf {id : String} {s : AgentState} {published : PublishedState}
    {plane : Plane} (member : plane ∈ request.touched s) :
    ∃ tuple, tupleFor (request.operationOf id s published) plane = .ok tuple ∧
      tuple.operationId = id ∧ tuple.plane = plane ∧ tuple.leaderToken = request.leaderToken ∧
      tuple.expectedCurrent = (s.planes.get plane).coordinate ∧
      tuple.target = ⟨request.epoch, (s.planes.get plane).membershipRevision + 1⟩ := by
  have declared : (request.operationOf id s published).planes.get plane =
      some (request.targetOf s plane) := by
    cases plane <;> simp [MembershipRequest.operationOf, PerPlane.get, member]
  exact ⟨_, tupleFor_ok.mpr ⟨_, declared, rfl⟩, rfl, rfl, rfl, rfl, rfl⟩

variable {start : Applying}

theorem next_granted {id : String} {agent : AgentState} {plane : Plane}
    {remaining : List Plane} (newest : request.leaderToken = start.agent.maxLeaderToken)
    (member : plane ∈ request.touched start.agent) (apart : plane ∉ remaining)
    (granted : Granted start.agent agent id (plane :: remaining)) :
    ∃ tuple ack next,
      tupleFor (request.operationOf id start.agent start.published) plane = .ok tuple ∧
      serial (.applyHealth tuple) agent = .ok (ack, next) ∧ PlaneAck.cached ack = false ∧
      Granted start.agent next id remaining := by
  obtain ⟨tuple, told, rfl, rfl, token, expected, target⟩ :=
    @tupleFor_operationOf request id start.agent start.published plane member
  have standing := granted.still tuple.plane List.mem_cons_self
  have revises : Agent.Revises agent tuple := by
    refine ⟨by rw [standing, expected], ?_, ?_⟩
    · rw [standing, target, mem_touched member]
    · rw [standing, target]
      exact Nat.lt_succ_self _
  have current : tuple.leaderToken = agent.maxLeaderToken := by
    rw [token, newest, granted.newest]
  obtain ⟨next, succeeded, written, guarded⟩ := health_granted granted.guarded current
    (granted.unheard.notEnded _ _ List.mem_cons_self rfl)
    (granted.unheard.notAnswered _ List.mem_cons_self rfl) revises
  refine ⟨tuple, _, next, told, succeeded, rfl, guarded, ?_, fun other inside => ?_, ?_⟩
  · rw [written]
    simp [record, AgentState.raise, current, granted.newest]
  · have different : tuple.plane ≠ other := by
      rintro rfl
      exact apart inside
    rw [written, prune_planes]
    exact (PerPlane.get_set_other _ _ different).trans
      (granted.still other (List.mem_cons_of_mem _ inside))
  · rw [written]
    exact granted.unheard.after_health apart _ _

variable {row : OperationRow}

theorem viewOf_id (recorded : rowsOf rows request.planId = [row]) :
    findOperation rows request.planId = some row := by
  rw [findOperation_rowsOf, recorded, List.head?_cons]

theorem orderly_other {world : Applying}
    (recorded : rowsOf world.operations request.planId = [row])
    (named : row.id = operationId caller) (other : world.calls (!caller) = .looking ∨
      ∃ view, world.calls (!caller) = .returned view ∧ view.id = operationId caller)
    (ahead : Ahead request (operationId caller) start world (world.calls caller)) :
    Orderly request operationId start (world.advance request operationId !caller) := by
  have apart : caller ≠ !caller := by simp
  rcases other with looking | ⟨view, returned, answers⟩
  · have found : world.advance request operationId (!caller) =
        world.become (!caller) (.returned (viewOf row)) := by
      simp only [advance, looking, viewOf_id recorded]
    rw [found]
    refine .claimed caller row recorded named (.inr ⟨viewOf row, become_same .., named⟩) ?_
    rw [become_other _ apart]
    exact ahead
  · have same : world.advance request operationId (!caller) = world := by
      simp only [advance, returned]
    rw [same]
    exact .claimed caller row recorded named (.inr ⟨view, returned, answers⟩) ahead

theorem orderly_ahead {world : Applying}
    (newest : request.leaderToken = start.agent.maxLeaderToken)
    (recorded : rowsOf world.operations request.planId = [row])
    (named : row.id = operationId caller) (other : world.calls (!caller) = .looking ∨
      ∃ view, world.calls (!caller) = .returned view ∧ view.id = operationId caller)
    (ahead : Ahead request (operationId caller) start world (world.calls caller)) :
    Orderly request operationId start (world.advance request operationId caller) := by
  cases progress : world.calls caller <;> rw [progress] at ahead
  case pushing op remaining =>
    obtain ⟨rfl, granted, done, touched, accepted⟩ := ahead
    cases remaining with
    | nil =>
        simp only [advance, progress]
        rw [List.append_nil] at touched
        refine .claimed caller row recorded named (by rwa [become_other _ (by simp)]) ?_
        rw [become_same]
        exact ⟨rfl, by rw [touched]; exact accepted⟩
    | cons plane remaining =>
        have member : plane ∈ request.touched start.agent := by simp [touched]
        have apart : plane ∉ remaining := by
          have nodup := @touched_nodup request start.agent
          rw [touched, List.nodup_append] at nodup
          exact (List.nodup_cons.mp nodup.2.1).1
        obtain ⟨tuple, ack, next, told, succeeded, fresh, granted⟩ :=
          next_granted newest member apart granted
        simp only [advance, progress, told, succeeded, fresh, Bool.false_eq_true, if_false]
        refine .claimed caller row recorded named (by rwa [become_other _ (by simp)]) ?_
        rw [become_same]
        exact ⟨rfl, granted, done, touched, by simp [become, accepted, MembershipRequest.operationOf]⟩
  case delivering op plane remaining =>
    obtain ⟨rfl, granted, done, touched, accepted⟩ := ahead
    simp only [advance, progress]
    refine .claimed caller row recorded named (by rwa [become_other _ (by simp)]) ?_
    rw [become_same]
    exact ⟨rfl, granted, done ++ [plane], by simpa using touched, accepted⟩
  case recording op =>
    obtain ⟨rfl, accepted⟩ := ahead
    simp only [advance, progress]
    refine .claimed caller _ (rowsOf_recordPhase .. |>.trans (by rw [recorded]; rfl)) ?_
      (by rwa [become_other _ (by simp)]) ?_
    · beta_reduce
      split <;> exact named
    · rw [become_same]
      exact ⟨rfl, accepted⟩
  case closing op =>
    obtain ⟨rfl, accepted⟩ := ahead
    simp only [advance, progress]
    refine .claimed caller row recorded named (by rwa [become_other _ (by simp)]) ?_
    rw [become_same]
    exact ⟨rfl, accepted⟩
  case returned view =>
    simp only [advance, progress]
    exact .claimed caller row recorded named other (by rw [progress]; exact ahead)
  all_goals exact ahead.elim

theorem orderly_step {before : Applying} (ready : Ready request operationId start)
    (orderly : Orderly request operationId start before)
    (apart : before.calls caller = .looking → ¬InWindow (before.calls !caller)) :
    Orderly request operationId start (before.advance request operationId caller) := by
  cases orderly with
  | idle untouched looking =>
      have absent : findOperation before.operations request.planId = none := by
        rw [findOperation_rowsOf, untouched.unrecorded, List.head?_nil]
      simp only [advance, looking caller, absent]
      refine .window caller ⟨untouched.unrecorded, untouched.agent, untouched.published,
        untouched.unaccepted⟩ ?_ (.inl (become_same ..))
      rw [become_other _ (by simp)]
      exact looking _
  | window ahead untouched other inside =>
      by_cases same : caller = ahead
      · subst same
        rcases inside with leading | inserting
        · have moves := ready.moves
          simp only [advance, leading, untouched.agent, untouched.published, if_neg moves]
          refine .window caller ⟨untouched.unrecorded, untouched.agent, untouched.published,
            untouched.unaccepted⟩ ?_ (.inr (become_same ..))
          rw [become_other _ (by simp)]
          exact other
        · simp only [advance, inserting]
          refine .claimed caller _ (rowsOf_insert_first untouched.unrecorded) rfl (.inl ?_) ?_
          · rw [become_other _ (by simp)]
            exact other
          · rw [become_same]
            refine ⟨rfl, ⟨?_, ?_, fun _ _ => ?_, ?_⟩, [], rfl, untouched.unaccepted⟩
            · exact untouched.agent ▸ ready.guarded
            · exact congrArg AgentState.maxLeaderToken untouched.agent
            · exact congrArg (fun agent : AgentState => agent.planes.get _) untouched.agent
            · exact untouched.agent ▸ (ready.unheard caller).mono fun plane _ => Plane.mem_all plane
      · have isOther : caller = !ahead := by
          cases caller <;> cases ahead <;> simp_all
        subst isOther
        refine absurd ?_ (apart other)
        rw [Bool.not_not]
        rcases inside with leading | inserting
        · rw [leading]
          trivial
        · rw [inserting]
          trivial
  | claimed ahead row recorded named other ahead_ =>
      by_cases same : caller = ahead
      · subst same
        exact orderly_ahead ready.newest recorded named other ahead_
      · have isOther : caller = !ahead := by
          cases caller <;> cases ahead <;> simp_all
        subst isOther
        exact orderly_other recorded named other ahead_

theorem idempotent_of_orderly {world : Applying}
    (orderly : Orderly request operationId start world)
    (finished : ∀ caller, Finished (world.calls caller)) : Idempotent request start world := by
  cases orderly with
  | idle _ looking =>
      have done := finished true
      rw [looking] at done
      cases done
  | window caller _ other _ =>
      have done := finished (!caller)
      rw [other] at done
      cases done
  | claimed caller row recorded named other ahead =>
      have otherDone := finished !caller
      have done := finished caller
      cases progress : world.calls caller <;> rw [progress] at done ahead
      case returned view =>
        obtain ⟨answers, accepted⟩ := ahead
        rcases other with looking | ⟨found, returned, agrees⟩
        · rw [looking] at otherDone
          cases otherDone
        · refine ⟨row, recorded, by rw [accepted, named], fun any => ?_⟩
          by_cases same : any = caller
          · subst same
            exact ⟨view, progress, by rw [answers, named]⟩
          · have isOther : any = !caller := by
              cases any <;> cases caller <;> simp_all
            subst isOther
            exact ⟨found, returned, by rw [agrees, named]⟩
      case refused refusal => exact ahead.elim
      all_goals cases done

/-! ## Calls that overlap -/

/-- A call that has left the start goes on under its own id, or has answered. -/
def Underway (operationId : Bool → String) (world : Applying) : Prop :=
  ∀ caller, world.calls caller = .looking ∨ Own (operationId caller) (world.calls caller) ∨
    ∃ view, world.calls caller = .returned view

/-- As long as nobody has inserted the operation, there is none. -/
def Vacant (request : MembershipRequest) (world : Applying) : Prop :=
  (∀ caller, world.calls caller = .looking ∨ InWindow (world.calls caller)) →
    rowsOf world.operations request.planId = []

theorem underway_advance {world : Applying} (caller : Bool)
    (underway : Underway operationId world) :
    Underway operationId (world.advance request operationId caller) := by
  intro any
  by_cases same : any = caller
  · subst same
    rcases underway any with looking | own | ⟨view, returned⟩
    · simp only [advance, looking]
      split
      · exact .inr (.inr ⟨_, become_same ..⟩)
      · rw [become_same]
        exact .inr (.inl trivial)
    · exact .inr (.inl (own_advance own))
    · simp only [advance, returned]
      exact .inr (.inr ⟨view, rfl⟩)
  · rw [advance_other world same]
    exact underway any

theorem before_insert {world : Applying}
    (early : (world.advance request operationId caller).calls caller = .looking ∨
      InWindow ((world.advance request operationId caller).calls caller)) :
    (world.calls caller = .looking ∨ InWindow (world.calls caller)) ∧
      (world.advance request operationId caller).operations = world.operations := by
  cases progress : world.calls caller with
  | looking =>
      refine ⟨.inl rfl, ?_⟩
      simp only [advance, progress]
      split <;> rfl
  | leading =>
      refine ⟨.inr trivial, ?_⟩
      simp only [advance, progress]
      split <;> rfl
  | pushing op remaining =>
      exfalso
      revert early
      cases remaining <;> simp only [advance, progress]
      · simp [InWindow]
      · repeat' split
        all_goals simp [InWindow]
  | _ => simp [advance, progress, InWindow] at early

theorem vacant_advance {world : Applying} (caller : Bool) (vacant : Vacant request world) :
    Vacant request (world.advance request operationId caller) := by
  intro early
  obtain ⟨here, same⟩ := before_insert (early caller)
  rw [same]
  refine vacant fun any => ?_
  by_cases isCaller : any = caller
  · rw [isCaller]
    exact here
  · rw [← @advance_other request operationId world caller any isCaller]
    exact early any

theorem not_idempotent_of_own {world : Applying}
    (distinct : operationId false ≠ operationId true)
    (own : ∀ caller, Own (operationId caller) (world.calls caller)) :
    ¬Idempotent request start world := by
  rintro ⟨row, -, -, answers⟩
  have named : ∀ caller, operationId caller = row.id := by
    intro caller
    obtain ⟨view, returned, same⟩ := answers caller
    have isOwn := own caller
    rw [returned] at isOwn
    exact isOwn.symm.trans same
  exact distinct ((named false).trans (named true).symm)

theorem overlapping_disagree {final : Applying} {history : List (Event Applying Bool)}
    (run : Follows (Step request operationId) start history final)
    (ready : Ready request operationId start) {event : Event Applying Bool}
    (member : event ∈ history) (overlap : ¬Apart event) : ¬Idempotent request start final := by
  have invariant : ∀ event ∈ history, Step request operationId event.before event.label event.after ∧
      Underway operationId event.before ∧ Vacant request event.before := by
    have initially : Underway operationId start ∧ Vacant request start :=
      ⟨fun caller => .inl (ready.start caller), fun _ => ready.unrecorded⟩
    refine @Follows.at_events _ _ _ _ _ _
      (fun world => Underway operationId world ∧ Vacant request world) run initially ?_
    rintro before caller after rfl ⟨underway, vacant⟩
    exact ⟨underway_advance caller underway, vacant_advance caller vacant⟩
  obtain ⟨step, underway, vacant⟩ := invariant event member
  obtain ⟨before, caller, after⟩ := event
  change after = before.advance request operationId caller at step
  subst step
  have looking : before.calls caller = .looking := Classical.byContradiction fun away =>
    overlap fun looking => absurd looking away
  have inside : InWindow (before.calls !caller) := Classical.byContradiction fun outside =>
    overlap fun _ => outside
  have early : ∀ any, before.calls any = .looking ∨ InWindow (before.calls any) := by
    intro any
    by_cases same : any = caller
    · exact .inl (same ▸ looking)
    · have isOther : any = !caller := by
        cases any <;> cases caller <;> simp_all
      exact .inr (isOther ▸ inside)
  have ownAfter : ∀ any, Own (operationId any)
      ((before.advance request operationId caller).calls any) := by
    intro any
    by_cases same : any = caller
    · subst same
      have absent : findOperation before.operations request.planId = none := by
        rw [findOperation_rowsOf, vacant early, List.head?_nil]
      simp only [advance, looking, absent, become_same]
      trivial
    · have isOther : any = !caller := by
        cases any <;> cases caller <;> simp_all
      rw [advance_other before same]
      rcases underway any with atStart | own | ⟨view, returned⟩
      · rw [isOther] at atStart
        rw [atStart] at inside
        exact inside.elim
      · exact own
      · rw [isOther] at returned
        rw [returned] at inside
        exact inside.elim
  obtain ⟨earlier, later, rfl⟩ := List.append_of_mem member
  obtain ⟨middle, -, rest⟩ := run.split
  cases rest with
  | cons first remaining =>
      refine not_idempotent_of_own ready.distinct ?_
      refine remaining.invariant (fun world => ∀ any, Own (operationId any) (world.calls any))
        ownAfter ?_
      rintro world mover next rfl own any
      by_cases same : any = mover
      · subst same
        exact own_advance (own any)
      · rw [advance_other world same]
        exact own any

/--
Two calls of a plan that moves membership only, in any interleaving, record one
operation, move the membership once and both answer with that operation exactly
when one of them looks for the operation after the other has inserted it.
-/
theorem membershipOnly_idempotent_iff {start final : Applying} {history : List (Event Applying Bool)}
    (run : Follows (Step request operationId) start history final)
    (ready : Ready request operationId start) (finished : ∀ caller, Finished (final.calls caller)) :
    Idempotent request start final ↔ ∀ event ∈ history, Apart event := by
  constructor
  · intro idempotent
    by_contra overlaps
    push Not at overlaps
    obtain ⟨event, member, overlap⟩ := overlaps
    exact overlapping_disagree run ready member overlap idempotent
  · intro apart
    refine @idempotent_of_orderly request operationId start final ?_ finished
    refine run.invariant_along (Orderly request operationId start) ?_ ?_
    · exact .idle ⟨ready.unrecorded, rfl, rfl, ready.unaccepted⟩ ready.start
    · rintro event member step orderly
      rw [step]
      exact orderly_step ready orderly (apart event member)

/-! ## Two schedules -/

def servingAgent : AgentState :=
  let entered : PlaneState :=
    { activationEpoch := 3, membershipRevision := 0, payloadDigest := "d"
      author := some { operationId := "o", transitionId := "r7", leaderToken := 1 } }
  { initial with maxLeaderToken := 1, planes := ⟨entered, entered⟩ }

def weightChange : MembershipRequest where
  planId := "p"
  revision := "8"
  epoch := 3
  slots := ⟨.set .empty "web" ["10.0.0.1:80"], .empty⟩
  leaderToken := 1

def freshIds (caller : Bool) : String := if caller then "second" else "first"

def aboutToStart : Applying where
  operations := []
  appliedPlans := []
  agent := servingAgent
  published := .none
  accepted := []
  delivered := []
  calls := fun _ => .looking

def scheduled (schedule : List Bool) : Applying :=
  schedule.foldl (advance weightChange freshIds) aboutToStart

theorem follows_schedule (schedule : List Bool) :
    Follows (Step weightChange freshIds) aboutToStart
      (traced (advance weightChange freshIds) aboutToStart schedule) (scheduled schedule) :=
  @follows_traced _ _ (Step weightChange freshIds) (advance weightChange freshIds)
    (fun _ _ => rfl) aboutToStart schedule

theorem guardReady_serving : GuardReady servingAgent where
  right := by simp [servingAgent, initial]
  intent := by simp [servingAgent, initial]
  baseline := by simp [servingAgent, initial]
  candidate := by simp [servingAgent, initial]
  journal := by simp [servingAgent, initial]
  slots := by
    intro plane epoch slot found
    cases plane <;> simp [servingAgent, initial, AgentState.slot, PerPlane.get] at found
  forward := by
    intro plane epoch slot found
    cases plane <;> simp [servingAgent, initial, AgentState.slot, PerPlane.get] at found
  unsigned := by
    intro plane missing
    cases plane <;> simp [servingAgent, PerPlane.get] at missing
  places := by simp [servingAgent, initial]

theorem ready_aboutToStart : Ready weightChange freshIds aboutToStart where
  start := fun _ => rfl
  unrecorded := rfl
  unaccepted := rfl
  distinct := by decide
  guarded := guardReady_serving
  newest := rfl
  unheard := fun caller => ⟨fun who plane _ _ => rfl, fun tuple _ _ => rfl⟩
  moves := by decide

/-- One call after the other. -/
theorem membershipOnly_idempotent_inTurn :
    Idempotent weightChange aboutToStart (scheduled (List.replicate 9 false ++ [true])) ↔
      ∀ event ∈ traced (advance weightChange freshIds) aboutToStart
        (List.replicate 9 false ++ [true]), Apart event :=
  membershipOnly_idempotent_iff (follows_schedule _) ready_aboutToStart
    fun caller => by cases caller <;> unfold Finished <;> decide +kernel

def bothLook : List Bool :=
  [false, true, false, true, false, true, false, true] ++ List.replicate 5 false

/-- The second call inserts nothing, and its push is refused because the first
has moved the membership. -/
theorem membershipOnly_not_idempotent :
    Ready weightChange freshIds aboutToStart ∧
      Follows (Step weightChange freshIds) aboutToStart
        (traced (advance weightChange freshIds) aboutToStart bothLook) (scheduled bothLook) ∧
      (∀ caller, Finished ((scheduled bothLook).calls caller)) ∧
      ¬Idempotent weightChange aboutToStart (scheduled bothLook) := by
  refine ⟨ready_aboutToStart, follows_schedule _, fun caller => ?_, ?_⟩
  · cases caller <;> unfold Finished <;> decide +kernel
  · rintro ⟨row, -, -, answers⟩
    obtain ⟨view, returned, -⟩ := answers true
    have refused : answered ((scheduled bothLook).calls true) = false := by decide +kernel
    rw [returned] at refused
    cases refused

end Applying

end Barycenter.Control
