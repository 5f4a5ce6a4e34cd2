import Barycenter.Dp.ProgramRules

/-!
# Rules of the driver

Rules say which programs are in order behind a state that was seen, which
operations they may issue from there on, and what is known of a journal entry
that was read.  Whatever the rules, every program of the driver keeps to them:
all that they have to look after is the write that wins a reload.
-/

namespace Barycenter.Dp

open Prog

/-- The operations that carry no token to be checked by the issuer and open no
journal. -/
def AgentOp.light : AgentOp → Bool
  | .reserveAll _ _ | .reserve _ | .stage _ | .commit _ _ | .fail _
  | .recordPublishIntent _ | .reclaimOperation _ | .writeJournal _ => false
  | _ => true

structure DriverRules where
  Keeps : {α : Type} → AgentState → Program α → Prop
  later : AgentState → AgentState → Prop
  trusts : AgentState → JournalEntry → Prop
  allows : AgentState → AgentOp → Prop
  ok {α : Type} {seen : AgentState} {value : α} : Keeps seen (pure value : Program α)
  fault {α : Type} {seen : AgentState} {thrown : Thrown} :
    Keeps seen (throw thrown : Program α)
  bind {α β : Type} {seen : AgentState} {program : Program α} {rest : α → Program β}
    (first : Keeps seen program) (then_ : ∀ value, Keeps seen (rest value)) :
    Keeps seen (program >>= rest)
  handle {α : Type} {seen : AgentState} {program : Program α} {rescue : Thrown → Program α}
    (first : Keeps seen program) (rescued : ∀ thrown, Keeps seen (rescue thrown)) :
    Keeps seen (tryCatch program rescue)
  durably {seen : AgentState} {o : AgentOp} (allowed : allows seen o) :
    Keeps seen (Dp.durably o)
  effect {seen : AgentState} {request : EffectCall}
    (free : ∀ op, request ≠ .signalReload (.apply op)) : Keeps seen (Dp.effect request)
  /-- What is read is behind what was seen, and the entry in it is trusted. -/
  snapshot_then {α : Type} {seen : AgentState} {rest : AgentState → Program α}
    (then_ : ∀ s, later seen s → (∀ entry, s.journal = some entry → trusts s entry) →
      Keeps s (rest s)) : Keeps seen (snapshot >>= rest)
  stays {seen s : AgentState} {entry : JournalEntry} (onward : later seen s)
    (known : trusts seen entry) : trusts s entry
  light {seen : AgentState} {o : AgentOp} (light : o.light = true) : allows seen o
  opens {seen : AgentState} {op : ApplyOperation} :
    allows seen (.reserveAll op (some (Runner.openingOf op)))
  /-- The tuples of a trusted entry carry its token. -/
  carries {seen : AgentState} {entry : JournalEntry} {plane : Plane} {tuple : OperationTuple}
    (known : trusts seen entry) (extracted : tupleFor entry.op plane = .ok tuple) :
    allows seen (.stage tuple) ∧ allows seen (.fail tuple) ∧
      ∀ evidence, allows seen (.commit tuple evidence)
  publishes {seen : AgentState} {entry : JournalEntry} (known : trusts seen entry) :
    allows seen (.recordPublishIntent (recordOf entry.op))
  reclaims {seen : AgentState} {entry : JournalEntry} (known : trusts seen entry) :
    allows seen (.reclaimOperation entry.op)
  /-- The next entry behind a trusted one, of the same operation and with no lower
  count. -/
  writes {seen : AgentState} {entry next : JournalEntry} (known : trusts seen entry)
    (sameOp : next.op = entry.op) (count : entry.reloadAttempts ≤ next.reloadAttempts)
    (successor : next.seq = entry.seq + 1) : allows seen (.writeJournal next)
  /-- Whoever wins the counting entry goes on to the signal. -/
  wonReload {seen : AgentState} {entry : JournalEntry} {rest : Program Unit}
    (known : trusts seen entry) (phase : entry.phase = .reloadIntent)
    (within : entry.reloadAttempts < RELOAD_ATTEMPT_LIMIT)
    (signals : Runner.reload entry = (Dp.effect (.signalReload (.apply entry.op)) >>= fun _ => rest))
    (after : ∀ behind, Keeps behind rest) :
    Keeps seen (Runner.winReload entry >>= fun won => if won then Runner.reload entry else pure ())

variable {d : DriverRules} {seen : AgentState} {deployment : Deployment}

namespace DriverRules

variable {α β : Type}

theorem judge {verdict : Except DpRejection α} : d.Keeps seen (Program.judge verdict) := by
  cases verdict with
  | ok value => exact d.ok
  | error rejection => exact d.fault

theorem judge_then {verdict : Except DpRejection α} {rest : α → Program β}
    (then_ : ∀ value, verdict = .ok value → d.Keeps seen (rest value)) :
    d.Keeps seen (Program.judge verdict >>= rest) := by
  cases verdict with
  | ok value => exact then_ value rfl
  | error rejection => exact d.fault

theorem choice {condition : Prop} [Decidable condition] {yes no : Program α}
    (first : d.Keeps seen yes) (second : d.Keeps seen no) :
    d.Keeps seen (if condition then yes else no) := by
  by_cases holds : condition
  · rw [if_pos holds]
    exact first
  · rw [if_neg holds]
    exact second

theorem clerical {o : AgentOp} (light : o.light = true) : d.Keeps seen (Dp.durably o) :=
  d.durably (d.light light)

end DriverRules

namespace Runner

theorem finishOperation_keeps (op : ApplyOperation) (planes : List Plane) :
    d.Keeps seen (finishOperation op planes) :=
  d.clerical rfl

theorem ignoreConflict_keeps {program : Program Unit} (careful : d.Keeps seen program) :
    d.Keeps seen (ignoreConflict program) := by
  refine d.handle careful fun thrown => ?_
  split
  · exact d.ok
  · exact d.fault

theorem ignoreRejection_keeps {program : Program Unit} (careful : d.Keeps seen program) :
    d.Keeps seen (ignoreRejection program) := by
  refine d.handle careful fun thrown => ?_
  split
  · exact d.ok
  · exact d.fault

variable {entry : JournalEntry}

theorem writeUnlessLost_keeps {next : JournalEntry} (known : d.trusts seen entry)
    (sameOp : next.op = entry.op) (count : entry.reloadAttempts ≤ next.reloadAttempts)
    (successor : next.seq = entry.seq + 1) :
    d.Keeps seen (ignoreConflict (write next)) :=
  ignoreConflict_keeps (d.durably (d.writes known sameOp count successor))

theorem assertOwnership_keeps (op : ApplyOperation) : d.Keeps seen (assertOwnership op) :=
  d.snapshot_then fun _ _ _ => DriverRules.judge

theorem observeRead_keeps : d.Keeps seen observeRead :=
  d.handle (d.bind (d.effect nofun) fun _ => d.ok) fun _ => d.ok

theorem observe_keeps : d.Keeps seen observe :=
  d.bind observeRead_keeps fun _ => d.ok

theorem awaitFrom_keeps (target : String) (attempts : Nat)
    (last : Option ActivationEvidence) : d.Keeps seen (awaitFrom target attempts last) := by
  induction attempts generalizing last with
  | zero => exact d.ok
  | succ attempts induction =>
      refine d.bind observe_keeps fun found => ?_
      split
      · exact d.ok
      · exact induction found

theorem failPlanes_keeps (known : d.trusts seen entry)
    (planes : List Plane) (progress : PerPlane (Option PlaneProgress)) :
    d.Keeps seen (failPlanes entry.op planes progress) := by
  induction planes generalizing progress seen with
  | nil => exact d.ok
  | cons plane rest induction =>
      refine d.snapshot_then fun s onward _ => ?_
      have still := d.stays onward known
      refine d.bind DriverRules.judge fun moved => ?_
      split
      · exact induction still _
      · refine DriverRules.judge_then fun tuple extracted => ?_
        refine d.bind (ignoreRejection_keeps ?_) fun _ => induction still _
        exact d.durably (d.carries still extracted).2.1

theorem failAll_keeps (known : d.trusts seen entry) (reason : String) :
    d.Keeps seen (failAll entry reason) := by
  refine d.bind (failPlanes_keeps known _ _) fun progress => ?_
  refine d.snapshot_then fun s relied read => ?_
  refine d.bind DriverRules.judge fun reached => ?_
  refine d.bind ?_ fun _ => finishOperation_keeps _ _
  exact writeUnlessLost_keeps (d.stays relied known) rfl (Nat.le_refl _) rfl

theorem stagePlanes_keeps (known : d.trusts seen entry)
    (planes : List Plane) (staged : PerPlane (Option PlaneProgress)) (advanced : Nat) :
    d.Keeps seen (stagePlanes deployment entry.op planes staged advanced) := by
  induction planes generalizing staged advanced with
  | nil => exact d.ok
  | cons plane rest induction =>
      refine d.bind (d.handle ?_ fun thrown => ?_) fun accepted => ?_
      · refine DriverRules.judge_then fun tuple extracted => ?_
        refine d.bind (d.durably (d.carries known extracted).1) fun _ => ?_
        split
        · exact d.bind (d.effect nofun) fun _ => d.ok
        · exact d.ok
      · split
        · exact d.ok
        · exact d.fault
      · split
        · exact induction _ _
        · exact induction _ _

theorem commitPlanes_keeps (known : d.trusts seen entry)
    (evidence : ActivationEvidence) (planes : List Plane)
    (progress : PerPlane (Option PlaneProgress)) :
    d.Keeps seen (commitPlanes entry.op evidence planes progress) := by
  induction planes generalizing progress with
  | nil => exact d.ok
  | cons plane rest induction =>
      refine d.bind (d.handle ?_ fun thrown => ?_) fun accepted => induction _
      · refine DriverRules.judge_then fun tuple extracted => ?_
        exact d.bind (d.durably ((d.carries known extracted).2.2 _)) fun _ => d.ok
      · split
        · exact d.ok
        · exact d.fault

theorem preflight_keeps (known : d.trusts seen entry) :
    d.Keeps seen (preflight entry) := by
  refine d.bind (d.effect nofun) fun check => ?_
  refine d.bind (assertOwnership_keeps _) fun _ => ?_
  split
  · exact failAll_keeps known _
  · exact writeUnlessLost_keeps known rfl (Nat.le_refl _) rfl

theorem publishIntent_keeps (known : d.trusts seen entry) :
    d.Keeps seen (publishIntent entry) := by
  refine d.bind (d.effect nofun) fun found => ?_
  split
  · refine d.bind (d.durably (d.publishes known)) fun _ => ?_
    refine d.bind (d.effect nofun) fun _ => ?_
    exact writeUnlessLost_keeps known rfl (Nat.le_refl _) rfl
  · exact writeUnlessLost_keeps known rfl (Nat.le_refl _) rfl

theorem published_keeps (known : d.trusts seen entry) :
    d.Keeps seen (published deployment entry) := by
  refine d.bind (stagePlanes_keeps known _ _ _) fun (staged, advanced) => ?_
  refine DriverRules.choice (failAll_keeps known _) ?_
  exact writeUnlessLost_keeps known rfl (Nat.le_refl _) rfl

theorem observed_keeps (entry : JournalEntry) (after : Option ActivationEvidence) :
    d.Keeps seen (match after with
      | none => pure ()
      | some evidence => do
          let s ← snapshot
          match s.journal with
          | none => pure ()
          | some now =>
              if ownsJournal s.journal entry.op then
                ignoreConflict <| write
                  { now with
                    phase :=
                      if provesActivation after entry.op.targetGeneration then .reloadObserved
                      else now.phase
                    evidence := some evidence
                    seq := now.seq + 1 } : Program Unit) := by
  cases after with
  | none => exact d.ok
  | some evidence =>
      refine d.snapshot_then fun s relied read => ?_
      cases found : s.journal with
      | none => exact d.ok
      | some now =>
          refine DriverRules.choice ?_ d.ok
          exact writeUnlessLost_keeps (read _ found) rfl (Nat.le_refl _) rfl

theorem membershipStaged_keeps (known : d.trusts seen entry) :
    d.Keeps seen (membershipStaged entry) :=
  writeUnlessLost_keeps known rfl (Nat.le_refl _) rfl

theorem reloadIntent_keeps (known : d.trusts seen entry)
    (phase : entry.phase = .reloadIntent) : d.Keeps seen (reloadIntent entry) := by
  refine d.bind observeRead_keeps fun reading => ?_
  refine DriverRules.choice (writeUnlessLost_keeps known rfl (Nat.le_refl _) rfl) ?_
  have onward (blind : Bool) (found : Option ActivationEvidence) : d.Keeps seen
      (if RELOAD_ATTEMPT_LIMIT ≤ entry.reloadAttempts || (blind && 0 < entry.reloadAttempts) then
        failAll entry (reloadExhausted blind entry.op.targetGeneration found)
      else winReload entry >>= fun won => if won then reload entry else pure ()) := by
    split
    · exact failAll_keeps known _
    · rename_i unspent
      rw [Bool.or_eq_true, decide_eq_true_eq, not_or] at unspent
      refine d.wonReload known phase (Nat.not_le.mp unspent.1) rfl fun behind => ?_
      exact d.bind (awaitFrom_keeps _ _ _) (observed_keeps entry)
  cases reading with
  | read evidence => exact onward false evidence
  | unread => exact onward true none

theorem commitObserved_keeps (known : d.trusts seen entry)
    (evidence : ActivationEvidence) : d.Keeps seen (commitObserved entry evidence) := by
  refine d.bind (commitPlanes_keeps known evidence _ _) fun progress => ?_
  refine d.bind (writeUnlessLost_keeps known rfl (Nat.le_refl _) rfl) fun _ => ?_
  exact DriverRules.choice (finishOperation_keeps _ _) d.ok

theorem reloadObserved_keeps (known : d.trusts seen entry) :
    d.Keeps seen (reloadObserved entry) := by
  refine d.bind (d.effect nofun) fun stillMine => ?_
  split
  · exact writeUnlessLost_keeps known rfl (Nat.le_refl _) rfl
  · refine d.bind (awaitFrom_keeps _ _ _) fun evidence => ?_
    cases evidence with
    | none => exact writeUnlessLost_keeps known rfl (Nat.le_refl _) rfl
    | some found =>
        simp only
        split
        · exact commitObserved_keeps known found
        · exact writeUnlessLost_keeps known rfl (Nat.le_refl _) rfl

theorem partiallyActivated_keeps (known : d.trusts seen entry) :
    d.Keeps seen (partiallyActivated entry) := by
  rw [partiallyActivated]
  split
  · refine d.bind (writeUnlessLost_keeps known rfl (Nat.le_refl _) rfl) fun _ => ?_
    refine d.bind (finishOperation_keeps _ _) fun _ => ?_
    exact d.snapshot_then fun _ _ _ => d.ok
  · split
    · exact d.bind (writeUnlessLost_keeps known rfl (Nat.le_refl _) rfl) fun _ => d.ok
    · refine d.bind ?_ fun _ => d.ok
      exact writeUnlessLost_keeps known rfl (Nat.le_succ _) rfl

theorem phaseStep_keeps (known : d.trusts seen entry) :
    d.Keeps seen (phaseStep deployment entry) := by
  rw [phaseStep]
  split
  · exact d.bind (preflight_keeps known) fun _ => d.ok
  · exact d.bind (publishIntent_keeps known) fun _ => d.ok
  · exact d.bind (published_keeps known) fun _ => d.ok
  · exact d.bind (membershipStaged_keeps known) fun _ => d.ok
  · rename_i phase
    exact d.bind (reloadIntent_keeps known phase) fun _ => d.ok
  · exact d.bind (reloadObserved_keeps known) fun _ => d.ok
  · exact partiallyActivated_keeps known
  all_goals exact d.ok

theorem closeAbandoned_keeps (s : AgentState) (entry : JournalEntry) :
    d.Keeps seen (closeAbandoned s entry) := by
  refine d.bind DriverRules.judge fun reached => ?_
  refine d.bind (d.clerical rfl) fun _ => ?_
  refine d.bind (finishOperation_keeps _ _) fun _ => ?_
  exact d.snapshot_then fun _ _ _ => d.ok

theorem driveTurn_keeps (bound : ApplyOperation) (pastLimit : Bool) :
    d.Keeps seen (driveTurn deployment bound pastLimit) := by
  refine d.snapshot_then fun s _ read => ?_
  cases found : s.journal with
  | none => exact d.ok
  | some entry =>
      simp only
      split
      · split
        · exact d.bind (finishOperation_keeps _ _) fun _ => d.ok
        · exact d.ok
      · split
        · split
          · exact d.bind (finishOperation_keeps _ _) fun _ => d.ok
          · exact d.ok
        · refine d.bind DriverRules.judge fun kinds => ?_
          split
          · exact d.bind (closeAbandoned_keeps s entry) fun _ => d.ok
          · refine d.bind DriverRules.judge fun _ => ?_
            split
            · exact d.fault
            · exact phaseStep_keeps (read _ found)

theorem driveLoop_keeps (bound : ApplyOperation) (remaining : Nat) :
    d.Keeps seen (driveLoop deployment bound remaining) := by
  induction remaining with
  | zero => exact d.bind (driveTurn_keeps bound true) fun _ => d.ok
  | succ remaining induction =>
      refine d.bind (driveTurn_keeps bound false) fun outcome => ?_
      cases outcome with
      | some result => exact d.ok
      | none => exact induction

theorem drive_keeps (bound : ApplyOperation) : d.Keeps seen (drive deployment bound) := by
  refine d.handle (driveLoop_keeps bound _) fun thrown => ?_
  split
  · refine d.snapshot_then fun s _ read => ?_
    cases found : s.journal with
    | none => exact d.ok
    | some entry =>
        simp only
        split
        · refine d.bind (failAll_keeps (read _ found) _) fun _ => ?_
          exact d.snapshot_then fun _ _ _ => d.ok
        · exact d.ok
  · exact d.fault

theorem run_keeps (op : ApplyOperation) : d.Keeps seen (run deployment op) := by
  refine d.bind DriverRules.judge fun _ => ?_
  exact d.bind (d.durably d.opens) fun _ => drive_keeps op

theorem recover_keeps : d.Keeps seen (recover deployment) := by
  refine d.snapshot_then fun s _ read => ?_
  cases found : s.journal with
  | none => exact d.bind (d.clerical rfl) fun _ => d.ok
  | some entry =>
      simp only
      split
      · exact d.bind (finishOperation_keeps _ _) fun _ => d.ok
      · split
        · refine d.bind (d.clerical rfl) fun _ => ?_
          refine d.bind (d.clerical rfl) fun _ => ?_
          exact d.snapshot_then fun _ _ _ => d.ok
        · refine d.bind (d.durably (d.reclaims (read _ found))) fun _ => ?_
          exact drive_keeps entry.op

end Runner

namespace Driver

theorem applyMembership_keeps (op : ApplyOperation) (plane : Plane)
    (slots : OrderedMap String (List String)) :
    d.Keeps seen (applyMembership deployment op plane slots) := by
  rw [applyMembership]
  split
  · exact d.fault
  · split
    · exact d.fault
    · refine d.bind DriverRules.judge fun tuple => ?_
      refine d.bind (d.clerical rfl) fun ack => ?_
      exact d.bind (d.effect nofun) fun _ => d.ok

theorem abortPlanes_keeps (op : ApplyOperation) (planes : List Plane)
    (refused : List String) : d.Keeps seen (abortPlanes op planes refused) := by
  induction planes generalizing refused with
  | nil => exact d.ok
  | cons plane rest induction =>
      refine d.bind (d.handle ?_ fun thrown => ?_) fun outcome => ?_
      · refine d.bind DriverRules.judge fun tuple => ?_
        exact d.bind (d.clerical rfl) fun _ => d.ok
      · split
        · exact d.ok
        · exact d.fault
      · split
        · exact induction _
        · exact induction _

theorem abortConfig_keeps (op : ApplyOperation) : d.Keeps seen (abortConfig op) := by
  refine d.bind (abortPlanes_keeps op _ _) fun refused => ?_
  refine d.bind (d.clerical rfl) fun _ => ?_
  refine d.bind (Runner.finishOperation_keeps _ _) fun _ => ?_
  refine d.snapshot_then fun s _ read => ?_
  refine d.bind DriverRules.judge fun reached => ?_
  refine d.bind (d.clerical rfl) fun _ => ?_
  split
  · exact d.fault
  · exact d.ok

theorem repair_keeps (expected : PublishRecord) (found : PublishedState) (pointerOk : Bool) :
    d.Keeps seen (repair expected found pointerOk) := by
  rw [repair]
  simp only
  split
  on_goal 1 => refine d.bind (d.effect nofun) fun _ => ?_
  all_goals
    refine d.bind (d.effect (by simp)) fun _ => ?_
    refine d.snapshot_then fun midway _ _ => ?_
    split
    · exact d.ok
    · exact d.ok
    · refine d.bind (d.effect nofun) fun afterPublish => ?_
      refine d.bind (d.effect nofun) fun afterActive => ?_
      refine d.snapshot_then fun after _ _ => ?_
      split
      · exact d.ok
      · exact DriverRules.choice d.ok d.ok
      · exact d.ok

theorem reconcileRound_keeps : d.Keeps seen reconcileRound := by
  refine d.snapshot_then fun s _ read => ?_
  split
  · exact d.bind (d.effect nofun) fun _ => d.ok
  · split
    · split
      · exact d.ok
      · exact d.bind (d.effect nofun) fun _ => d.ok
    · refine d.bind (d.effect nofun) fun found => ?_
      refine d.bind (d.effect nofun) fun activation => ?_
      refine d.snapshot_then fun now _ _ => ?_
      refine DriverRules.choice ?_ (DriverRules.choice d.ok ?_)
      · split
        · exact d.ok
        · exact d.ok
        · exact d.ok
      · split
        · exact d.ok
        · exact d.ok
        · exact repair_keeps _ _ _

theorem reconcileTail_keeps : d.Keeps seen reconcileTail := by
  refine d.snapshot_then fun s _ read => ?_
  split
  · exact d.ok
  · refine d.bind (d.effect nofun) fun found => ?_
    refine d.bind (d.effect nofun) fun activation => ?_
    refine d.snapshot_then fun now _ _ => ?_
    split
    · exact d.ok
    · exact DriverRules.choice d.ok d.ok
    · exact d.ok

theorem reconcileFrom_keeps (rounds : Nat) : d.Keeps seen (reconcileFrom rounds) := by
  induction rounds with
  | zero => exact reconcileTail_keeps
  | succ rounds induction =>
      refine d.bind reconcileRound_keeps fun outcome => ?_
      cases outcome with
      | some result => exact d.ok
      | none => exact induction

end Driver

theorem DriverOp.keeps (o : DriverOp) : d.Keeps seen (o.program deployment) := by
  cases o with
  | fence leaderToken => exact d.clerical rfl
  | applyConfig op => exact Runner.run_keeps op
  | recoverConfig => exact Runner.recover_keeps
  | abortConfig op => exact Driver.abortConfig_keeps op
  | applyMembership op plane slots => exact Driver.applyMembership_keeps op plane slots
  | reconcileConfig => exact Driver.reconcileFrom_keeps 3

end Barycenter.Dp
