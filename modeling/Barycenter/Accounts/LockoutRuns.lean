import Barycenter.Accounts.Lockout

/-!
# What the lock of an account guarantees

A transaction with a code holds the row from the check of the lock to its end,
so the lock cannot begin while the code is verified, and its failure is counted
when the transaction commits.  A login holds nothing: the lock may begin while
its password is verified, and what it read before decides.
-/

namespace Barycenter.Accounts.Lockout

variable {ι : Type} [DecidableEq ι]

/-! ## What is asked -/

def Deed.verdict : Deed → Option Check
  | .verified ok => some (if ok then .right else .wrong)
  | .mfaVerified check | .stepUpVerified check => some check
  | _ => none

def Label.verdictOf (attempt : ι) : Label ι → Option Check
  | .deed other what => if other = attempt then what.verdict else none
  | .tick _ => none

/-- A verification of the attempt completes while the account is locked. -/
def CompletesLocked (attempt : ι) (event : Event (State ι) (Label ι)) : Prop :=
  (event.label.verdictOf attempt).isSome = true ∧
    locked event.before.shared.row.lockedUntil event.before.shared.clock = true

/-- A verification of the attempt finds something wrong. -/
def wrongBy (attempt : ι) (event : Event (State ι) (Label ι)) : Bool :=
  event.label.verdictOf attempt = some .wrong

/-- The failure of the attempt is added to the committed row. -/
def countedBy (attempt : ι) (event : Event (State ι) (Label ι)) : Bool :=
  event.label = .deed attempt .lock &&
    event.after.shared.row.lastFailedAt.any fun failedAt =>
      failedAt ≤ event.before.shared.clock &&
        event.after.shared.row =
          (event.before.shared.row.failed failedAt).lockedFrom event.before.shared.clock

/-- A right password is not accepted through a lock that began after it was read,
and no code of a step-up is wrong. -/
structure Careful (account : Account) (event : Event (State ι) (Label ι)) : Prop where
  password : ∀ attempt now, event.label = .deed attempt (.verified true) →
    event.before.stages attempt = .loginChecked now false → account.admits = true →
      locked event.before.shared.row.lockedUntil event.before.shared.clock = false
  code : ∀ attempt, event.label ≠ .deed attempt (.stepUpVerified .wrong)

/-! ## The lock and the clock -/

variable {shared shared' : Shared ι} {stage stage' : Stage} {account : Account}

variable {now : Nat}

theorem locked_later {lockedUntil : Option Nat} {later : Nat}
    (unlocked : locked lockedUntil now = false) (order : now ≤ later) :
    locked lockedUntil later = false := by
  cases lockedUntil with
  | none => rfl
  | some limit =>
      simp only [locked, Option.any_some, decide_eq_false_iff_not, Nat.not_lt] at unlocked ⊢
      omega

/-- What holds of the shared state while an attempt is in a stage. -/
def Coherent (shared : Shared ι) (attempt : ι) : Stage → Prop
  | .mfaStarted _ now => now ≤ shared.clock
  | .mfaVerifying _ now =>
      shared.held = some attempt ∧ now ≤ shared.clock ∧ locked shared.row.lockedUntil now = false
  | .stepUpVerifying _ =>
      shared.held = some attempt ∧ locked shared.row.lockedUntil shared.clock = false
  | .counting .mfa | .counting .stepUp => shared.held = some attempt
  | .locking _ row =>
      shared.held = some attempt ∧ ∃ failedAt ≤ shared.clock, row = shared.row.failed failedAt
  | _ => True

inductive RowChange (account : Account) (shared : Shared ι) (deed : Deed) : UserRow → Prop where
  | kept : RowChange account shared deed shared.row
  | reset (known : deed = .reset) (single : account.factor = none) :
      RowChange account shared deed shared.row.cleared
  | completed (known : deed = .mfaVerified .right ∨ deed = .stepUpVerified .right) :
      RowChange account shared deed shared.row.cleared
  | counted (known : deed = .lock) (failedAt : Nat) (past : failedAt ≤ shared.clock) :
      RowChange account shared deed ((shared.row.failed failedAt).lockedFrom shared.clock)

variable {attempt : ι}

theorem free_of_held (holds : shared.held = some attempt) :
    shared.free attempt = true := by
  simp [Shared.free, holds]

variable {deed : Deed}

theorem Coherent.act (acted : deed.act account attempt shared stage = some (shared', stage'))
    (coherent : Coherent shared attempt stage) :
    Coherent shared' attempt stage' ∧ shared'.clock = shared.clock ∧
      (shared.free attempt = true ∨ shared'.row = shared.row ∧ shared'.held = shared.held) ∧
      RowChange account shared deed shared'.row := by
  unfold Deed.act at acted
  split at acted
  case h_1 =>
      split at acted <;> (cases acted; exact ⟨trivial, rfl, .inr ⟨rfl, rfl⟩, .kept⟩)
  case h_2 =>
      cases acted
      exact ⟨trivial, rfl, .inr ⟨rfl, rfl⟩, .kept⟩
  case h_3 =>
      split at acted
      · cases acted
        exact ⟨trivial, rfl, .inr ⟨rfl, rfl⟩, .kept⟩
      · split at acted <;> (cases acted; exact ⟨trivial, rfl, .inr ⟨rfl, rfl⟩, .kept⟩)
  case h_4 =>
      split at acted
      · rename_i allowed
        simp only [Bool.and_eq_true, Option.isNone_iff_eq_none] at allowed
        cases acted
        exact ⟨trivial, rfl, .inl allowed.2, .reset rfl allowed.1⟩
      · cases acted
  case h_5 =>
      obtain ⟨method, -, same⟩ := Option.map_eq_some_iff.mp acted
      cases same
      exact ⟨trivial, rfl, .inr ⟨rfl, rfl⟩, .kept⟩
  case h_6 =>
      split at acted <;> (cases acted; exact ⟨trivial, rfl, .inr ⟨rfl, rfl⟩, .kept⟩)
  case h_7 =>
      split at acted
      · cases acted
        exact ⟨trivial, rfl, .inr ⟨rfl, rfl⟩, .kept⟩
      · cases acted
        exact ⟨Nat.le_refl _, rfl, .inr ⟨rfl, rfl⟩, .kept⟩
  case h_8 pending now =>
      -- the row is read behind the lock, with the clock of before
      split at acted
      · cases acted
        exact ⟨trivial, rfl, .inr ⟨rfl, rfl⟩, .kept⟩
      · split at acted
        · cases acted
        · rename_i free
          split at acted
          · cases acted
            exact ⟨trivial, rfl, .inr ⟨rfl, rfl⟩, .kept⟩
          · rename_i unlocked
            cases acted
            exact ⟨⟨rfl, coherent, by simpa using unlocked⟩, rfl, .inl (by simpa using free), .kept⟩
  case h_9 pending now check =>
      have free := free_of_held coherent.1
      cases check with
      | right =>
          cases acted
          exact ⟨trivial, rfl, .inl free, .completed (.inl rfl)⟩
      | wrong =>
          cases acted
          exact ⟨coherent.1, rfl, .inl free, .kept⟩
      | unavailable =>
          cases acted
          exact ⟨trivial, rfl, .inl free, .kept⟩
  case h_10 session =>
      split at acted
      · cases acted
        exact ⟨trivial, rfl, .inr ⟨rfl, rfl⟩, .kept⟩
      · split at acted
        · cases acted
        · rename_i free
          split at acted
          · cases acted
            exact ⟨trivial, rfl, .inr ⟨rfl, rfl⟩, .kept⟩
          · rename_i unlocked
            cases acted
            exact ⟨⟨rfl, by simpa using unlocked⟩, rfl, .inl (by simpa using free), .kept⟩
  case h_11 session check =>
      have free := free_of_held coherent.1
      cases check with
      | right =>
          cases acted
          exact ⟨trivial, rfl, .inl free, .completed (.inr rfl)⟩
      | wrong =>
          cases acted
          exact ⟨coherent.1, rfl, .inl free, .kept⟩
      | unavailable =>
          cases acted
          exact ⟨trivial, rfl, .inl free, .kept⟩
  case h_12 purpose =>
      split at acted
      · rename_i free
        cases acted
        exact ⟨⟨rfl, _, Nat.le_refl _, rfl⟩, rfl, .inl free, .kept⟩
      · cases acted
  case h_13 purpose row =>
      obtain ⟨held, failedAt, past, rfl⟩ := coherent
      have free := free_of_held held
      cases purpose with
      | login | mfa =>
          cases acted
          exact ⟨trivial, rfl, .inl free, .counted rfl failedAt past⟩
      | stepUp =>
          cases acted
          exact ⟨trivial, rfl, .inl free, .kept⟩
  case h_14 => cases acted

/-- The row is free for one attempt at most, so a step of one leaves what holds
of the others. -/
theorem Coherent.other {other : ι} {its : Stage}
    (different : other ≠ attempt)
    (acted : deed.act account attempt shared stage = some (shared', stage'))
    (mine : Coherent shared attempt stage) (coherent : Coherent shared other its) :
    Coherent shared' other its := by
  obtain ⟨-, clock, frame, -⟩ := mine.act acted
  have kept : shared.held = some other → shared'.row = shared.row ∧ shared'.held = shared.held := by
    intro held
    rcases frame with free | kept
    · simp [Shared.free, held, different] at free
    · exact kept
  cases its with
  | mfaStarted pending now => exact (clock.symm ▸ coherent : now ≤ shared'.clock)
  | mfaVerifying pending now =>
      obtain ⟨held, order, unlocked⟩ := coherent
      obtain ⟨row, still⟩ := kept held
      exact ⟨still.trans held, clock ▸ order, row ▸ unlocked⟩
  | stepUpVerifying session =>
      obtain ⟨held, unlocked⟩ := coherent
      obtain ⟨row, still⟩ := kept held
      refine ⟨still.trans held, ?_⟩
      rw [row, clock]
      exact unlocked
  | counting purpose =>
      cases purpose with
      | login => trivial
      | mfa | stepUp => exact (kept coherent).2.trans coherent
  | locking purpose row =>
      obtain ⟨held, failedAt, past, same⟩ := coherent
      obtain ⟨kept, still⟩ := kept held
      exact ⟨still.trans held, failedAt, clock ▸ past, kept ▸ same⟩
  | idle | loginRead _ | loginChecked _ _ | loginPassed _ | loginCleared _ | done _ => trivial

omit [DecidableEq ι] in
theorem Coherent.tick (ms : Nat) (coherent : Coherent shared attempt stage) :
    Coherent { shared with clock := shared.clock + ms } attempt stage := by
  cases stage with
  | mfaStarted pending now => exact Nat.le_add_right_of_le coherent
  | mfaVerifying pending now =>
      exact ⟨coherent.1, Nat.le_add_right_of_le coherent.2.1, coherent.2.2⟩
  | stepUpVerifying session =>
      exact ⟨coherent.1, locked_later coherent.2 (Nat.le_add_right _ _)⟩
  | counting purpose => cases purpose <;> exact coherent
  | locking purpose row =>
      obtain ⟨held, failedAt, past, same⟩ := coherent
      exact ⟨held, failedAt, Nat.le_add_right_of_le past, same⟩
  | idle | loginRead _ | loginChecked _ _ | loginPassed _ | loginCleared _ | done _ => trivial

variable {before after : State ι}

theorem step_deed (stepped : Step account before (.deed attempt deed) after) :
    deed.act account attempt before.shared (before.stages attempt) =
        some (after.shared, after.stages attempt) ∧
      ∀ other, other ≠ attempt → after.stages other = before.stages other := by
  obtain ⟨⟨shared, stage⟩, acted, rfl⟩ := Option.map_eq_some_iff.mp stepped
  refine ⟨by simpa using acted, fun other different => ?_⟩
  exact Function.update_of_ne different ..

theorem coherent_step {label : Label ι}
    (stepped : Step account before label after)
    (coherent : ∀ attempt, Coherent before.shared attempt (before.stages attempt)) :
    ∀ attempt, Coherent after.shared attempt (after.stages attempt) := by
  intro attempt
  cases label with
  | tick ms =>
      cases stepped
      exact (coherent attempt).tick ms
  | deed owner deed =>
      obtain ⟨acted, others⟩ := step_deed stepped
      by_cases mine : attempt = owner
      · subst mine
        exact ((coherent attempt).act acted).1
      · rw [others attempt mine]
        exact Coherent.other mine acted (coherent owner) (coherent attempt)

/-! ## Owed failures -/

def owes : Stage → Nat
  | .counting _ | .locking _ _ => 1
  | _ => 0

def forStepUp : Stage → Bool
  | .counting .stepUp | .locking .stepUp _ => true
  | _ => false

variable {event : Event (State ι) (Label ι)}

theorem countedBy_lock {failedAt : Nat}
    (label : event.label = .deed attempt .lock) (past : failedAt ≤ event.before.shared.clock)
    (row : event.after.shared.row =
      (event.before.shared.row.failed failedAt).lockedFrom event.before.shared.clock) :
    countedBy attempt event = true := by
  have stamped : event.after.shared.row.lastFailedAt = some failedAt := by
    rw [row]
    rfl
  rw [countedBy, stamped]
  simp [label, past, row]

theorem countedBy_other
    (label : event.label ≠ .deed attempt .lock) : countedBy attempt event = false := by
  simp [countedBy, label]

theorem Deed.owing (acted : deed.act account attempt shared stage = some (shared', stage')) :
    (if deed = .lock then 1 else 0) + owes stage' =
        owes stage + (if deed.verdict = some .wrong then 1 else 0) ∧
      (forStepUp stage = false → deed ≠ .stepUpVerified .wrong → forStepUp stage' = false) := by
  unfold Deed.act at acted
  split at acted
  case h_3 now isLocked ok =>
      cases ok with
      | false =>
          cases acted
          exact ⟨rfl, fun _ _ => rfl⟩
      | true =>
          simp only [Bool.not_true, Bool.false_eq_true, if_false] at acted
          split at acted <;> (cases acted; exact ⟨rfl, fun _ _ => rfl⟩)
  case h_5 =>
      obtain ⟨method, -, same⟩ := Option.map_eq_some_iff.mp acted
      cases same
      exact ⟨rfl, fun _ _ => rfl⟩
  case h_9 pending now check | h_11 session check =>
      cases check <;> (cases acted; exact ⟨rfl, by simp [forStepUp]⟩)
  case h_12 purpose =>
      split at acted
      · cases acted
        exact ⟨rfl, by cases purpose <;> simp [forStepUp]⟩
      · cases acted
  case h_13 purpose row =>
      cases purpose <;> (cases acted; exact ⟨rfl, fun _ _ => rfl⟩)
  case h_14 => cases acted
  all_goals
    repeat' split at acted
    all_goals first | (cases acted; exact ⟨rfl, fun _ _ => rfl⟩) | cases acted

theorem balanced (stepped : Step account before (.deed attempt deed) after)
    (coherent : Coherent before.shared attempt (before.stages attempt))
    (lasting : forStepUp (before.stages attempt) = false) :
    (countedBy attempt ⟨before, .deed attempt deed, after⟩).toNat + owes (after.stages attempt) =
      owes (before.stages attempt) +
        (wrongBy attempt ⟨before, .deed attempt deed, after⟩).toNat := by
  obtain ⟨acted, -⟩ := step_deed stepped
  have owing := (Deed.owing acted).1
  have counted : (countedBy attempt ⟨before, .deed attempt deed, after⟩).toNat =
      if deed = .lock then 1 else 0 := by
    by_cases final : deed = .lock
    · subst final
      cases found : before.stages attempt with
      | locking purpose row =>
          rw [found] at acted coherent lasting
          obtain ⟨-, failedAt, past, rfl⟩ := coherent
          have row : after.shared.row =
              (before.shared.row.failed failedAt).lockedFrom before.shared.clock := by
            cases purpose with
            | login | mfa => rw [← (Prod.mk.inj (Option.some.inj acted)).1]
            | stepUp => cases lasting
          rw [countedBy_lock rfl past row]
          rfl
      | idle | loginRead _ | loginChecked _ _ | loginPassed _ | loginCleared _ | mfaStarted _ _
      | mfaVerifying _ _ | stepUpVerifying _ | counting _ | done _ =>
          rw [found] at acted
          cases acted
    · rw [countedBy_other (by simpa using final), if_neg final]
      rfl
  have wrong : (wrongBy attempt ⟨before, .deed attempt deed, after⟩).toNat =
      if deed.verdict = some .wrong then 1 else 0 := by
    simp only [wrongBy, Label.verdictOf, if_true]
    split <;> simp_all
  rw [counted, wrong]
  exact owing

/-! ## Doomed attempts -/

def Doomed (account : Account) : Stage → Prop
  | .counting _ | .locking _ _ => True
  | .loginPassed _ | .loginCleared _ => account.admin = true ∧ account.factor = none
  | .done outcome => outcome.granted = false
  | _ => False

theorem Doomed.act (acted : deed.act account attempt shared stage = some (shared', stage'))
    (doomed : Doomed account stage) : Doomed account stage' := by
  cases stage with
  | counting purpose =>
      cases deed <;> simp only [Deed.act, reduceCtorEq] at acted
      split at acted
      · cases acted
        trivial
      · cases acted
  | locking purpose row =>
      cases deed <;> simp only [Deed.act, reduceCtorEq] at acted
      cases purpose <;> (cases acted; rfl)
  | loginPassed now =>
      cases deed <;> simp only [Deed.act, reduceCtorEq] at acted
      · split at acted
        · cases acted
          exact doomed
        · cases acted
      · rw [doomed.2] at acted
        cases acted
  | loginCleared now =>
      cases deed <;> simp only [Deed.act, reduceCtorEq] at acted
      rw [if_pos doomed.1] at acted
      cases acted
      rfl
  | done outcome => cases deed <;> cases acted
  | idle | loginRead _ | loginChecked _ _ | mfaStarted _ _ | mfaVerifying _ _
  | stepUpVerifying _ => cases doomed

theorem verdict_stage (acted : deed.act account attempt shared stage = some (shared', stage'))
    (completes : deed.verdict.isSome = true) :
    (∃ now wasLocked ok, stage = .loginChecked now wasLocked ∧ deed = .verified ok) ∨
      (∃ pending now, stage = .mfaVerifying pending now) ∨
        ∃ session, stage = .stepUpVerifying session := by
  unfold Deed.act at acted
  split at acted
  case h_3 now wasLocked ok => exact .inl ⟨now, wasLocked, ok, rfl, rfl⟩
  case h_9 pending now check => exact .inr (.inl ⟨pending, now, rfl⟩)
  case h_11 session check => exact .inr (.inr ⟨session, rfl⟩)
  case h_14 => cases acted
  all_goals cases completes

theorem doomed_of_locked (stepped : Step account before (.deed attempt deed) after)
    (careful : Careful account ⟨before, .deed attempt deed, after⟩)
    (coherent : Coherent before.shared attempt (before.stages attempt))
    (completes : deed.verdict.isSome = true)
    (isLocked : locked before.shared.row.lockedUntil before.shared.clock = true) :
    Doomed account (after.stages attempt) := by
  obtain ⟨acted, -⟩ := step_deed stepped
  rcases verdict_stage acted completes with
    ⟨now, wasLocked, ok, found, rfl⟩ | ⟨pending, now, found⟩ | ⟨session, found⟩
  · rw [found] at acted
    simp only [Deed.act] at acted
    split at acted
    · rw [← (Prod.mk.inj (Option.some.inj acted)).2]
      trivial
    · rename_i right
      split at acted
      · rw [← (Prod.mk.inj (Option.some.inj acted)).2]
        rfl
      · rename_i passed
        obtain rfl : ok = true := by simpa using right
        simp only [Bool.or_eq_true, Bool.not_eq_true', not_or, Bool.not_eq_true,
          Bool.not_eq_false] at passed
        obtain ⟨rfl, active⟩ := passed
        rw [← (Prod.mk.inj (Option.some.inj acted)).2]
        -- only an administrator without a second factor is turned away behind this
        have refused : account.admits = false := by
          by_contra admits
          have unlocked := careful.password attempt now rfl found (by simpa using admits)
          exact absurd isLocked (by simpa using unlocked)
        have turnedAway : account.admin = true ∧ account.factor = none := by
          simpa [Account.admits, active] using refused
        exact turnedAway
  · rw [found] at coherent
    obtain ⟨-, order, unlocked⟩ := coherent
    exact absurd isLocked (by simp [locked_later unlocked order])
  · rw [found] at coherent
    exact absurd isLocked (by simp [coherent.2])

/-! ## Runs -/

/-- What holds in every state that careful steps reach, and of the way there. -/
structure Tracked (account : Account) (past : List (Event (State ι) (Label ι)))
    (state : State ι) : Prop where
  coherent : ∀ attempt, Coherent state.shared attempt (state.stages attempt)
  lasting : ∀ attempt, forStepUp (state.stages attempt) = false
  balance : ∀ attempt, past.countP (countedBy attempt) + owes (state.stages attempt) =
    past.countP (wrongBy attempt)
  doomed : ∀ attempt, ∀ event ∈ past, CompletesLocked attempt event →
    Doomed account (state.stages attempt)

theorem Tracked.step {past : List (Event (State ι) (Label ι))}
    (tracked : Tracked account past event.before)
    (stepped : Step account event.before event.label event.after)
    (careful : Careful account event) : Tracked account (past ++ [event]) event.after := by
  have coherent := coherent_step stepped tracked.coherent
  obtain ⟨before, label, after⟩ := event
  change Step account before label after at stepped
  -- who does nothing keeps its stage, its counts and its verdicts
  have others : ∀ attempt, (∀ deed, label ≠ .deed attempt deed) →
      after.stages attempt = before.stages attempt ∧
        countedBy attempt ⟨before, label, after⟩ = false ∧
          label.verdictOf attempt = none := by
    intro attempt idle
    cases label with
    | tick ms =>
        cases stepped
        exact ⟨rfl, by simp [countedBy], rfl⟩
    | deed owner deed =>
        have different : attempt ≠ owner := fun same => idle deed (same ▸ rfl)
        obtain ⟨-, kept⟩ := step_deed stepped
        exact ⟨kept attempt different, by simp [countedBy, different.symm],
          by simp [Label.verdictOf, different.symm]⟩
  refine ⟨coherent, fun attempt => ?_, fun attempt => ?_, fun attempt earlier member late => ?_⟩
  · by_cases acts : ∃ deed, label = .deed attempt deed
    · obtain ⟨deed, rfl⟩ := acts
      refine (Deed.owing (step_deed stepped).1).2 (tracked.lasting attempt) fun wrong => ?_
      exact careful.code attempt (by rw [wrong])
    · rw [(others attempt (not_exists.mp acts)).1]
      exact tracked.lasting attempt
  · have balance := tracked.balance attempt
    rw [List.countP_append, List.countP_append]
    by_cases acts : ∃ deed, label = .deed attempt deed
    · obtain ⟨deed, rfl⟩ := acts
      have step := balanced stepped (tracked.coherent attempt) (tracked.lasting attempt)
      rw [List.countP_singleton, List.countP_singleton]
      change _ + owes (before.stages attempt) = _ at balance
      cases counted : countedBy attempt ⟨before, .deed attempt deed, after⟩ <;>
        cases wrong : wrongBy attempt ⟨before, .deed attempt deed, after⟩ <;>
        simp only [counted, wrong, Bool.toNat_true, Bool.toNat_false, if_true,
          Bool.false_eq_true, if_false] at step ⊢ <;>
        omega
    · obtain ⟨kept, uncounted, silent⟩ := others attempt (not_exists.mp acts)
      simp only [List.countP_singleton, uncounted, kept, wrongBy, silent]
      simpa using balance
  · rcases List.mem_append.mp member with old | here
    · have doomed := tracked.doomed attempt earlier old late
      by_cases acts : ∃ deed, label = .deed attempt deed
      · obtain ⟨deed, rfl⟩ := acts
        exact doomed.act (step_deed stepped).1
      · rw [(others attempt (not_exists.mp acts)).1]
        exact doomed
    · obtain rfl := List.mem_singleton.mp here
      by_cases acts : ∃ deed, label = .deed attempt deed
      · obtain ⟨deed, rfl⟩ := acts
        refine doomed_of_locked stepped careful (tracked.coherent attempt) ?_ late.2
        simpa [Label.verdictOf] using late.1
      · have silent := (others attempt (not_exists.mp acts)).2.2
        simp [CompletesLocked, silent] at late

def untouched : State Nat := { shared := {}, stages := fun _ => .idle }

end Barycenter.Accounts.Lockout
