import Barycenter.Dp.DriverRuns
import Barycenter.Dp.ReloadPrograms

/-!
# The reload budget

Journals are numbered in the order in which they were opened.  A reload signal
belongs to the journal that the last step of its runner found.  That step is the
write that counted the signal, no journal counts more than its limit, and no
write lowers a count; so no journal gets more signals than the limit.
-/

namespace Barycenter.Dp

variable {ι : Type}

def opensJournal (event : Event (ServicePool dataplane ι) (Deed dataplane ι)) : Bool :=
  event.after.state.journal.map (fun entry => entry.op.identity) ≠
    event.before.state.journal.map fun entry => entry.op.identity

/-- How many journals were opened, which one was open when a thread took its last
step, and how many signals every journal got. -/
structure Tally (ι : Type) where
  opened : Nat
  lastAt : ι → Nat
  signals : Nat → Nat

def Tally.add [DecidableEq ι] (tally : Tally ι)
    (event : Event (ServicePool dataplane ι) (Deed dataplane ι)) : Tally ι :=
  let opened := if opensJournal event then tally.opened + 1 else tally.opened
  { opened := opened
    lastAt := Function.update tally.lastAt event.label.thread opened
    signals :=
      match event.label with
      | .asked thread (.signalReload (.apply _)) =>
          let number := tally.lastAt thread
          Function.update tally.signals number (tally.signals number + 1)
      | _ => tally.signals }

def tallyOf [DecidableEq ι] (history : ServicePool.History dataplane ι) : Tally ι :=
  history.foldl Tally.add { opened := 0, lastAt := fun _ => 0, signals := fun _ => 0 }

@[simp] theorem tallyOf_snoc [DecidableEq ι] (past : ServicePool.History dataplane ι)
    (event : Event (ServicePool dataplane ι) (Deed dataplane ι)) :
    tallyOf (past ++ [event]) = (tallyOf past).add event := by
  simp [tallyOf]

/-- Every signal was counted right before by its own runner, and no journal got
more of them than its limit. -/
structure ReloadBudget [DecidableEq ι] (history : ServicePool.History dataplane ι) : Prop where
  counted : ∀ earlier event later, history = earlier ++ event :: later →
    ∀ thread op, event.label = .asked thread (.signalReload (.apply op)) →
      ∃ before win between old, earlier = before ++ win :: between ∧
        (∀ other ∈ between, other.label.thread ≠ thread) ∧
        win.label = .attempted thread (.writeJournal (counted old)) ∧
        win.before.state.journal = some old ∧ win.after.state.journal = some (counted old) ∧
        old.op = op ∧ old.reloadAttempts < RELOAD_ATTEMPT_LIMIT
  within : ∀ number, (tallyOf history).signals number ≤ RELOAD_ATTEMPT_LIMIT

/-! ## The books -/

/-- The writes that won, journal by journal, and those whose signal is still to
come. -/
structure Account [DecidableEq ι] (past : ServicePool.History dataplane ι) (s : AgentState)
    (waiting : List (ι × Nat)) (wins : Nat → Nat) : Prop where
  balance : ∀ number, (tallyOf past).signals number +
    waiting.countP (fun entry => entry.2 = number) ≤ wins number
  limit : ∀ number, wins number ≤ RELOAD_ATTEMPT_LIMIT
  unopened : ∀ number, (tallyOf past).opened < number → wins number = 0
  standing : ∀ entry, s.journal = some entry →
    wins (tallyOf past).opened ≤ entry.reloadAttempts
  owed : ∀ thread op, ServicePool.Bought reloadTariff past thread (.signalReload (.apply op)) →
    (thread, (tallyOf past).lastAt thread) ∈ waiting

theorem journal_counts [DecidableEq ι] {past : ServicePool.History dataplane ι}
    {event : Event (ServicePool dataplane ι) (Deed dataplane ι)}
    (step : ServicePool.Step event.before event.label event.after)
    (settled : ServicePool.Settled reloadTariff past event) :
    opensJournal event = true ∨ (opensJournal event = false ∧
      ∀ entry, event.after.state.journal = some entry →
        ∃ old, event.before.state.journal = some old ∧
          old.reloadAttempts ≤ entry.reloadAttempts) := by
  have same {old entry : JournalEntry} (was : event.before.state.journal = some old)
      (now : event.after.state.journal = some entry) (op : entry.op = old.op)
      (count : old.reloadAttempts ≤ entry.reloadAttempts) :
      opensJournal event = false ∧ ∀ entry, event.after.state.journal = some entry →
        ∃ old, event.before.state.journal = some old ∧
          old.reloadAttempts ≤ entry.reloadAttempts := by
    refine ⟨?_, fun other found => ?_⟩
    · simp [opensJournal, was, now, op]
    · cases now.symm.trans found
      exact ⟨old, was, count⟩
  have kept (unchanged : event.after.state.journal = event.before.state.journal) :
      opensJournal event = false ∧ ∀ entry, event.after.state.journal = some entry →
        ∃ old, event.before.state.journal = some old ∧
          old.reloadAttempts ≤ entry.reloadAttempts := by
    refine ⟨?_, fun entry found => ⟨entry, unchanged ▸ found, le_refl _⟩⟩
    simp [opensJournal, unchanged]
  rcases step.effect with unchanged | ⟨thread, op, reply, label, performed⟩
  · exact .inr (kept (by rw [unchanged]))
  · have issued := settled.1 thread op label
    cases serial_journal performed with
    | kept unchanged => exact .inr (kept unchanged)
    | written entry wrote successor now =>
        subst wrote
        obtain ⟨old, was, sameOp, count⟩ := issued successor
        exact .inr (same was now sameOp count)
    | closed entry phase was now => exact .inr (same was now rfl (le_refl _))
    | opened bound opening seq opens foreign ahead now =>
        subst opens
        have mine : opening.op = bound := issued
        refine .inl ?_
        simp only [opensJournal, now, Option.map_some, ne_eq, decide_not, Bool.not_eq_true',
          decide_eq_false_iff_not, mine]
        intro owned
        cases was : event.before.state.journal with
        | none => simp [was] at owned
        | some stale =>
            rw [was] at owned foreign
            exact absurd (Option.some.inj owned).symm (of_decide_eq_false foreign)

/-- The event is the write of the entry that counts one more signal. -/
structure Wins (event : Event (ServicePool dataplane ι) (Deed dataplane ι)) (thread : ι)
    (old : JournalEntry) : Prop where
  label : event.label = .attempted thread (.writeJournal (counted old))
  before : event.before.state.journal = some old
  after : event.after.state.journal = some (counted old)
  within : old.reloadAttempts < RELOAD_ATTEMPT_LIMIT

variable {thread : ι}

theorem wins_of_buys {event : Event (ServicePool dataplane ι) (Deed dataplane ι)} {o : AgentOp}
    {reply : o.Reply} {op : ApplyOperation} (label : event.label = .attempted thread o)
    (performed : serial o event.before.state = .ok (reply, event.after.state))
    (buys : reloadTariff.buys o event.before.state (.signalReload (.apply op))) :
    ∃ old, Wins event thread old ∧ old.op = op := by
  obtain ⟨old, was, -, within, rfl, same⟩ := buys
  obtain ⟨changed, mutated, pruned, -⟩ := serial_ok performed
  obtain ⟨-, -, -, rfl⟩ := Agent.writeJournal_ok mutated
  have after : event.after.state.journal = some (counted old) := by
    rw [pruned]
    rfl
  cases same
  exact ⟨old, ⟨label, was, after, within⟩, rfl⟩

theorem Wins.opensJournal {event : Event (ServicePool dataplane ι) (Deed dataplane ι)}
    {old : JournalEntry} (wins : Wins event thread old) : opensJournal event = false := by
  simp [Barycenter.Dp.opensJournal, wins.before, wins.after, counted]

variable [DecidableEq ι]

theorem signals_add {tally : Tally ι} {event : Event (ServicePool dataplane ι) (Deed dataplane ι)}
    (quiet : ∀ thread op, event.label ≠ .asked thread (.signalReload (.apply op))) :
    (tally.add event).signals = tally.signals := by
  -- the match takes its last branch by `quiet`
  simp only [Tally.add]

theorem lastAt_other {tally : Tally ι}
    {event : Event (ServicePool dataplane ι) (Deed dataplane ι)}
    (apart : event.label.thread ≠ thread) : (tally.add event).lastAt thread = tally.lastAt thread :=
  Function.update_of_ne apart.symm _ _

section

variable {past : ServicePool.History dataplane ι} {event : Event (ServicePool dataplane ι) (Deed dataplane ι)}
  {waiting : List (ι × Nat)} {wins : Nat → Nat}

theorem Account.won (account : Account past event.before.state waiting wins) {old : JournalEntry}
    (won : Wins event thread old) :
    Account (past ++ [event]) event.after.state
      ((thread, (tallyOf past).opened) :: waiting)
      (Function.update wins (tallyOf past).opened (wins (tallyOf past).opened + 1)) := by
  have opened : ((tallyOf past).add event).opened = (tallyOf past).opened := by
    simp [Tally.add, won.opensJournal]
  have mine : event.label.thread = thread := by rw [won.label]; rfl
  have signals := @signals_add _ _ (tallyOf past) event (by rw [won.label]; exact nofun)
  have counted := account.standing old won.before
  refine
    { balance := ?_
      limit := ?_
      unopened := ?_
      standing := ?_
      owed := ?_ }
  · intro number
    have balance := account.balance number
    rw [tallyOf_snoc, signals, List.countP_cons]
    by_cases here : (tallyOf past).opened = number
    · subst here
      simp only [Function.update_self, decide_true, if_true]
      omega
    · rw [Function.update_of_ne (Ne.symm here)]
      simpa [here] using balance
  · intro number
    by_cases here : number = (tallyOf past).opened
    · subst here
      rw [Function.update_self]
      have within := won.within
      omega
    · rw [Function.update_of_ne here]
      exact account.limit number
  · intro number later
    rw [tallyOf_snoc, opened] at later
    rw [Function.update_of_ne later.ne']
    exact account.unopened number later
  · intro entry found
    cases won.after.symm.trans found
    rw [tallyOf_snoc, opened, Function.update_self]
    exact Nat.succ_le_succ counted
  · intro other op bought
    rw [tallyOf_snoc]
    by_cases same : event.label.thread = other
    · have here : ((tallyOf past).add event).lastAt other = (tallyOf past).opened := by
        rw [← same, ← opened]
        exact Function.update_self _ _ _
      rw [here, ← same, mine]
      exact List.mem_cons_self
    · rw [lastAt_other same]
      rw [ServicePool.bought_snoc_other same] at bought
      exact List.mem_cons_of_mem _ (account.owed other op bought)

theorem Account.signalled (account : Account past event.before.state waiting wins)
    {op : ApplyOperation} (label : event.label = .asked thread (.signalReload (.apply op)))
    (unchanged : event.after.state = event.before.state)
    (bought : ServicePool.Bought reloadTariff past thread (.signalReload (.apply op))) :
    Account (past ++ [event]) event.after.state
      (waiting.erase (thread, (tallyOf past).lastAt thread)) wins := by
  have opened : ((tallyOf past).add event).opened = (tallyOf past).opened := by
    simp [Tally.add, opensJournal, unchanged]
  have mine : event.label.thread = thread := by rw [label]; rfl
  have paid := List.perm_cons_erase (account.owed thread op bought)
  refine
    { balance := ?_
      limit := account.limit
      unopened := ?_
      standing := ?_
      owed := ?_ }
  · intro number
    have balance := account.balance number
    rw [paid.countP_eq, List.countP_cons] at balance
    rw [tallyOf_snoc]
    simp only [Tally.add, label]
    by_cases here : (tallyOf past).lastAt thread = number
    · subst here
      simp only [decide_true, if_true] at balance
      rw [Function.update_self]
      omega
    · rw [Function.update_of_ne (Ne.symm here)]
      simpa [here] using balance
  · intro number later
    rw [tallyOf_snoc, opened] at later
    exact account.unopened number later
  · intro entry found
    rw [unchanged] at found
    rw [tallyOf_snoc, opened]
    exact account.standing entry found
  · intro other otherOp owed
    rw [tallyOf_snoc]
    by_cases same : event.label.thread = other
    · subst same
      obtain ⟨_, _, _, attempted, -⟩ := ServicePool.bought_snoc_self owed
      rw [label] at attempted
      cases attempted
    · rw [lastAt_other same]
      rw [ServicePool.bought_snoc_other same] at owed
      refine (List.mem_erase_of_ne ?_).mpr (account.owed other otherOp owed)
      rintro equal
      exact same (mine.trans (congrArg Prod.fst equal).symm)

theorem Account.other (account : Account past event.before.state waiting wins)
    (quiet : ∀ thread op, event.label ≠ .asked thread (.signalReload (.apply op)))
    (lost : ∀ thread old, ¬ Wins event thread old)
    (counts : opensJournal event = true ∨ (opensJournal event = false ∧
      ∀ entry, event.after.state.journal = some entry →
        ∃ old, event.before.state.journal = some old ∧
          old.reloadAttempts ≤ entry.reloadAttempts)) :
    Account (past ++ [event]) event.after.state waiting wins := by
  have signals := @signals_add _ _ (tallyOf past) event quiet
  have later : (tallyOf past).opened ≤ ((tallyOf past).add event).opened := by
    simp only [Tally.add]
    split
    · exact Nat.le_succ _
    · exact le_refl _
  refine
    { balance := ?_
      limit := account.limit
      unopened := ?_
      standing := ?_
      owed := ?_ }
  · intro number
    rw [tallyOf_snoc, signals]
    exact account.balance number
  · intro number ahead
    rw [tallyOf_snoc] at ahead
    exact account.unopened number (later.trans_lt ahead)
  · intro entry found
    rw [tallyOf_snoc]
    rcases counts with opens | ⟨kept, count⟩
    · have number : ((tallyOf past).add event).opened = (tallyOf past).opened + 1 := by
        simp [Tally.add, opens]
      rw [number, account.unopened _ (Nat.lt_succ_self _)]
      exact Nat.zero_le _
    · have number : ((tallyOf past).add event).opened = (tallyOf past).opened := by
        simp [Tally.add, kept]
      obtain ⟨old, was, fewer⟩ := count entry found
      rw [number]
      exact (account.standing old was).trans fewer
  · intro thread op bought
    rw [tallyOf_snoc]
    by_cases same : event.label.thread = thread
    · subst same
      obtain ⟨winner, o, reply, label, performed, buys⟩ := ServicePool.bought_snoc_self bought
      obtain ⟨old, won, -⟩ := wins_of_buys label performed buys
      exact absurd won (lost winner old)
    · rw [lastAt_other same]
      rw [ServicePool.bought_snoc_other same] at bought
      exact account.owed thread op bought

theorem Account.step (account : Account past event.before.state waiting wins)
    (step : ServicePool.Step event.before event.label event.after)
    (settled : ServicePool.Settled reloadTariff past event) :
    ∃ waiting wins, Account (past ++ [event]) event.after.state waiting wins := by
  by_cases won : ∃ thread old, Wins event thread old
  · obtain ⟨thread, old, won⟩ := won
    exact ⟨_, _, account.won won⟩
  by_cases signal : ∃ thread op, event.label = .asked thread (.signalReload (.apply op))
  · obtain ⟨thread, op, label⟩ := signal
    have unchanged : event.after.state = event.before.state := by
      rcases step.effect with same | ⟨_, _, _, attempted, -⟩
      · exact same
      · rw [label] at attempted
        cases attempted
    exact ⟨_, _, account.signalled label unchanged (settled.2 thread _ label ⟨op, rfl⟩)⟩
  · refine ⟨waiting, wins, account.other (fun thread op label => signal ⟨thread, op, label⟩)
      (fun thread old wins => won ⟨thread, old, wins⟩) (journal_counts step settled)⟩

end

/-! ## Every run -/

theorem driverPool_solvent (deployment : Deployment) (start : ι → DriverOp) :
    ServicePool.Solvent reloadTariff [] (driverPool deployment start) := by
  intro thread
  refine ⟨initial, .refl initial, ?_⟩
  have careful : Careful initial ((do
      let _ ← (start thread).program deployment
      return ()) : Program Unit) :=
    Careful.bind (DriverOp.careful (start thread)) fun _ => Careful.ok
  exact (careful _ initial (.refl initial)).mono fun _ _ _ => trivial

/-- **Reload budget.**  In every interleaving of driver operations, with any
answers of the effects. -/
theorem reload_budget {deployment : Deployment} {start : ι → DriverOp}
    {history : ServicePool.History dataplane ι} {final : ServicePool dataplane ι}
    (run : Follows ServicePool.Step (driverPool deployment start) history final) :
    ReloadBudget history := by
  have solvent := driverPool_solvent deployment start
  have settled := (solvent.run run reloadTariff_fair).1
  refine
    { counted := ?_
      within := ?_ }
  · intro earlier event later split thread op label
    obtain ⟨win, o, reply, last, attempted, performed, buys⟩ :=
      (settled earlier event later split).2 thread _ label ⟨op, rfl⟩
    obtain ⟨before, between, parts, others⟩ := ServicePool.split_of_lastOf last
    obtain ⟨old, won, same⟩ := wins_of_buys attempted performed buys
    exact ⟨before, win, between, old, parts, others, won.label, won.before, won.after, same,
      won.within⟩
  · have books : ServicePool.Solvent reloadTariff history final ∧
        ∃ waiting wins, Account history final.state waiting wins := by
      refine run.with_past (fun past pool => ServicePool.Solvent reloadTariff past pool ∧
        ∃ waiting wins, Account past pool.state waiting wins) ⟨solvent, [], fun _ => 0, ?_⟩ ?_
      · exact
          { balance := fun _ => le_refl _
            limit := fun _ => Nat.zero_le _
            unopened := fun _ _ => rfl
            standing := fun _ _ => Nat.zero_le _
            owed := fun _ _ ⟨_, _, _, last, _⟩ => nomatch last }
      · rintro past event - step ⟨before, waiting, wins, account⟩
        obtain ⟨owes, after⟩ := before.step reloadTariff_fair step
        exact ⟨after, account.step step owes⟩
    obtain ⟨-, waiting, wins, account⟩ := books
    intro number
    have balance := account.balance number
    have limit := account.limit number
    omega

/-- A deployment is cut behind its first reload, and a recovery takes it up. -/
def cutBehindReload : Bool → DriverOp
  | true =>
      .applyConfig (plainOperation
        { operationId := "deploy", transitionId := "t", leaderToken := 1 } 0 5)
  | false => .recoverConfig

/-- The two of them spend the budget, and not more. -/
theorem reload_budget_cutBehindReload :
    ∃ (history : ServicePool.History dataplane Bool) (final : ServicePool dataplane Bool),
      Follows ServicePool.Step (driverPool plainDeployment cutBehindReload) history final ∧
        (tallyOf history).signals 1 = RELOAD_ATTEMPT_LIMIT ∧ ReloadBudget history := by
  have executed : (execute (ServicePool.stepOf (plainAnswers .none none))
      (List.replicate 20 true ++ List.replicate 30 false)
      (driverPool plainDeployment cutBehindReload)).any
        (fun (history, _) => (tallyOf history).signals 1 = RELOAD_ATTEMPT_LIMIT) = true := by
    decide +kernel
  obtain ⟨⟨history, final⟩, performed, spent⟩ := (Option.any_eq_true _ _).mp executed
  have run := ServicePool.follows_of_stepOf performed
  exact ⟨history, final, run, of_decide_eq_true spent, reload_budget run⟩

end Barycenter.Dp
