import Mathlib.Data.List.Perm.Subperm
import Barycenter.Dp.AgentRecords
import Barycenter.Dp.AgentRuns
import Barycenter.Dp.Apply

/-!
# How far the durable state grows

Every write trims three ledgers.  The cached answers and the evidence keep a
window of the newest, and whatever somebody still asks for.  The record of a
finished transition goes once its epoch has been overtaken, which only the place
beside it tells; a takeover that stamps a transition as aborted writes no place,
so that record stays for ever.
-/

namespace Barycenter.Dp

open Outcome

/-! ## Windows -/

theorem length_le_window {α : Type} {all left : List α} {dropped : α → Bool} {window : Nat}
    (distinct : left.Nodup)
    (late : ∀ item ∈ left, item ∈ (all.filter dropped).drop (all.length - window)) :
    left.length ≤ window := by
  have fits := (distinct.subperm late).length_le
  have fewer := List.length_filter_le dropped all
  rw [List.length_drop] at fits
  omega

theorem mem_drop_of_not_mem_take {α : Type} {list : List α} {item : α} {count : Nat}
    (member : item ∈ list) (kept : item ∉ list.take count) : item ∈ list.drop count := by
  rw [← List.take_append_drop count list] at member
  exact (List.mem_append.mp member).resolve_left kept

theorem mem_transitionOrder {completed : OrderedMap String CompletedStep} {name : String} :
    name ∈ transitionOrder completed ↔
      ∃ step ∈ completed.values, step.transition = name := by
  have grows : ∀ (steps : List CompletedStep) (order : List String),
      name ∈ steps.foldl (fun order step =>
          if order.contains step.transition then order else order ++ [step.transition]) order ↔
        name ∈ order ∨ ∃ step ∈ steps, step.transition = name := by
    intro steps
    induction steps with
    | nil => simp
    | cons step rest induction =>
        intro order
        rw [List.foldl_cons, induction]
        by_cases known : order.contains step.transition
        · have present : step.transition ∈ order := List.contains_iff_mem.mp known
          rw [if_pos known]
          constructor
          · rintro (old | ⟨other, member, same⟩)
            · exact .inl old
            · exact .inr ⟨other, List.mem_cons_of_mem _ member, same⟩
          · rintro (old | ⟨other, member, rfl⟩)
            · exact .inl old
            · rcases List.mem_cons.mp member with rfl | later
              · exact .inl present
              · exact .inr ⟨other, later, rfl⟩
        · rw [if_neg known, List.mem_append, List.mem_singleton]
          constructor
          · rintro ((old | rfl) | ⟨other, member, same⟩)
            · exact .inl old
            · exact .inr ⟨step, List.mem_cons_self, rfl⟩
            · exact .inr ⟨other, List.mem_cons_of_mem _ member, same⟩
          · rintro (old | ⟨other, member, rfl⟩)
            · exact .inl (.inl old)
            · rcases List.mem_cons.mp member with rfl | later
              · exact .inl (.inr rfl)
              · exact .inr ⟨other, later, rfl⟩
  rw [transitionOrder, grows]
  simp

theorem transitionOrder_nodup (completed : OrderedMap String CompletedStep) :
    (transitionOrder completed).Nodup := by
  have kept : ∀ (steps : List CompletedStep) (order : List String), order.Nodup →
      (steps.foldl (fun order step =>
        if order.contains step.transition then order else order ++ [step.transition])
          order).Nodup := by
    intro steps
    induction steps with
    | nil => exact fun _ distinct => distinct
    | cons step rest induction =>
        intro order distinct
        rw [List.foldl_cons]
        apply induction
        by_cases known : order.contains step.transition
        · rw [if_pos known]
          exact distinct
        · rw [if_neg known]
          have fresh : step.transition ∉ order := fun member =>
            known (List.contains_iff_mem.mpr member)
          exact List.nodup_append.mpr ⟨distinct, List.nodup_singleton _, by
            rintro name member _ single rfl
            exact fresh (List.mem_singleton.mp single ▸ member)⟩
  exact kept completed.values [] List.nodup_nil

/-- The transitions with cached answers that are neither in progress nor in the
journal. -/
def idleGroups (s : AgentState) : List String :=
  (transitionOrder s.completed).filter fun name => !(keptTransitions s).contains name

/-- The coordinates with evidence at which no plane stands. -/
def passedEvidence (s : AgentState) : List String :=
  s.activationEvidence.keys.filter fun name => !(standingKeys s).contains name

theorem prune_completed_get? (s : AgentState) (name : String) :
    (prune s).completed.get? name =
      if (s.completed.get? name).any fun step =>
          ((idleGroups s).take
            ((transitionOrder s.completed).length - COMPLETED_RETENTION)).contains step.transition
      then none
      else s.completed.get? name :=
  OrderedMap.get?_without _ _ _

theorem idleGroups_prune_length (s : AgentState) :
    (idleGroups (prune s)).length ≤ COMPLETED_RETENTION := by
  have distinct : (idleGroups (prune s)).Nodup := (transitionOrder_nodup _).filter _
  refine @length_le_window _ (transitionOrder s.completed) _
    (fun name => !(keptTransitions s).contains name) _ distinct ?_
  intro name member
  obtain ⟨remaining, idle⟩ := List.mem_filter.mp member
  obtain ⟨step, value, rfl⟩ := mem_transitionOrder.mp remaining
  obtain ⟨key, found⟩ := OrderedMap.mem_values_iff.mp value
  rw [prune_completed_get?] at found
  split at found
  · cases found
  · rename_i spared
    rw [found, Option.any_some, List.contains_iff_mem] at spared
    have old : step.transition ∈ transitionOrder s.completed :=
      mem_transitionOrder.mpr ⟨step, OrderedMap.mem_values_iff.mpr ⟨key, found⟩, rfl⟩
    exact mem_drop_of_not_mem_take (List.mem_filter.mpr ⟨old, idle⟩) spared

theorem passedEvidence_prune_length (s : AgentState) :
    (passedEvidence (prune s)).length ≤ EVIDENCE_RETENTION := by
  have distinct : (passedEvidence (prune s)).Nodup :=
    (prune s).activationEvidence.distinct.filter _
  refine @length_le_window _ s.activationEvidence.keys _
    (fun name => !(standingKeys s).contains name) _ distinct ?_
  intro name member
  obtain ⟨remaining, passed⟩ := List.mem_filter.mp member
  obtain ⟨evidence, found⟩ := OrderedMap.mem_keys_iff.mp remaining
  have found : (s.activationEvidence.without _).get? name = some evidence := found
  rw [OrderedMap.get?_without] at found
  split at found
  · cases found
  · rename_i spared
    rw [List.contains_iff_mem] at spared
    have old : name ∈ s.activationEvidence.keys := OrderedMap.mem_keys_iff.mpr ⟨evidence, found⟩
    exact mem_drop_of_not_mem_take (List.mem_filter.mpr ⟨old, passed⟩) spared

/-- What trimming leaves alone: what the path and the journal ask for, what the
state still points at, and the evidence of the standing coordinates. -/
structure Spared (s next : AgentState) : Prop where
  completed : ∀ name step, s.completed.get? name = some step →
    step.transition ∈ keptTransitions s → next.completed.get? name = some step
  terminal : ∀ name ∈ liveTransitionKeys s,
    next.terminal.get? name = s.terminal.get? name
  evidence : ∀ name ∈ standingKeys s,
    next.activationEvidence.get? name = s.activationEvidence.get? name

theorem prune_spares (s : AgentState) : Spared s (prune s) := by
  constructor
  case completed =>
    intro name step found live
    rw [prune_completed_get?, found, Option.any_some, if_neg]
    intro dropped
    have late := List.mem_of_mem_take (List.contains_iff_mem.mp dropped)
    have idle := (List.mem_filter.mp late).2
    rw [List.contains_iff_mem.mpr live] at idle
    cases idle
  case terminal =>
    intro name live
    change (s.terminal.without _).get? name = _
    rw [OrderedMap.get?_without, if_neg]
    intro prunable
    have live : (liveTransitionKeys s).contains name = true := List.contains_iff_mem.mpr live
    have prunable : terminalPrunable (s.terminalAt.get? name) s name (liveTransitionKeys s) =
      true := prunable
    simp only [terminalPrunable, live, Bool.not_true] at prunable
    split at prunable
    · cases prunable
    · split at prunable
      · cases prunable
      · split at prunable <;> cases prunable
  case evidence =>
    intro name standing
    obtain ⟨plane, -, rfl⟩ := List.mem_map.mp standing
    exact prune_standingEvidence rfl

/-! ## Where a transition ended -/

/-- The place at which an operation ends the transition of a name. -/
def AgentOp.endOf (s : AgentState) (name : String) : AgentOp → Option TerminalPlace
  | .abort op | .fail op | .commit op _ =>
      if transitionKey op.identity op.plane = name then
        some { plane := op.plane, epoch := op.target.activationEpoch }
      else none
  | .reserveAll _ _ =>
      s.journal.bind fun stale =>
        (Plane.all.find? fun plane => transitionKey stale.op.identity plane = name).bind
          fun plane => ((epochsOf stale.op).get plane).map fun epoch =>
            { plane := plane, epoch := epoch }
  | _ => none

/-- Where the transition of a name ended the last time its record appeared. -/
def endedAt (history : AgentHistory) (name : String) : Option TerminalPlace :=
  history.foldl (fun known event =>
    if (event.before.terminal.get? name).isNone && (event.after.terminal.get? name).isSome then
      event.label.endOf event.before name
    else known) none

@[simp] theorem endedAt_nil (name : String) : endedAt [] name = none := rfl

theorem endedAt_snoc (past : AgentHistory) (event : Event AgentState AgentOp) (name : String) :
    endedAt (past ++ [event]) name =
      if (event.before.terminal.get? name).isNone && (event.after.terminal.get? name).isSome then
        event.label.endOf event.before name
      else endedAt past name := by
  simp [endedAt]

/-- The durable state stays small: a window of each ledger and what is live, and
no record of a transition that was overtaken and that nothing points at. -/
structure LedgersBounded (history : AgentHistory) (final : AgentState) : Prop where
  completed : (idleGroups final).length ≤ COMPLETED_RETENTION
  evidence : (passedEvidence final).length ≤ EVIDENCE_RETENTION
  terminal : ∀ name how place, final.terminal.get? name = some how →
    endedAt history name = some place →
    place.epoch < (final.planes.get place.plane).activationEpoch →
    name ∈ liveTransitionKeys final
  spared : ∀ event ∈ history, ∃ reply changed,
    event.label.mutate event.before = .ok (reply, changed) ∧ event.after = prune changed ∧
      Spared changed event.after

/-- The operation keeps the books: it takes over no journal with a plane that
has not ended, and moves no plane past a reservation that still stands. -/
def bookkept (s : AgentState) : AgentOp → Bool
  | .reserveAll op (some _) =>
      s.journal.all fun stale =>
        ownsJournal s.journal op || isTerminalPhase stale.phase ||
          (planesOf stale.op).all fun plane =>
            (terminalOf s stale.op.identity plane).isSome ||
              ((planesOf op).map (transitionKey op.identity)).contains
                (transitionKey stale.op.identity plane)
  | .commit op _ =>
      (s.reservations.get op.plane).keys.all fun epoch =>
        decide (op.target.activationEpoch ≤ epoch)
  | _ => true

/-! ## What an operation writes about an ending -/

/-- The record of every name is the old one, or a new one with its place. -/
def EndingsFrom (s : AgentState) (o : AgentOp) (next : AgentState) : Prop :=
  ∀ name, (next.terminal.get? name = s.terminal.get? name ∧
      next.terminalAt.get? name = s.terminalAt.get? name) ∨
    (s.terminal.get? name = none ∧ ∃ place,
      o.endOf s name = some place ∧ next.terminalAt.get? name = some place)

variable {s next : AgentState}

theorem EndingsFrom.of_same {o : AgentOp} (terminal : next.terminal = s.terminal)
    (places : next.terminalAt = s.terminalAt) : EndingsFrom s o next :=
  fun name => .inl ⟨by rw [terminal], by rw [places]⟩

variable {s : AgentState}

theorem finish_endingsFrom {o : AgentOp} (before : AgentState) {op : OperationTuple}
    {how : TerminalKind} (terminal : before.terminal = s.terminal)
    (places : before.terminalAt = s.terminalAt)
    (unended : terminalOf s op.identity op.plane = none)
    (ends : o.endOf s (transitionKey op.identity op.plane) =
      some { plane := op.plane, epoch := op.target.activationEpoch }) :
    EndingsFrom s o (finish before op how) := by
  intro name
  by_cases here : transitionKey op.identity op.plane = name
  · subst here
    exact .inr ⟨(terminalOf_eq_none.mp unended).1, _, ends, by simp [finish]⟩
  · refine .inl ⟨?_, ?_⟩
    · simp only [finish, OrderedMap.get?_set, here, if_false, terminal]
    · simp only [finish, OrderedMap.get?_set, here, if_false, places]

theorem finalize_endingsFrom {o : AgentOp} {op : OperationTuple} {how : TerminalKind}
    (finalized : finalize s op how = .ok next)
    (ends : o.endOf s (transitionKey op.identity op.plane) =
      some { plane := op.plane, epoch := op.target.activationEpoch }) : EndingsFrom s o next := by
  obtain ⟨-, cases⟩ := Agent.finalize_ok finalized
  rcases cases with ⟨-, rfl⟩ | ⟨unended, rfl⟩
  · exact .of_same rfl rfl
  · exact finish_endingsFrom _ rfl rfl unended ends

theorem sweepOrphan_silent {op : ApplyOperation} {tuples : List OperationTuple}
    {opening : JournalOpening} (extracted : Agent.tuplesOf op = .ok tuples)
    (kept : bookkept s (.reserveAll op (some opening)) = true)
    (swept : Agent.sweepOrphan op tuples (some opening) s = .ok next) :
    next.terminal = s.terminal := by
  cases journal : s.journal with
  | none =>
      simp only [Agent.sweepOrphan, journal, Except.ok.injEq] at swept
      rw [swept]
  | some stale =>
      simp only [bookkept, journal, Option.all_some] at kept
      simp only [Agent.sweepOrphan, journal] at swept
      rcases choice_ok.mp swept with ⟨-, answered⟩ | ⟨orphaned, answered⟩
      · simp only [Except.ok.injEq] at answered
        rw [answered]
      · rw [Bool.not_eq_true] at orphaned
        rw [orphaned, Bool.false_or] at kept
        simp only [bind_ok, Prod.exists, pure, Except.pure, Except.ok.injEq] at answered
        obtain ⟨replies, stamped, stamping, staleTuples, -, rfl⟩ := answered
        have still : stamped = s := by
          refine traverse_preserves (fun current => current = s) ?_ rfl stamping
          rintro plane member current reply later rfl step
          rcases Agent.stampOrphan_ok step with same | ⟨unended, foreign, -⟩
          · exact same
          · have covered := List.all_eq_true.mp kept plane member
            rw [unended, Option.isSome_none, Bool.false_or, List.contains_iff_mem,
              ← (Agent.tuplesOf_ok extracted).1, List.map_map] at covered
            obtain ⟨tuple, member, same⟩ := List.mem_map.mp covered
            have who := tupleFor_identity ((Agent.tuplesOf_ok extracted).2 tuple member)
            exact absurd (List.mem_map.mpr ⟨tuple, member, by rw [who]; exact same⟩) foreign
        rw [still]
        rfl

theorem mutate_endingsFrom {o : AgentOp} {reply : o.Reply}
    (mutated : o.mutate s = .ok (reply, next)) (kept : bookkept s o = true) :
    EndingsFrom s o next := by
  cases o with
  | reserveAll op opening =>
      obtain ⟨tuples, swept, taken, extracted, -, -, -, sweeping, walked, rfl⟩ :=
        Agent.reserveAll_ok mutated
      obtain ⟨_, _, _, -, rfl⟩ := Agent.reserves_only walked
      obtain ⟨journal, opened⟩ := Agent.openJournal_only op opening _
      rw [opened]
      have places := sweepOrphan_places sweeping
      have terminal : swept.terminal = s.terminal := by
        cases opening with
        | none =>
            rcases Agent.sweepOrphan_ok sweeping with ⟨-, rfl⟩ | ⟨_, _, _, opened, -⟩
            · rfl
            · cases opened
        | some first => exact sweepOrphan_silent extracted kept sweeping
      exact .of_same terminal places
  | reserve op =>
      obtain ⟨_, _, _, -, rfl⟩ := Agent.reserve_only mutated
      exact .of_same rfl rfl
  | stage op =>
      obtain ⟨_, _, _, -, rfl⟩ := Agent.stage_only mutated
      exact .of_same rfl rfl
  | commit op evidence =>
      obtain ⟨-, -, cases⟩ := Agent.commit_ok mutated
      rcases cases with ⟨-, rfl⟩ | ⟨-, -, -, rfl⟩ | ⟨fresh, -, -, -, rfl⟩
      · exact .of_same rfl rfl
      · exact .of_same rfl rfl
      · exact @finish_endingsFrom s (.commit op evidence)
          (Agent.place (s.raise op.leaderToken) op evidence) op .activated rfl rfl fresh.2
          (if_pos rfl)
  | abort op => exact finalize_endingsFrom (Agent.abort_ok mutated) (if_pos rfl)
  | release op =>
      obtain ⟨-, cases⟩ := Agent.release_ok mutated
      rcases cases with ⟨-, rfl⟩ | ⟨-, rfl⟩ <;> exact .of_same rfl rfl
  | fail op => exact finalize_endingsFrom (Agent.fail_ok mutated) (if_pos rfl)
  | applyHealth op =>
      obtain ⟨-, -, cases⟩ := Agent.applyHealth_ok mutated
      rcases cases with ⟨-, rfl⟩ | ⟨-, -, -, rfl⟩ <;> exact .of_same rfl rfl
  | _ =>
      have books := mutate_clerical mutated rfl
      exact .of_same books.terminal books.terminalAt

/-! ## Along a run -/

def SlotsAhead (s : AgentState) : Prop :=
  ∀ plane epoch, s.slot plane epoch ≠ none → (s.planes.get plane).activationEpoch ≤ epoch

theorem slotsAhead_initial : SlotsAhead initial := by
  intro plane epoch found
  cases plane <;> simp [initial, AgentState.slot, PerPlane.get] at found

theorem slotsAhead_step {before after : AgentState} {o : AgentOp}
    (step : AgentStep before o after) (kept : bookkept before o = true)
    (ahead : SlotsAhead before) : SlotsAhead after := by
  obtain ⟨reply, succeeded⟩ := step
  intro plane epoch found
  have change := serial_planes succeeded plane
  obtain ⟨changed, mutated, rfl, -⟩ := serial_ok succeeded
  obtain ⟨slot, found⟩ := Option.ne_none_iff_exists'.mp found
  have standing : (before.planes.get plane).activationEpoch ≤ epoch ∧
      (before.slot plane epoch ≠ none ∨ ∀ op evidence, o ≠ .commit op evidence) := by
    rcases mutate_slotsFrom mutated plane epoch slot found with
      ⟨old, oldFound, -⟩ | ⟨-, -, -, forward, -, -⟩
    · have held : before.slot plane epoch ≠ none := by simp [oldFound]
      exact ⟨ahead plane epoch held, .inl held⟩
    · refine ⟨forward.le, ?_⟩
      by_cases held : before.slot plane epoch = none
      · refine .inr ?_
        rintro op evidence rfl
        -- a commit takes no slot
        obtain ⟨-, -, cases⟩ := Agent.commit_ok mutated
        rcases cases with ⟨-, rfl⟩ | ⟨-, -, -, rfl⟩ | ⟨-, -, -, -, rfl⟩
        · exact absurd found (by simp [held])
        · have found : before.slot plane epoch = some slot := found
          exact absurd found (by simp [held])
        · have freed := freed_withoutOwnSlot
            (Agent.place (before.raise op.leaderToken) op evidence) op
          have found : before.slot plane epoch = some slot := (freed.slot_of_slot found).1
          exact absurd found (by simp [held])
      · exact .inl held
  cases change with
  | kept same =>
      rw [same]
      exact standing.1
  | entered op evidence _ committed here moves placed =>
      subst committed here
      rw [placed]
      rcases standing.2 with held | other
      · obtain ⟨old, oldFound⟩ := Option.ne_none_iff_exists'.mp held
        exact of_decide_eq_true (List.all_eq_true.mp kept epoch
          (OrderedMap.mem_keys_iff.mpr ⟨old, oldFound⟩))
      · exact absurd rfl (other op evidence)
  | revised op _ here revises changed =>
      subst here
      rw [changed]
      exact revises.sameEpoch.trans_le standing.1

/-- The state owns up to where the transitions of its records ended. -/
def PlacesKnown (past : AgentHistory) (s : AgentState) : Prop :=
  ∀ name, s.terminal.get? name ≠ none → s.terminalAt.get? name = endedAt past name

theorem prune_record {name : String} (left : (prune s).terminal.get? name ≠ none) :
    (prune s).terminal.get? name = s.terminal.get? name ∧
      (prune s).terminalAt.get? name = s.terminalAt.get? name ∧
      terminalPrunable (s.terminalAt.get? name) s name (liveTransitionKeys s) = false := by
  have record : (prune s).terminal.get? name =
      if terminalPrunable (s.terminalAt.get? name) s name (liveTransitionKeys s) = true then none
      else s.terminal.get? name := OrderedMap.get?_without _ _ _
  have place : (prune s).terminalAt.get? name =
      if ((s.terminal.get? name).isNone ||
        terminalPrunable (s.terminalAt.get? name) s name (liveTransitionKeys s)) = true then none
      else s.terminalAt.get? name := OrderedMap.get?_without _ _ _
  rw [record] at left
  by_cases prunable :
      terminalPrunable (s.terminalAt.get? name) s name (liveTransitionKeys s) = true
  · rw [if_pos prunable] at left
    exact absurd rfl left
  · rw [if_neg prunable] at left record
    rw [Bool.not_eq_true] at prunable
    obtain ⟨how, found⟩ := Option.ne_none_iff_exists'.mp left
    refine ⟨record, ?_, prunable⟩
    rw [place, found, prunable]
    rfl

theorem placesKnown_step {past : AgentHistory} {event : Event AgentState AgentOp}
    (step : AgentStep event.before event.label event.after)
    (kept : bookkept event.before event.label = true)
    (known : PlacesKnown past event.before) :
    PlacesKnown (past ++ [event]) event.after := by
  obtain ⟨reply, succeeded⟩ := step
  obtain ⟨changed, mutated, pruned, -⟩ := serial_ok succeeded
  intro name left
  rw [pruned] at left
  obtain ⟨record, place, -⟩ := prune_record left
  have appeared : (event.after.terminal.get? name).isSome = true := by
    rw [pruned]
    exact Option.isSome_iff_ne_none.mpr left
  rw [endedAt_snoc, appeared, Bool.and_true, pruned, place]
  rcases mutate_endingsFrom mutated kept name with ⟨same, samePlace⟩ | ⟨fresh, at_, ends, here⟩
  · have old : event.before.terminal.get? name ≠ none := by
      rw [← same, ← record]
      exact left
    rw [if_neg (by simpa using old), samePlace]
    exact known name old
  · rw [if_pos (by rw [fresh]; rfl), here, ends]

theorem record_live (ahead : SlotsAhead s) {name : String} {place : TerminalPlace}
    (placed : s.terminalAt.get? name = some place)
    (kept : terminalPrunable (s.terminalAt.get? name) s name (liveTransitionKeys s) = false)
    (overtaken : place.epoch < (s.planes.get place.plane).activationEpoch) :
    name ∈ liveTransitionKeys s := by
  have free : (s.slot place.plane place.epoch).isSome = false := by
    by_contra taken
    have taken : s.slot place.plane place.epoch ≠ none := by
      simpa using taken
    exact absurd (ahead _ _ taken) (Nat.not_le.mpr overtaken)
  simp only [terminalPrunable, placed, if_neg (Nat.not_le.mpr overtaken), free] at kept
  simpa using kept

/-- **Bounded ledgers.**  Along a run that takes over no journal with a plane
that has not ended, and passes no reservation that stands. -/
theorem ledgers_bounded {history : AgentHistory} {final : AgentState}
    (run : AgentRun history final)
    (kept : ∀ event ∈ history, bookkept event.before event.label = true) :
    LedgersBounded history final := by
  have ahead : SlotsAhead final := Follows.invariant_along SlotsAhead run slotsAhead_initial
    fun event member step => slotsAhead_step step (kept event member)
  have trimmed : final = initial ∨ ∃ changed, final = prune changed := by
    refine Follows.invariant (fun s => s = initial ∨ ∃ changed, s = prune changed) run
      (.inl rfl) ?_
    rintro before o after ⟨reply, succeeded⟩ -
    obtain ⟨changed, -, pruned, -⟩ := serial_ok succeeded
    exact .inr ⟨changed, pruned⟩
  have known : PlacesKnown history final := by
    refine Follows.with_past PlacesKnown run (fun name left => absurd rfl left) ?_
    exact fun past event member step => placesKnown_step step (kept event member)
  refine
    { completed := ?_
      evidence := ?_
      terminal := ?_
      spared := ?_ }
  · rcases trimmed with rfl | ⟨changed, rfl⟩
    · decide
    · exact idleGroups_prune_length changed
  · rcases trimmed with rfl | ⟨changed, rfl⟩
    · decide
    · exact passedEvidence_prune_length changed
  · intro name how place found ended overtaken
    have left : final.terminal.get? name ≠ none := by simp [found]
    have placed := (known name left).trans ended
    rcases trimmed with rfl | ⟨changed, rfl⟩
    · cases found
    · obtain ⟨-, samePlace, unpruned⟩ := prune_record left
      rw [samePlace] at placed
      exact @record_live changed ahead name place placed unpruned overtaken
  · intro event member
    obtain ⟨⟨reply, succeeded⟩, -⟩ := @Follows.at_events _ _ _ _ _ _ (fun _ => True) run trivial
      (fun _ _ _ _ _ => trivial) event member
    obtain ⟨changed, mutated, pruned, -⟩ := serial_ok succeeded
    refine ⟨reply, changed, mutated, pruned, ?_⟩
    rw [pruned]
    exact prune_spares changed

/-- A transition and the next one are carried through on one plane. -/
def takingTurns : List AgentOp :=
  let turn (name : String) (token current target : Nat) : List AgentOp :=
    let who : Identity := { operationId := name, transitionId := "t", leaderToken := token }
    let op := plainTuple who .http current target
    [.reserve op, .stage op, .commit op (plainEvidence target)]
  turn "first" 1 0 1 ++ turn "second" 1 1 2

/-- The record of the first transition is gone in the end. -/
theorem ledgers_bounded_takingTurns :
    ∃ history final, AgentRun history final ∧ history.map Event.label = takingTurns ∧
      LedgersBounded history final ∧ final.terminal.keys = ["second:t:1:http"] := by
  obtain ⟨history, final, run, labels, checked⟩ := exists_run_of_performAll takingTurns
    (fun history final => history.all (fun event => bookkept event.before event.label) &&
      final.terminal.keys = ["second:t:1:http"])
    (by decide +kernel)
  rw [Bool.and_eq_true, List.all_eq_true, decide_eq_true_eq] at checked
  exact ⟨history, final, run, labels, ledgers_bounded run checked.1, checked.2⟩

/-- An operation is issued again under a newer token, and goes on. -/
def issuedAgain : List AgentOp :=
  let older : Identity := { operationId := "apply", transitionId := "t", leaderToken := 1 }
  let newer : Identity := { older with leaderToken := 2 }
  let first := plainOperation older 0 1
  let second := plainOperation newer 0 2
  let http := plainTuple newer .http 0 2
  [.reserveAll first (some (Runner.openingOf first)),
    .reserveAll second (some (Runner.openingOf second)),
    .stage http, .commit http (plainEvidence 2)]

/-- The record that the takeover stamped is never trimmed. -/
theorem issued_again_leaks :
    ∃ history final, AgentRun history final ∧ history.map Event.label = issuedAgain ∧
      ¬ LedgersBounded history final := by
  obtain ⟨history, final, run, labels, checked⟩ := exists_run_of_performAll issuedAgain
    (fun history final =>
      final.terminal.get? "apply:t:1:http" = some .aborted &&
        endedAt history "apply:t:1:http" = some { plane := .http, epoch := 1 } &&
        (final.planes.get .http).activationEpoch = 2 &&
        !(liveTransitionKeys final).contains "apply:t:1:http")
    (by decide +kernel)
  simp only [Bool.and_eq_true, decide_eq_true_eq, Bool.not_eq_true'] at checked
  obtain ⟨⟨⟨found, ended⟩, standing⟩, idle⟩ := checked
  refine ⟨history, final, run, labels, fun bounded => ?_⟩
  have live := bounded.terminal _ _ _ found ended (by rw [standing]; decide)
  rw [List.contains_iff_mem.mpr live] at idle
  cases idle

end Barycenter.Dp
