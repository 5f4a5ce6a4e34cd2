import Barycenter.Api.ChangesetEdits

/-!
# Lost updates under If-Match

The tag of a changeset is compared before the operations are appended, and the
update that appends them does not look at it again.  So the tag is still right
at the update exactly when the changeset was open at the comparison and no
other step has appended to it since; and a tag that was used once is used up
only if some operation was appended with it.
-/

namespace Barycenter

namespace Api

open Store

section Statements

variable (ctx : EditContext)

/-- A request with a specific tag has appended its operations in this event. -/
structure Appended (event : EditEvent) (call : Nat) (request : PatchRequest)
    (etag : String) : Prop where
  step : event.label = .append call
  done : event.after.edits.get? call = some ⟨request, .appended⟩
  conditional : request.ifMatch = some etag
  specific : etag ≠ "*"

def EditStep.call : EditStep → Option Nat
  | .store _ => none
  | .receive call _ => some call
  | .append call => some call
  | .explain call => some call
  | .record call _ => some call

def Untouched (history : List EditEvent) (call : Nat) : Prop :=
  ∀ event ∈ history, event.label.call = some call → event.after.store = event.before.store

structure NoLostUpdate (history : List EditEvent) (final : EditWorld) : Prop where
  matched : ∀ event ∈ history, ∀ call request etag, Appended event call request etag →
    ∃ row, event.before.row request.changesetId = some row ∧
      changesetEtag ctx row.patch row.state = etag
  single : history.Pairwise fun first second =>
    ∀ call request other later etag, Appended first call request etag →
      Appended second other later etag → request.changesetId ≠ later.changesetId
  refused : ∀ call request error,
    final.edits.get? call = some ⟨request, .answered (.error (.store error))⟩ →
      Untouched history call

/-- No two representations that occur in the run have the same tag. -/
def TagsDiffer (history : List EditEvent) : Prop :=
  ∀ first ∈ history, ∀ second ∈ history, ∀ changesetId old new,
    first.before.row changesetId = some old → second.before.row changesetId = some new →
    changesetEtag ctx old.patch old.state = changesetEtag ctx new.patch new.state →
      old.patch = new.patch ∧ old.state = new.state

/-- The update of a checked request with a specific tag is about to succeed. -/
structure Lands (event : EditEvent) (call : Nat) (request : PatchRequest) (etag : String)
    (ops : List PatchOp) (row : ChangesetRow) : Prop where
  step : event.label = .append call
  waiting : event.before.edits.get? call = some ⟨request, .checked⟩
  conditional : request.ifMatch = some etag
  specific : etag ≠ "*"
  fit : checkedOps ctx request = .ok ops
  stored : event.before.row request.changesetId = some row
  appendable : Appendable row ops

def patchOf (changesetId : String) (world : EditWorld) : Option (List PatchOp) :=
  (world.row changesetId).map ChangesetRow.patch

/-- A conditional request was compared with an open changeset, to which nothing
was appended until its own update; and an earlier request with its tag carried
operations. -/
structure Guarded (history : List EditEvent) : Prop where
  still : ∀ past check between land later, history = past ++ check :: (between ++ land :: later) →
    ∀ call request etag ops row, check.label = .receive call request →
      Lands ctx land call request etag ops row →
        (∃ read, check.before.row request.changesetId = some read ∧ read.state = .opened) ∧
        ∀ event ∈ between,
          patchOf request.changesetId event.after = patchOf request.changesetId event.before
  carried : history.Pairwise fun first second =>
    ∀ call request other later etag ops moreOps row next,
      Lands ctx first call request etag ops row →
      Lands ctx second other later etag moreOps next →
      request.changesetId = later.changesetId → ops ≠ []

end Statements

section Steps

variable {ctx : EditContext} {before after : EditWorld}

/-- A request that waits for its update was received, and passed its comparison. -/
def Received (ctx : EditContext) (past : List EditEvent) (world : EditWorld) : Prop :=
  ∀ call request, world.edits.get? call = some ⟨request, .checked⟩ →
    ∃ earlier check between, past = earlier ++ check :: between ∧
      check.label = .receive call request ∧ received ctx check.before request = .checked

variable {call : Nat}

theorem get?_become {world : EditWorld} {edit : Edit} {other : Nat} :
    (world.become call edit).edits.get? other =
      if call = other then some edit else world.edits.get? other := by
  simp [EditWorld.become, OrderedMap.get?_set]

variable {request : PatchRequest} {step : EditStep}

theorem stage_step {stage : Stage}
    (stepped : editStep ctx before step = some after)
    (known : before.edits.get? call = some ⟨request, stage⟩) :
    ∃ next, after.edits.get? call = some ⟨request, next⟩ ∧
      (next = .checked → stage = .checked) := by
  have unchanged : ∃ next, before.edits.get? call = some ⟨request, next⟩ ∧
      (next = .checked → stage = .checked) := ⟨stage, known, id⟩
  cases editStep_effect stepped with
  | stored _ => exact unchanged
  | received free =>
      rename_i moved _
      have different : moved ≠ call := by
        rintro rfl
        rw [free] at known
        cases known
      rw [get?_become, if_neg different]
      exact unchanged
  | explained waiting | recorded waiting =>
      rw [get?_become]
      split
      · next same =>
          subst same
          obtain ⟨rfl, rfl⟩ := Edit.mk.inj (Option.some.inj (waiting.symm.trans known))
          exact ⟨_, rfl, fun waits => by cases waits⟩
      · exact unchanged
  | appended waiting appending =>
      rename_i moved other
      by_cases same : moved = call
      · subst same
        obtain ⟨rfl, rfl⟩ := Edit.mk.inj (Option.some.inj (waiting.symm.trans known))
        cases appending with
        | appended _ _ _ => exact ⟨.appended, by rw [get?_become, if_pos rfl], fun _ => rfl⟩
        | left _ => exact ⟨_, by rw [get?_become, if_pos rfl], fun _ => rfl⟩
      · cases appending with
        | appended _ _ _ | left _ =>
            rw [get?_become, if_neg same]
            exact unchanged

theorem checked_step (stepped : editStep ctx before step = some after)
    (waiting : after.edits.get? call = some ⟨request, .checked⟩) :
    before.edits.get? call = some ⟨request, .checked⟩ ∨
      step = .receive call request ∧ received ctx before request = .checked := by
  cases editStep_effect stepped with
  | stored _ => exact .inl waiting
  | received _ =>
      rename_i moved other _
      rw [get?_become] at waiting
      split at waiting
      · next same =>
          subst same
          obtain ⟨rfl, checked⟩ := Edit.mk.inj (Option.some.inj waiting)
          exact .inr ⟨rfl, checked⟩
      · exact .inl waiting
  | explained _ | recorded _ =>
      rw [get?_become] at waiting
      split at waiting
      · cases waiting
      · exact .inl waiting
  | appended _ appending =>
      cases appending with
      | appended _ _ _ =>
          rw [get?_become] at waiting
          split at waiting
          · cases waiting
          · exact .inl waiting
      | left different =>
          rw [get?_become] at waiting
          split at waiting
          · obtain ⟨-, same⟩ := Edit.mk.inj (Option.some.inj waiting)
            exact absurd same different.1
          · exact .inl waiting

variable {event : EditEvent}

theorem received_append {past : List EditEvent}
    (stepped : editStep ctx event.before event.label = some event.after)
    (known : Received ctx past event.before) :
    Received ctx (past ++ [event]) event.after := by
  intro call request waiting
  rcases checked_step stepped waiting with before | ⟨label, checked⟩
  · obtain ⟨earlier, check, between, rfl, label, checked⟩ := known call request before
    exact ⟨earlier, check, between ++ [event], by simp, label, checked⟩
  · exact ⟨past, event, [], by simp, label, checked⟩

/-- The stages that a request reaches without having changed the store. -/
def Quiet : Option Edit → Prop
  | none => True
  | some ⟨_, .checked⟩ => True
  | some ⟨_, .missed _⟩ => True
  | some ⟨_, .answered (.error (.store _))⟩ => True
  | _ => False

theorem quiet_step
    (stepped : editStep ctx before step = some after) (quiet : Quiet (after.edits.get? call)) :
    Quiet (before.edits.get? call) ∧ (step.call = some call → after.store = before.store) := by
  cases editStep_effect stepped with
  | stored _ => exact ⟨quiet, nofun⟩
  | received free =>
      refine ⟨?_, fun _ => rfl⟩
      rw [get?_become] at quiet
      split at quiet
      · next same =>
          subst same
          rw [free]
          trivial
      · exact quiet
  | explained waiting =>
      refine ⟨?_, fun _ => rfl⟩
      rw [get?_become] at quiet
      split at quiet
      · next same =>
          subst same
          rw [waiting]
          trivial
      · exact quiet
  | recorded _ =>
      rename_i inserted _
      refine ⟨?_, fun _ => rfl⟩
      rw [get?_become] at quiet
      split at quiet
      · cases inserted <;> exact quiet.elim
      · exact quiet
  | appended waiting appending =>
      cases appending with
      | appended _ _ _ =>
          rw [get?_become] at quiet
          split at quiet
          · exact quiet.elim
          · next different => exact ⟨quiet, fun own => absurd (Option.some.inj own) different⟩
      | left _ =>
          refine ⟨?_, fun _ => rfl⟩
          rw [get?_become] at quiet
          split at quiet
          · next same =>
              subst same
              rw [waiting]
              trivial
          · exact quiet

variable {etag : String}

theorem appended_of_lands {ops : List PatchOp} {row : ChangesetRow}
    (stepped : editStep ctx event.before event.label = some event.after)
    (lands : Lands ctx event call request etag ops row) :
    Appended event call request etag ∧
      event.after.row request.changesetId = some { row with patch := row.patch ++ ops } := by
  have after : event.after =
      (event.before.withRow request.changesetId { row with patch := row.patch ++ ops }).become
        call ⟨request, .appended⟩ := by
    rw [lands.step] at stepped
    simp only [editStep, lands.waiting, appending, lands.fit, lands.stored, lands.appendable,
      if_true, Option.some.injEq] at stepped
    exact stepped.symm
  refine ⟨⟨lands.step, ?_, lands.conditional, lands.specific⟩, ?_⟩
  · rw [after, get?_become, if_pos rfl]
  · rw [after, row_become]
    simp [EditWorld.row, EditWorld.withRow]

theorem append_done (stepped : editStep ctx before (.append call) = some after)
    (done : after.edits.get? call = some ⟨request, .appended⟩) :
    ∃ ops row, before.edits.get? call = some ⟨request, .checked⟩ ∧
      checkedOps ctx request = .ok ops ∧ before.row request.changesetId = some row ∧
      Appendable row ops := by
  cases editStep_effect stepped with
  | appended waiting appending =>
      cases appending with
      | appended fit stored appendable =>
          rw [get?_become, if_pos rfl] at done
          obtain ⟨rfl, -⟩ := Edit.mk.inj (Option.some.inj done)
          exact ⟨_, _, waiting, fit, stored, appendable⟩
      | left different =>
          rw [get?_become, if_pos rfl] at done
          obtain ⟨-, same⟩ := Edit.mk.inj (Option.some.inj done)
          exact absurd same different.2

theorem lands_of_appended (stepped : editStep ctx event.before event.label = some event.after)
    (appended : Appended event call request etag) :
    ∃ ops row, Lands ctx event call request etag ops row := by
  obtain ⟨label, done, conditional, specific⟩ := appended
  obtain ⟨ops, row, waiting, fit, stored, appendable⟩ := append_done (label ▸ stepped) done
  exact ⟨ops, row, label, waiting, conditional, specific, fit, stored, appendable⟩

theorem tag_of_received {world : EditWorld}
    (checked : received ctx world request = .checked) (conditional : request.ifMatch = some etag)
    (specific : etag ≠ "*") :
    ∃ row, world.row request.changesetId = some row ∧
      changesetEtag ctx row.patch row.state = etag := by
  unfold received at checked
  rw [conditional] at checked
  cases stored : world.row request.changesetId with
  | none => simp [stored, precondition] at checked
  | some row =>
      refine ⟨row, rfl, ?_⟩
      by_contra different
      have refused : etag ≠ changesetEtag ctx row.patch row.state ∧ etag ≠ "*" :=
        ⟨fun same => different same.symm, specific⟩
      simp [stored, precondition, refused] at checked

end Steps

section Runs

variable {ctx : EditContext} {history : List EditEvent} {start final : EditWorld}

abbrev EditSteps (ctx : EditContext) : EditWorld → EditStep → EditWorld → Prop :=
  fun before step after => editStep ctx before step = some after

variable {call : Nat} {request : PatchRequest}

theorem stage_run {stage : Stage}
    (run : Follows (EditSteps ctx) start history final)
    (known : start.edits.get? call = some ⟨request, stage⟩) :
    ∃ next, final.edits.get? call = some ⟨request, next⟩ ∧
      (next = .checked → stage = .checked) := by
  refine run.invariant (fun world => ∃ next, world.edits.get? call = some ⟨request, next⟩ ∧
    (next = .checked → stage = .checked)) ⟨stage, known, id⟩ ?_
  rintro before step after stepped ⟨middle, waiting, earlier⟩
  obtain ⟨next, later, back⟩ := stage_step stepped waiting
  exact ⟨next, later, fun checked => earlier (back checked)⟩

variable {later : List EditEvent} {land : EditEvent}

theorem check_of_lands {past : List EditEvent}
    {etag : String} {ops : List PatchOp} {row : ChangesetRow}
    (run : EditRun ctx (past ++ land :: later) final)
    (lands : Lands ctx land call request etag ops row) :
    ∃ earlier check between, past = earlier ++ check :: between ∧
      check.label = .receive call request ∧
      ∃ read, check.before.row request.changesetId = some read ∧
        changesetEtag ctx read.patch read.state = etag := by
  obtain ⟨middle, first, rest⟩ := Follows.split run
  cases rest with
  | cons _ _ =>
      have known : Received ctx past middle := by
        refine first.with_past (Received ctx) ?_ ?_
        · intro call request waiting
          rw [OrderedMap.get?_empty] at waiting
          cases waiting
        · exact fun past event _ stepped known => received_append stepped known
      obtain ⟨earlier, check, between, split, label, checked⟩ := known call request lands.waiting
      exact ⟨earlier, check, between, split, label,
        tag_of_received checked lands.conditional lands.specific⟩

/-- Operations that are there at the end of a stretch as they were in front of it
were not touched in between. -/
theorem patch_between {changesetId : String} {patch : List PatchOp}
    (run : Follows (EditSteps ctx) start history final)
    (first : Grown changesetId patch start) (last : patchOf changesetId final = some patch) :
    ∀ event ∈ history, patchOf changesetId event.after = patchOf changesetId event.before := by
  intro event member
  obtain ⟨earlier, later, rfl⟩ := List.append_of_mem member
  obtain ⟨middle, before, rest⟩ := Follows.split run
  cases rest with
  | cons stepped remaining =>
      have squeezed : ∀ {world : EditWorld}, Grown changesetId patch world →
          (∀ row, world.row changesetId = some row → Grown changesetId row.patch final) →
          patchOf changesetId world = some patch := by
        rintro world ⟨row, stored, lower⟩ onward
        obtain ⟨finalRow, finalStored, upper⟩ := onward row stored
        have ending : finalRow.patch = patch := by
          simpa [patchOf, finalStored] using last
        have same : patch = row.patch :=
          lower.eq_of_length (Nat.le_antisymm lower.length_le (ending ▸ upper.length_le))
        rw [patchOf, stored, same]
        rfl
      have front : Grown changesetId patch middle := grown_run before first
      have back := grown_run (.cons stepped (.nil _)) front
      rw [squeezed front fun row stored =>
          grown_run (.cons stepped remaining) ⟨row, stored, List.prefix_rfl⟩,
        squeezed back fun row stored => grown_run remaining ⟨row, stored, List.prefix_rfl⟩]

theorem untouched_of_quiet (run : EditRun ctx history final) :
    ∀ call, Quiet (final.edits.get? call) → Untouched history call := by
  refine run.with_past (fun past world => ∀ call, Quiet (world.edits.get? call) →
    Untouched past call) ?_ ?_
  · exact fun _ _ _ member => absurd member List.not_mem_nil
  · intro past event _ stepped earlier call quiet
    obtain ⟨before, own⟩ := quiet_step stepped quiet
    intro old member
    rcases List.mem_append.mp member with past | here
    · exact earlier call before old past
    · obtain rfl := List.mem_singleton.mp here
      exact own

theorem receive_row {before after : EditWorld}
    (stepped : editStep ctx before (.receive call request) = some after) (changesetId : String) :
    after.row changesetId = before.row changesetId ∧
      after.edits.get? call = some ⟨request, received ctx before request⟩ := by
  cases editStep_effect stepped with
  | received _ => exact ⟨rfl, by rw [get?_become, if_pos rfl]⟩

theorem stretch {earlier between : List EditEvent} {check : EditEvent}
    (run : EditRun ctx (earlier ++ check :: (between ++ land :: later)) final)
    (label : check.label = .receive call request) :
    Follows (EditSteps ctx) check.after between land.before ∧
      check.after.row request.changesetId = check.before.row request.changesetId ∧
      check.after.edits.get? call = some ⟨request, received ctx check.before request⟩ := by
  obtain ⟨middle, _, rest⟩ := Follows.split run
  cases rest with
  | cons stepped remaining =>
      obtain ⟨front, compared, continued⟩ := Follows.split remaining
      cases continued with
      | cons _ _ =>
          obtain rfl := label
          exact ⟨compared, receive_row stepped request.changesetId⟩

theorem stepped_of_member (run : EditRun ctx history final) :
    ∀ event ∈ history, editStep ctx event.before event.label = some event.after := by
  have events := @Follows.at_events _ _ _ _ _ _ (fun _ => True) run trivial fun _ _ _ _ _ => trivial
  exact fun event member => (events event member).1

/-- The tag is right at every update, when the changeset was open at the
comparison and nothing was appended in between. -/
theorem matched_of_guarded (run : EditRun ctx history final) (guarded : Guarded ctx history) :
    ∀ event ∈ history, ∀ call request etag, Appended event call request etag →
      ∃ row, event.before.row request.changesetId = some row ∧
        changesetEtag ctx row.patch row.state = etag := by
  intro land member call request etag appended
  obtain ⟨ops, row, lands⟩ := lands_of_appended (stepped_of_member run land member) appended
  obtain ⟨past, later, rfl⟩ := List.append_of_mem member
  obtain ⟨earlier, check, between, rfl, label, read, found, tagged⟩ := check_of_lands run lands
  have shape : earlier ++ check :: between ++ land :: later =
      earlier ++ check :: (between ++ land :: later) := by simp
  rw [shape] at run
  obtain ⟨⟨_, again, opened⟩, unmoved⟩ :=
    guarded.still earlier check between land later shape call request etag ops row label lands
  cases found.symm.trans again
  obtain ⟨compared, kept, _⟩ := stretch run label
  have patch : patchOf request.changesetId land.before =
      patchOf request.changesetId check.before := by
    rw [compared.constant (patchOf request.changesetId) unmoved, patchOf, kept, patchOf]
  have same : row.patch = read.patch := by
    simpa [patchOf, lands.stored, found] using patch
  refine ⟨row, lands.stored, ?_⟩
  rw [same, lands.appendable.1, ← opened]
  exact tagged

theorem single_of_guarded (run : EditRun ctx history final) (differ : TagsDiffer ctx history)
    (guarded : Guarded ctx history) :
    history.Pairwise fun first second =>
      ∀ call request other later etag, Appended first call request etag →
        Appended second other later etag → request.changesetId ≠ later.changesetId := by
  rw [List.pairwise_iff_forall_sublist]
  intro first second sublist call request other later etag appended again same
  have firstMember := sublist.subset (List.mem_cons_self)
  have secondMember : second ∈ history :=
    sublist.subset (List.mem_cons_of_mem _ List.mem_cons_self)
  have stepped := stepped_of_member run first firstMember
  obtain ⟨ops, row, lands⟩ := lands_of_appended stepped appended
  obtain ⟨moreOps, next, landsNext⟩ :=
    lands_of_appended (stepped_of_member run second secondMember) again
  have carried := List.pairwise_iff_forall_sublist.mp guarded.carried sublist
    call request other later etag ops moreOps row next lands landsNext same
  -- What the first of the two appended is still there at the second.
  have grown : Grown request.changesetId (row.patch ++ ops) second.before := by
    have lasting := (run.lasting (fun _ => True) (Grown request.changesetId (row.patch ++ ops))
      trivial (fun _ _ _ _ _ => trivial) ?_).2.2
    · exact List.pairwise_iff_forall_sublist.mp lasting sublist
        ⟨_, (appended_of_lands stepped lands).2, List.prefix_rfl⟩
    · rintro before step after stepped - ⟨kept, stored, lower⟩
      exact Grown.trans lower (grown_step stepped stored)
  obtain ⟨_, storedNext, lower⟩ := grown
  cases (same ▸ landsNext.stored).symm.trans storedNext
  obtain ⟨_, found, tag⟩ := matched_of_guarded run guarded first firstMember _ _ _ appended
  cases lands.stored.symm.trans found
  obtain ⟨_, foundNext, tagNext⟩ :=
    matched_of_guarded run guarded second secondMember _ _ _ again
  cases landsNext.stored.symm.trans foundNext
  obtain ⟨samePatch, -⟩ := differ first firstMember second secondMember request.changesetId
    row next lands.stored (same ▸ landsNext.stored) (tag.trans tagNext.symm)
  have short := lower.length_le
  rw [← samePatch, List.length_append] at short
  exact carried (List.length_eq_zero_iff.mp (by omega))

/-- Where the tag is right at the update, the changeset was open at the
comparison and nothing was appended in between. -/
theorem still_of_matched (run : EditRun ctx history final) (differ : TagsDiffer ctx history)
    (matched : ∀ event ∈ history, ∀ call request etag, Appended event call request etag →
      ∃ row, event.before.row request.changesetId = some row ∧
        changesetEtag ctx row.patch row.state = etag)
    {past between : List EditEvent} {check : EditEvent}
    (shape : history = past ++ check :: (between ++ land :: later))
    {etag : String} {ops : List PatchOp}
    {row : ChangesetRow} (label : check.label = .receive call request)
    (lands : Lands ctx land call request etag ops row) :
    (∃ read, check.before.row request.changesetId = some read ∧ read.state = .opened) ∧
      ∀ event ∈ between,
        patchOf request.changesetId event.after = patchOf request.changesetId event.before := by
  subst shape
  have landed : land ∈ past ++ check :: (between ++ land :: later) := by simp
  have checked : check ∈ past ++ check :: (between ++ land :: later) := by simp
  obtain ⟨appended, -⟩ := appended_of_lands (stepped_of_member run land landed) lands
  obtain ⟨current, found, tagged⟩ := matched land landed call request etag appended
  cases lands.stored.symm.trans found
  obtain ⟨compared, kept, known⟩ := stretch run label
  obtain ⟨next, waiting, back⟩ := stage_run compared known
  obtain ⟨-, rfl⟩ := Edit.mk.inj (Option.some.inj (waiting.symm.trans lands.waiting))
  obtain ⟨read, present, readTag⟩ :=
    tag_of_received (back rfl) lands.conditional lands.specific
  obtain ⟨samePatch, sameState⟩ := differ check checked land landed request.changesetId read row
    present lands.stored (readTag.trans tagged.symm)
  refine ⟨⟨read, present, sameState.trans lands.appendable.1⟩, ?_⟩
  refine patch_between compared ⟨read, kept.trans present, List.prefix_rfl⟩ ?_
  rw [patchOf, lands.stored, samePatch]
  rfl

end Runs

/-! ## Two editors with one tag -/

/-- The text of a removal, as the database gives the parts of an object back. -/
def removalText : PatchOp → String
  | .put _ => "null"
  | .delete kind key => s!"\x7b\"op\":\"delete\",\"key\":\"{key}\",\"kind\":\"{kind.text}\"\x7d"

def removals : EditContext :=
  { store := plainContext
    stringify := fun ops => "[" ++ ",".intercalate (ops.map removalText) ++ "]"
    shapeCheck := fun _ => .ok () }

def firstRemoval : PatchOp := .delete .listener "first"

def secondRemoval : PatchOp := .delete .listener "second"

def removalOf (op : PatchOp) : PatchRequest :=
  ⟨"edit", some (changesetEtag removals [] .opened), some [op]⟩

/-- The operations that the changeset has in the runs below. -/
def removalStates : List (List PatchOp) :=
  [[], [firstRemoval], [firstRemoval, secondRemoval]]

/-- The changesets of a run are open and have one of these lists of operations. -/
def OnlyRemovals (history : List EditEvent) : Prop :=
  ∀ event ∈ history, ∀ entry ∈ event.before.store.db.changesets.entries,
    entry.2.state = .opened ∧ entry.2.patch ∈ removalStates

instance (history : List EditEvent) : Decidable (OnlyRemovals history) := by
  unfold OnlyRemovals
  infer_instance

theorem removal_tags_differ : ∀ old ∈ removalStates, ∀ new ∈ removalStates,
    changesetEtag removals old .opened = changesetEtag removals new .opened → old = new := by
  decide +kernel

theorem tagsDiffer_of_onlyRemovals {history : List EditEvent} (only : OnlyRemovals history) :
    TagsDiffer removals history := by
  intro first firstMember second secondMember changesetId old new oldStored newStored same
  obtain ⟨oldOpened, oldKnown⟩ := only first firstMember _
    (OrderedMap.mem_entries_iff.mpr oldStored)
  obtain ⟨newOpened, newKnown⟩ := only second secondMember _
    (OrderedMap.mem_entries_iff.mpr newStored)
  simp only at oldOpened oldKnown newOpened newKnown
  rw [oldOpened, newOpened] at same
  exact ⟨removal_tags_differ _ oldKnown _ newKnown same, oldOpened.trans newOpened.symm⟩

theorem exists_removals (labels : List EditStep) (check : List EditEvent → EditWorld → Bool)
    (attempted : (execute (fun label state => (editStep removals state label).map (label, ·))
      labels {}).any (fun (history, final) =>
        decide (OnlyRemovals history) && check history final) = true) :
    ∃ history final, EditRun removals history final ∧ history.map Event.label = labels ∧
      TagsDiffer removals history ∧ check history final = true := by
  obtain ⟨history, final, run, walked, holding⟩ :=
    @follows_of_attempt _ _ (editStep removals) {} labels
      (fun (history, final) => decide (OnlyRemovals history) && check history final) attempted
  obtain ⟨only, checked⟩ := Bool.and_eq_true_iff.mp holding
  exact ⟨history, final, run, walked, tagsDiffer_of_onlyRemovals (of_decide_eq_true only), checked⟩

/-- Both requests are compared before either of them appends. -/
def compareTwice : List EditStep :=
  [.store ⟨.createChangeset "edit" 1, true⟩, .receive 0 (removalOf firstRemoval),
    .receive 1 (removalOf secondRemoval), .append 0, .append 1, .record 0 true, .record 1 true]

/-- The second request is compared after the first has appended. -/
def compareLater : List EditStep :=
  [.store ⟨.createChangeset "edit" 1, true⟩, .receive 0 (removalOf firstRemoval), .append 0,
    .record 0 true, .receive 1 (removalOf secondRemoval)]

theorem no_lost_update_iff {ctx : EditContext} {history : List EditEvent} {final : EditWorld}
    (run : EditRun ctx history final) (differ : TagsDiffer ctx history) :
    NoLostUpdate ctx history final ↔ Guarded ctx history := by
  constructor
  · rintro ⟨matched, single, -⟩
    refine ⟨?_, ?_⟩
    · intro past check between land later shape call request etag ops row label lands
      exact still_of_matched run differ matched shape label lands
    · rw [List.pairwise_iff_forall_sublist]
      intro first second sublist call request other later etag ops moreOps row next
        lands landsNext same
      have stepped := stepped_of_member run
      have firstAppended := (appended_of_lands (stepped first
        (sublist.subset List.mem_cons_self)) lands).1
      have secondAppended := (appended_of_lands (stepped second
        (sublist.subset (List.mem_cons_of_mem _ List.mem_cons_self))) landsNext).1
      exact absurd same (List.pairwise_iff_forall_sublist.mp single sublist
        call request other later etag firstAppended secondAppended)
  · intro guarded
    refine ⟨matched_of_guarded run guarded, single_of_guarded run differ guarded, ?_⟩
    intro call request error answered
    refine untouched_of_quiet run call ?_
    rw [answered]
    trivial

theorem no_lost_update_compareLater :
    ∃ history final, history.map Event.label = compareLater ∧
      EditRun removals history final ∧
      (NoLostUpdate removals history final ↔ Guarded removals history) := by
  obtain ⟨history, final, run, walked, differ, -⟩ :=
    exists_removals compareLater (fun _ _ => true) (by decide +kernel)
  exact ⟨history, final, walked, run, no_lost_update_iff run differ⟩

/-- The second request appends to a list of operations that it has not seen. -/
theorem stale_tag_appends :
    ∃ history final, EditRun removals history final ∧ TagsDiffer removals history ∧
      ¬ NoLostUpdate removals history final := by
  obtain ⟨history, final, run, -, differ, seen⟩ :=
    exists_removals compareTwice
      (fun history _ => history.any fun event =>
        decide (event.label = .append 1 ∧
          event.after.edits.get? 1 = some ⟨removalOf secondRemoval, .appended⟩ ∧
          event.before.row "edit" =
            some { baseRevision := 1, state := .opened, patch := [firstRemoval] }))
      (by decide +kernel)
  refine ⟨history, final, run, differ, fun holds => ?_⟩
  obtain ⟨event, member, holding⟩ := List.any_eq_true.mp seen
  obtain ⟨label, done, stored⟩ := of_decide_eq_true holding
  have specific : changesetEtag removals [] .opened ≠ "*" := by decide +kernel
  obtain ⟨row, found, tag⟩ := holds.matched event member 1 (removalOf secondRemoval)
    (changesetEtag removals [] .opened) ⟨label, done, rfl, specific⟩
  cases stored.symm.trans found
  exact absurd (removal_tags_differ [firstRemoval] (by decide) [] (by decide) tag) (by decide)

end Api

end Barycenter
