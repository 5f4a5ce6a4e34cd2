import Barycenter.Dp.AgentSpecs

/-!
# Which slots an operation gives back

Every cleanup path of the agent walks some planes and deletes the slots it
considers its own.  `Freed` says what such a walk did: nothing but slots
changed, exactly the slots in question are gone, and the others are as they
were.
-/

namespace Barycenter.Dp

open Outcome

/-- Slots were given back, exactly the `owned` ones. -/
structure Freed (s next : AgentState) (owned : Plane → Nat → Prop) : Prop where
  only : ∃ reservations, next = { s with reservations := reservations }
  kept : ∀ plane epoch, ¬ owned plane epoch →
    next.slot plane epoch = s.slot plane epoch
  gone : ∀ plane epoch, owned plane epoch → next.slot plane epoch = none

namespace Freed

variable {s middle next : AgentState} {owned first second : Plane → Nat → Prop}

theorem nothing (s : AgentState) : Freed s s fun _ _ => False :=
  { only := ⟨s.reservations, rfl⟩
    kept := fun _ _ _ => rfl
    gone := fun _ _ impossible => impossible.elim }

theorem congr (freed : Freed s next first)
    (same : ∀ plane epoch, first plane epoch ↔ second plane epoch) :
    Freed s next second :=
  { only := freed.only
    kept := fun plane epoch other =>
      freed.kept plane epoch fun owned => other ((same plane epoch).mp owned)
    gone := fun plane epoch owned =>
      freed.gone plane epoch ((same plane epoch).mpr owned) }

theorem one (s : AgentState) (plane : Plane) (epoch : Nat) :
    Freed s (s.dropSlot plane epoch) fun other otherEpoch =>
      other = plane ∧ otherEpoch = epoch :=
  { only := ⟨_, rfl⟩
    kept := by
      intro other otherEpoch different
      rw [AgentState.slot_dropSlot, if_neg]
      rintro ⟨rfl, rfl⟩
      exact different ⟨rfl, rfl⟩
    gone := by
      rintro other otherEpoch ⟨rfl, rfl⟩
      simp [AgentState.slot_dropSlot] }

theorem trans (before : Freed s middle first) (after : Freed middle next second) :
    Freed s next fun plane epoch => first plane epoch ∨ second plane epoch := by
  obtain ⟨_, rfl⟩ := before.only
  obtain ⟨reservations, rfl⟩ := after.only
  refine
    { only := ⟨reservations, rfl⟩
      kept := ?_
      gone := ?_ }
  · intro plane epoch neither
    rw [after.kept plane epoch (fun owned => neither (.inr owned)),
      before.kept plane epoch (fun owned => neither (.inl owned))]
  · intro plane epoch either
    by_cases later : second plane epoch
    · exact after.gone plane epoch later
    · rw [after.kept plane epoch later]
      exact before.gone plane epoch (either.resolve_right later)

theorem slot_of_slot (freed : Freed s next owned) {plane : Plane} {epoch : Nat}
    {slot : Reservation} (left : next.slot plane epoch = some slot) :
    s.slot plane epoch = some slot ∧ ¬ owned plane epoch := by
  by_cases given : owned plane epoch
  · rw [freed.gone plane epoch given] at left
    cases left
  · exact ⟨(freed.kept plane epoch given).symm.trans left, given⟩

end Freed

theorem ownsSlotOp_some {slot : Reservation} {who : Identity} :
    ownsSlotOp (some slot) who = true ↔ slot.op.identity = who := by
  simp [ownsSlotOp]

variable {s : AgentState}

theorem ownsSlot_iff {op : OperationTuple} :
    ownsSlot s op = true ↔
      ∃ slot, s.slot op.plane op.target.activationEpoch = some slot ∧
        canonical slot.op = canonical op := by
  simp only [ownsSlot]
  cases s.slot op.plane op.target.activationEpoch <;> simp

theorem freed_withoutOwnSlot (s : AgentState) (op : OperationTuple) :
    Freed s (withoutOwnSlot s op) fun plane epoch =>
      plane = op.plane ∧ epoch = op.target.activationEpoch ∧ ownsSlot s op = true := by
  by_cases owned : ownsSlot s op = true
  · have dropped : withoutOwnSlot s op = s.dropSlot op.plane op.target.activationEpoch := by
      simp [withoutOwnSlot, owned, AgentState.dropSlot]
    rw [dropped]
    exact (Freed.one s _ _).congr fun plane epoch => by simp [owned]
  · have kept : withoutOwnSlot s op = s := by
      simp [withoutOwnSlot, owned]
    rw [kept]
    exact (Freed.nothing s).congr fun plane epoch => by simp [owned]

private theorem freed_freeSlots (s : AgentState) (who : Identity)
    (epochs : PerPlane (Option Nat)) (planes : List Plane) :
    Freed s { s with reservations := freeSlots who epochs planes s.reservations }
      fun plane epoch =>
        plane ∈ planes ∧ epochs.get plane = some epoch ∧
          ownsSlotOp (s.slot plane epoch) who = true := by
  induction planes generalizing s with
  | nil => exact (Freed.nothing s).congr fun plane epoch => by simp
  | cons plane rest induction =>
      simp only [freeSlots]
      split
      · rename_i undeclared
        refine (induction s).congr ?_
        intro other epoch
        constructor
        · rintro ⟨member, declared, owned⟩
          exact ⟨List.mem_cons_of_mem _ member, declared, owned⟩
        · rintro ⟨member, declared, owned⟩
          rcases List.mem_cons.mp member with rfl | later
          · simp [undeclared] at declared
          · exact ⟨later, declared, owned⟩
      · rename_i epoch declaredHere
        split
        · rename_i ownedHere
          have first := Freed.one s plane epoch
          refine (first.trans (induction (s.dropSlot plane epoch))).congr ?_
          intro other otherEpoch
          constructor
          · rintro (⟨rfl, rfl⟩ | ⟨member, declared, owned⟩)
            · exact ⟨List.mem_cons_self, declaredHere, ownedHere⟩
            · refine ⟨List.mem_cons_of_mem _ member, declared, ?_⟩
              rw [AgentState.slot_dropSlot] at owned
              split at owned
              · simp [ownsSlotOp] at owned
              · exact owned
          · rintro ⟨member, declared, owned⟩
            by_cases here : other = plane ∧ otherEpoch = epoch
            · exact .inl here
            · refine .inr ?_
              rcases List.mem_cons.mp member with rfl | later
              · rw [declaredHere, Option.some.injEq] at declared
                exact absurd ⟨rfl, declared.symm⟩ here
              · refine ⟨later, declared, ?_⟩
                rw [AgentState.slot_dropSlot, if_neg]
                · exact owned
                · rintro ⟨rfl, rfl⟩
                  exact here ⟨rfl, rfl⟩
        · rename_i notOwned
          refine (induction s).congr ?_
          intro other otherEpoch
          constructor
          · rintro ⟨member, declared, owned⟩
            exact ⟨List.mem_cons_of_mem _ member, declared, owned⟩
          · rintro ⟨member, declared, owned⟩
            rcases List.mem_cons.mp member with rfl | later
            · rw [declaredHere, Option.some.injEq] at declared
              subst declared
              exact absurd owned notOwned
            · exact ⟨later, declared, owned⟩

theorem freed_releaseHeld (s : AgentState) (who : Identity)
    (epochs : PerPlane (Option Nat)) (planes : List Plane) :
    Freed s (releaseHeld s who epochs planes) fun plane epoch =>
      plane ∈ planes ∧ epochs.get plane = some epoch ∧
        ownsSlotOp (s.slot plane epoch) who = true :=
  freed_freeSlots s who epochs planes

theorem freed_dropSlots (s : AgentState) (epochs : PerPlane (Option Nat))
    (planes : List Plane) :
    Freed s { s with reservations := Agent.dropSlots epochs planes s.reservations }
      fun plane epoch => plane ∈ planes ∧ epochs.get plane = some epoch := by
  induction planes generalizing s with
  | nil => exact (Freed.nothing s).congr fun plane epoch => by simp
  | cons plane rest induction =>
      simp only [Agent.dropSlots]
      split
      · rename_i undeclared
        refine (induction s).congr ?_
        intro other epoch
        constructor
        · rintro ⟨member, declared⟩
          exact ⟨List.mem_cons_of_mem _ member, declared⟩
        · rintro ⟨member, declared⟩
          rcases List.mem_cons.mp member with rfl | later
          · simp [undeclared] at declared
          · exact ⟨later, declared⟩
      · rename_i epoch declaredHere
        have first := Freed.one s plane epoch
        refine (first.trans (induction (s.dropSlot plane epoch))).congr ?_
        intro other otherEpoch
        constructor
        · rintro (⟨rfl, rfl⟩ | ⟨member, declared⟩)
          · exact ⟨List.mem_cons_self, declaredHere⟩
          · exact ⟨List.mem_cons_of_mem _ member, declared⟩
        · rintro ⟨member, declared⟩
          rcases List.mem_cons.mp member with rfl | later
          · rw [declaredHere, Option.some.injEq] at declared
            exact .inl ⟨rfl, declared.symm⟩
          · exact .inr ⟨later, declared⟩

namespace Agent

variable {op : ApplyOperation} {s next : AgentState} {plane : Plane} {reply : Unit}

theorem releasePlane_ok (released : releasePlane op plane s = .ok (reply, next)) :
    ∃ tuple, tupleFor op plane = .ok tuple ∧ next = withoutOwnSlot s tuple := by
  simp only [releasePlane, bind_ok, pure, Except.pure, Except.ok.injEq,
    Prod.mk.injEq] at released
  obtain ⟨tuple, extracted, -, rfl⟩ := released
  exact ⟨tuple, extracted, rfl⟩

/-- The slots a list of planes of an operation gives back. -/
def OwnSlot (s : AgentState) (op : ApplyOperation) (planes : List Plane)
    (plane : Plane) (epoch : Nat) : Prop :=
  plane ∈ planes ∧ ∃ tuple, tupleFor op plane = .ok tuple ∧
    epoch = tuple.target.activationEpoch ∧ ownsSlot s tuple = true

theorem freed_releasePlanes {planes : List Plane} {replies : List Unit}
    (released : traverse (releasePlane op) planes s = .ok (replies, next)) :
    Freed s next (OwnSlot s op planes) := by
  induction planes generalizing s replies with
  | nil =>
      have ended := traverse_nil.mp released
      simp only [Prod.mk.injEq] at ended
      rw [← ended.2]
      exact (Freed.nothing s).congr fun plane epoch => by simp [OwnSlot]
  | cons plane rest induction =>
      obtain ⟨_, middle, others, stepped, walked, -⟩ := traverse_cons.mp released
      obtain ⟨tuple, extracted, rfl⟩ := releasePlane_ok stepped
      have samePlane := tupleFor_plane extracted
      have first := freed_withoutOwnSlot s tuple
      refine (first.trans (induction walked)).congr ?_
      intro other epoch
      constructor
      · rintro (⟨rfl, rfl, owned⟩ | ⟨member, otherTuple, otherExtracted, rfl, owned⟩)
        · exact ⟨by simp [samePlane], tuple, samePlane ▸ extracted, rfl, owned⟩
        · refine ⟨List.mem_cons_of_mem _ member, otherTuple, otherExtracted, rfl, ?_⟩
          obtain ⟨slot, found, same⟩ := ownsSlot_iff.mp owned
          exact ownsSlot_iff.mpr ⟨slot, (first.slot_of_slot found).1, same⟩
      · rintro ⟨member, otherTuple, otherExtracted, rfl, owned⟩
        by_cases here : other = tuple.plane ∧
            otherTuple.target.activationEpoch = tuple.target.activationEpoch ∧
            ownsSlot s tuple = true
        · exact .inl here
        · refine .inr ?_
          rcases List.mem_cons.mp member with rfl | later
          · have same : tuple = otherTuple := by
              simpa [extracted] using otherExtracted
            subst same
            exact absurd ⟨samePlane.symm, rfl, owned⟩ here
          · refine ⟨later, otherTuple, otherExtracted, rfl, ?_⟩
            obtain ⟨slot, found, same⟩ := ownsSlot_iff.mp owned
            refine ownsSlot_iff.mpr ⟨slot, ?_, same⟩
            rw [tupleFor_plane otherExtracted] at found ⊢
            rw [first.kept _ _ here]
            exact found

theorem finishOperation_ok {releasePlanes : List Plane}
    (finished : finishOperation op releasePlanes s = .ok (reply, next)) :
    ∃ freed,
      Freed (finalizeCandidate s op.identity) freed (OwnSlot s op releasePlanes) ∧
        next = vacate freed op.identity := by
  simp only [finishOperation, bind_ok, Prod.exists, pure, Except.pure,
    Except.ok.injEq, Prod.mk.injEq] at finished
  obtain ⟨_, freed, released, -, rfl⟩ := finished
  exact ⟨freed, freed_releasePlanes released, rfl⟩

variable {tuples : List OperationTuple}

theorem tuplesOf_ok (extracted : tuplesOf op = .ok tuples) :
    tuples.map OperationTuple.plane = planesOf op ∧
      ∀ tuple ∈ tuples, tupleFor op tuple.plane = .ok tuple := by
  unfold tuplesOf at extracted
  generalize planesOf op = planes at extracted ⊢
  induction planes generalizing tuples with
  | nil =>
      simp only [List.mapM_nil, pure, Except.pure, Except.ok.injEq] at extracted
      subst extracted
      simp
  | cons plane rest induction =>
      simp only [List.mapM_cons, bind_ok, pure, Except.pure, Except.ok.injEq] at extracted
      obtain ⟨tuple, first, others, walked, rfl⟩ := extracted
      obtain ⟨samePlanes, each⟩ := induction walked
      have samePlane := tupleFor_plane first
      refine ⟨by simp [samePlane, samePlanes], ?_⟩
      intro other member
      rcases List.mem_cons.mp member with rfl | later
      · exact samePlane.symm ▸ first
      · exact each other later

theorem mem_tuplesOf (extracted : tuplesOf op = .ok tuples) (member : plane ∈ planesOf op) :
    ∃ tuple ∈ tuples, tuple.plane = plane ∧ tupleFor op plane = .ok tuple := by
  obtain ⟨samePlanes, each⟩ := tuplesOf_ok extracted
  rw [← samePlanes] at member
  obtain ⟨tuple, present, rfl⟩ := List.mem_map.mp member
  exact ⟨tuple, present, rfl, each tuple present⟩

private theorem foldl_set_get (epochs : PerPlane (Option Nat)) (value : Plane → Nat)
    (agrees : ∀ tuple ∈ tuples, tuple.target.activationEpoch = value tuple.plane)
    (plane : Plane) :
    (tuples.foldl
        (fun epochs tuple => epochs.set tuple.plane (some tuple.target.activationEpoch))
        epochs).get plane =
      if plane ∈ tuples.map OperationTuple.plane then some (value plane)
      else epochs.get plane := by
  induction tuples generalizing epochs with
  | nil => simp
  | cons tuple rest induction =>
      rw [List.foldl_cons,
        induction _ (fun other member => agrees other (List.mem_cons_of_mem _ member))]
      have here := agrees tuple List.mem_cons_self
      by_cases later : plane ∈ rest.map OperationTuple.plane
      · simp [later]
      · by_cases same : tuple.plane = plane
        · subst same
          simp [later, here]
        · simp [later, PerPlane.get_set, same, Ne.symm same]

/-- The epochs of the tuples of an operation are the epochs it declares, on the
planes it names. -/
theorem declaredEpochs_get (extracted : tuplesOf op = .ok tuples) (plane : Plane) :
    (declaredEpochs tuples).get plane =
      if plane ∈ planesOf op then (epochsOf op).get plane else none := by
  obtain ⟨samePlanes, each⟩ := tuplesOf_ok extracted
  have agrees : ∀ tuple ∈ tuples,
      tuple.target.activationEpoch = ((epochsOf op).get tuple.plane).getD 0 := by
    intro tuple member
    rw [epochsOf_get (each tuple member)]
    rfl
  have folded := foldl_set_get { http := none, stream := none }
    (fun plane => ((epochsOf op).get plane).getD 0) agrees plane
  rw [samePlanes] at folded
  rw [declaredEpochs, folded]
  by_cases named : plane ∈ planesOf op
  · obtain ⟨tuple, -, -, found⟩ := mem_tuplesOf extracted named
    simp [named, epochsOf_get found]
  · cases plane <;> simp [named, PerPlane.get]

theorem stampOrphan_ok {stale : ApplyOperation}
    {mine : List String} (stamped : stampOrphan stale mine plane s = .ok (reply, next)) :
    next = s ∨
      (terminalOf s stale.identity plane = none ∧
        transitionKey stale.identity plane ∉ mine ∧
        next = s.setTerminal (transitionKey stale.identity plane) .aborted) := by
  simp only [stampOrphan, bind_ok] at stamped
  obtain ⟨tuple, extracted, stamped⟩ := stamped
  rw [tupleFor_identity extracted] at stamped
  rcases choice_ok.mp stamped with ⟨open_, answered⟩ | ⟨-, answered⟩
  · simp only [pure, Except.pure, Except.ok.injEq, Prod.mk.injEq] at answered
    simp only [Bool.and_eq_true, Option.isNone_iff_eq_none, Bool.not_eq_true',
      List.contains_eq_mem, decide_eq_false_iff_not] at open_
    exact .inr ⟨open_.1, open_.2, answered.2.symm⟩
  · simp only [pure, Except.pure, Except.ok.injEq, Prod.mk.injEq] at answered
    exact .inl answered.2.symm

/-- Terminal records were added as aborted, and none was overwritten. -/
structure Stamped (s next : AgentState) (stale : ApplyOperation) (mine : List String) :
    Prop where
  only : ∃ terminal, next = { s with terminal := terminal }
  record : ∀ name, next.terminal.get? name = s.terminal.get? name ∨
    (s.terminal.get? name = none ∧ next.terminal.get? name = some .aborted ∧
      name ∉ mine ∧ ∃ plane, name = transitionKey stale.identity plane ∧
        terminalOf s stale.identity plane = none)

theorem stampOrphans_ok {stale : ApplyOperation}
    {mine : List String} {planes : List Plane} {replies : List Unit}
    (stamped : traverse (stampOrphan stale mine) planes s = .ok (replies, next)) :
    Stamped s next stale mine := by
  refine traverse_preserves (fun current => Stamped s current stale mine) ?_
    { only := ⟨s.terminal, rfl⟩
      record := fun _ => .inl rfl } stamped
  intro plane _ current reply later before step
  rcases stampOrphan_ok step with rfl | ⟨open_, notMine, rfl⟩
  · exact before
  · obtain ⟨terminal, rfl⟩ := before.only
    refine
      { only := ⟨_, rfl⟩
        record := ?_ }
    intro name
    by_cases here : transitionKey stale.identity plane = name
    · subst here
      have earlier : ∀ other, terminal.get? other = none → s.terminal.get? other = none := by
        intro other unrecorded
        rcases before.record other with same | ⟨absent, -⟩
        · exact same.symm.trans unrecorded
        · exact absent
      have unrecorded := Option.or_eq_none_iff.mp open_
      exact .inr ⟨earlier _ unrecorded.1, by simp [AgentState.setTerminal], notMine, plane,
        rfl, Option.or_eq_none_iff.mpr ⟨earlier _ unrecorded.1, earlier _ unrecorded.2⟩⟩
    · simpa [AgentState.setTerminal, OrderedMap.get?_set, here] using before.record name

theorem sweepOrphan_ok {opening : Option JournalOpening}
    (swept : sweepOrphan op tuples opening s = .ok next) :
    ((opening = none ∨ s.journal = none ∨ ownsJournal s.journal op = true ∨
          ∃ entry, s.journal = some entry ∧ isTerminalPhase entry.phase = true) ∧
        next = s) ∨
      ∃ stale stamped staleTuples,
        opening.isSome = true ∧ s.journal = some stale ∧
          stale.op.identity ≠ op.identity ∧ isTerminalPhase stale.phase = false ∧
          Stamped s stamped stale.op
            (tuples.map fun tuple => transitionKey tuple.identity tuple.plane) ∧
          tuplesOf stale.op = .ok staleTuples ∧
          next = supersede stamped (holderWith stale.op staleTuples) := by
  cases opening with
  | none =>
      simp only [sweepOrphan, Except.ok.injEq] at swept
      exact .inl ⟨.inl rfl, swept.symm⟩
  | some first =>
      cases journal : s.journal with
      | none =>
          simp only [sweepOrphan, journal, Except.ok.injEq] at swept
          exact .inl ⟨.inr (.inl rfl), swept.symm⟩
      | some stale =>
          simp only [sweepOrphan, journal] at swept
          rcases choice_ok.mp swept with ⟨settled, answered⟩ | ⟨orphaned, answered⟩
          · simp only [Except.ok.injEq] at answered
            refine .inl ⟨.inr (.inr ?_), answered.symm⟩
            rcases (Bool.or_eq_true _ _).mp settled with owned | ended
            · exact .inl owned
            · exact .inr ⟨stale, rfl, ended⟩
          · simp only [bind_ok, Prod.exists, pure, Except.pure, Except.ok.injEq] at answered
            obtain ⟨_, stamped, walked, staleTuples, extracted, rfl⟩ := answered
            have orphaned := Bool.or_eq_false_iff.mp (Bool.eq_false_iff.mpr orphaned)
            refine .inr ⟨stale, stamped, staleTuples, rfl, rfl, ?_, orphaned.2,
              stampOrphans_ok walked, extracted, rfl⟩
            intro same
            exact Bool.noConfusion (orphaned.1.symm.trans (ownsJournal_some.mpr same))

theorem reserveAll_ok {opening : Option JournalOpening} {acks : List PlaneAck}
    (reserved : reserveAll op opening s = .ok (acks, next)) :
    ∃ tuples swept taken,
      tuplesOf op = .ok tuples ∧ tuples ≠ [] ∧
        s.maxLeaderToken ≤ normalizeNumeric op.leaderToken ∧
        (∀ holder, s.activeOperation = some holder →
          sameTransitionName holder.identity op.identity = true) ∧
        sweepOrphan op tuples opening s = .ok swept ∧
        traverse reserve tuples swept = .ok (acks, taken) ∧
        next = openJournal op opening
          { taken with activeOperation := some (holderWith op tuples) } := by
  simp only [reserveAll, bind_ok] at reserved
  obtain ⟨tuples, extracted, reserved⟩ := reserved
  cases tuples with
  | nil => cases reserved
  | cons first rest =>
      simp only [bind_ok, Prod.exists, pure, Except.pure, Except.ok.injEq,
        Prod.mk.injEq] at reserved
      obtain ⟨_, newest, _, free, swept, sweeping, replies, taken, walked, rfl, rfl⟩ :=
        reserved
      have token : first.leaderToken = normalizeNumeric op.leaderToken :=
        tupleFor_leaderToken ((tuplesOf_ok extracted).2 first List.mem_cons_self)
      exact ⟨first :: rest, swept, taken, extracted, by simp,
        token ▸ assertLeader_ok.mp newest, assertPathFree_ok.mp free, sweeping, walked, rfl⟩

end Agent

theorem serial_ok {o : AgentOp} {next : AgentState} {reply : o.Reply}
    (succeeded : serial o s = .ok (reply, next)) :
    ∃ changed, o.mutate s = .ok (reply, changed) ∧ next = prune changed ∧
      assertInvariants (some s) next = none := by
  simp only [serial, serialFrom, Option.getD_some] at succeeded
  split at succeeded
  · cases succeeded
  · rename_i answered changed mutated
    split at succeeded
    · cases succeeded
    · rename_i guarded
      cases succeeded
      exact ⟨changed, mutated, rfl, guarded⟩

theorem serial_rejected {o : AgentOp} (refused : ∀ result, o.mutate s ≠ .ok result) :
    ∃ rejection, serial o s = .error (.rejection rejection) := by
  cases mutated : o.mutate s with
  | ok result => exact absurd mutated (refused result)
  | error rejection => exact ⟨rejection, by simp [serial, serialFrom, mutated]⟩

end Barycenter.Dp
