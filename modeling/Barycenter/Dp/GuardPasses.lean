import Barycenter.Dp.GuardReady

/-!
# The guard passes

Clause by clause: what an operation tended, together with what it can do to
coordinates, slots and ledgers, satisfies the guard, and the state that is
saved is ready for the next one.
-/

namespace Barycenter.Dp

variable {s : AgentState}

theorem authored_place {op : OperationTuple} {evidence : ActivationEvidence}
    (plane : Plane) (here : op.plane = plane) :
    ((Agent.moved s op evidence).planes.get plane) = op.placed := by
  subst here
  exact PerPlane.get_set_same _ _ _

variable {changed : AgentState} {o : AgentOp} {reply : o.Reply}

theorem mutate_epochs (ready : GuardReady s) (unhindered : Unhindered s o)
    (mutated : o.mutate s = .ok (reply, changed)) (plane : Plane) :
    (s.planes.get plane).activationEpoch ≤ (changed.planes.get plane).activationEpoch ∧
      ((changed.planes.get plane).author = none →
        (changed.planes.get plane).activationEpoch = 0) := by
  rcases mutate_ground mutated with ground | ⟨op, evidence, slot, rfl, moves, -, rfl⟩ |
    ⟨op, rfl, revises, -, rfl⟩
  · rw [ground.planes]
    exact ⟨le_refl _, ready.unsigned plane⟩
  · by_cases here : op.plane = plane
    · rw [authored_place plane here]
      refine ⟨?_, nofun⟩
      have stands : (s.planes.get plane).activationEpoch = op.expectedCurrent.activationEpoch := by
        subst here
        exact congrArg Coordinate.activationEpoch moves.expected
      rw [stands]
      change _ ≤ op.target.activationEpoch
      rcases unhindered slot moves with own | forward
      · obtain ⟨-, -, ahead⟩ := ready.forward op.plane op.target.activationEpoch slot moves.found
        rw [own] at ahead
        exact ahead.le
      · exact forward
    · have kept : (Agent.moved s op evidence).planes.get plane = s.planes.get plane :=
        PerPlane.get_set_other _ _ here
      rw [kept]
      exact ⟨le_refl _, ready.unsigned plane⟩
  · by_cases here : op.plane = plane
    · subst here
      have revised : (s.planes.set op.plane (Agent.revised s op)).get op.plane =
          Agent.revised s op := PerPlane.get_set_same _ _ _
      change _ ≤ ((s.planes.set op.plane (Agent.revised s op)).get op.plane).activationEpoch ∧
        (((s.planes.set op.plane (Agent.revised s op)).get op.plane).author = none →
          ((s.planes.set op.plane (Agent.revised s op)).get op.plane).activationEpoch = 0)
      rw [revised]
      refine ⟨revises.sameEpoch.ge, fun unsigned => ?_⟩
      exact revises.sameEpoch.trans (ready.unsigned op.plane unsigned)
    · have kept : (s.planes.set op.plane (Agent.revised s op)).get plane = s.planes.get plane :=
        PerPlane.get_set_other _ _ here
      change _ ≤ ((s.planes.set op.plane (Agent.revised s op)).get plane).activationEpoch ∧
        (((s.planes.set op.plane (Agent.revised s op)).get plane).author = none →
          ((s.planes.set op.plane (Agent.revised s op)).get plane).activationEpoch = 0)
      rw [kept]
      exact ⟨le_refl _, ready.unsigned plane⟩

variable {name : String}

theorem PlacesFrom.named {next : AgentState} (from_ : PlacesFrom s next)
    (places : ∀ name place, s.terminalAt.get? name = some place →
      ∃ who, name = transitionKey who place.plane)
    {place : TerminalPlace} (found : next.terminalAt.get? name = some place) :
    ∃ who, name = transitionKey who place.plane := by
  rcases from_ name with same | ⟨who, plane, epoch, named, -, placed⟩
  · exact places name place (same ▸ found)
  · cases placed.symm.trans found
    exact ⟨who, named⟩

theorem mutate_ready (ready : GuardReady s) (issuable : Issuable s.maxLeaderToken o)
    (unhindered : Unhindered s o) (mutated : o.mutate s = .ok (reply, changed)) :
    GuardReady changed := by
  have tended := mutate_tended ready issuable unhindered mutated
  have newest := mutate_newest mutated
  exact
    { right := tended.right
      intent := by
        intro record found
        rcases tended.intent record found with old | fresh
        · exact (ready.intent record old).trans newest
        · exact fresh.le
      baseline := by
        intro record found
        rcases tended.baseline record found with old | candidate
        · exact (ready.baseline record old).trans newest
        · exact (ready.candidate record candidate).trans newest
      candidate := by
        intro record found
        rcases tended.candidate record found with old | seen
        · exact (ready.candidate record old).trans newest
        · exact seen
      journal := tended.journal
      slots := by
        intro plane epoch slot found
        rcases mutate_slotsFrom mutated plane epoch slot found with
          ⟨old, oldFound, same⟩ | ⟨-, -, -, -, -, upper⟩
        · rw [← same]
          exact (ready.slots plane epoch old oldFound).trans newest
        · exact upper
      forward := (mutate_slotsFrom mutated).forward ready.forward
      unsigned := fun plane => (mutate_epochs ready unhindered mutated plane).2
      places := fun _ _ found => (mutate_placesFrom mutated).named ready.places found }

theorem GuardReady.pruned (ready : GuardReady s) : GuardReady (prune s) := by
  refine { ready with places := ?_ }
  intro name place found
  have found : (s.terminalAt.without _).get? name = some place := found
  rw [OrderedMap.get?_without] at found
  split at found
  · cases found
  · exact ready.places name place found

theorem prune_terminal (s : AgentState) (name : String) :
    (prune s).terminal.get? name =
      if terminalPrunable (s.terminalAt.get? name) s name (liveTransitionKeys s) = true then none
      else s.terminal.get? name :=
  OrderedMap.get?_without _ _ _

theorem prune_unmoved (ready : GuardReady s) {who : Identity} {plane : Plane}
    (unmoved : (s.planes.get plane).activationEpoch = 0) :
    (prune s).terminal.get? (transitionKey who plane) =
      s.terminal.get? (transitionKey who plane) := by
  rw [prune_terminal]
  refine if_neg ?_
  intro prunable
  cases placed : s.terminalAt.get? (transitionKey who plane) with
  | none => simp [terminalPrunable, placed] at prunable
  | some place =>
      obtain ⟨other, same⟩ := ready.places _ _ placed
      obtain ⟨here, -, -⟩ := same_transitionKey same
      rw [placed, terminalPrunable, ← here, unmoved] at prunable
      simp at prunable

/-- A plane stands where a candidate declared it, by the candidate's signature or,
unsigned, by the ledger. -/
def ArrivedAt (s : AgentState) (candidate : PublishRecord) (plane : Plane) (epoch : Nat) :
    Prop :=
  (s.planes.get plane).activationEpoch = epoch ∧
    (((s.planes.get plane).author = none ∧
        terminalOf s candidate.identity plane = some .activated) ∨
      authoredBy (s.planes.get plane) candidate.identity = true)

theorem candidateArrived_iff {candidate : PublishRecord}
    {declared : PerPlane (Option Nat)} :
    candidateArrived s candidate (some declared) = true ↔
      ∀ plane epoch, declared.get plane = some epoch → ArrivedAt s candidate plane epoch := by
  simp only [candidateArrived, List.all_eq_true]
  refine ⟨fun arrived plane epoch declares => ?_, fun arrived plane _ => ?_⟩
  · have arrived := arrived plane (Plane.mem_all plane)
    simp only [declares] at arrived
    by_cases stands : (s.planes.get plane).activationEpoch = epoch
    · refine ⟨stands, ?_⟩
      cases signed : (s.planes.get plane).author with
      | none => exact .inl ⟨rfl, by simpa [stands, signed] using arrived⟩
      | some author => exact .inr (by simpa [stands, signed] using arrived)
    · simp [stands] at arrived
  · cases declares : declared.get plane with
    | none => rfl
    | some epoch =>
        obtain ⟨stands, signature⟩ := arrived plane epoch declares
        cases signed : (s.planes.get plane).author with
        | none =>
            rcases signature with ⟨-, ended⟩ | authored
            · simp [stands, signed, ended]
            · simp [authoredBy, signed] at authored
        | some author =>
            rcases signature with ⟨unsigned, -⟩ | authored
            · cases signed.symm.trans unsigned
            · simp [stands, signed, authored]

theorem candidateArrived_prune (ready : GuardReady s)
    {candidate : PublishRecord} {epochs : Option (PerPlane (Option Nat))}
    (arrived : candidateArrived (prune s) candidate epochs = true) :
    candidateArrived s candidate epochs = true := by
  cases epochs with
  | none => exact arrived
  | some declared =>
      refine candidateArrived_iff.mpr fun plane epoch declares => ?_
      obtain ⟨stands, signature⟩ := candidateArrived_iff.mp arrived plane epoch declares
      refine ⟨stands, ?_⟩
      rcases signature with ⟨unsigned, ended⟩ | authored
      · refine .inl ⟨unsigned, ?_⟩
        have unmoved := ready.unsigned plane unsigned
        rw [terminalOf, prune_unmoved ready unmoved, prune_terminal] at ended
        split at ended
        · rw [Option.or_none] at ended
          rw [terminalOf, ended]
          rfl
        · exact ended
      · exact .inr authored

theorem verdictIsKept_passes (mutated : o.mutate s = .ok (reply, changed)) {how : TerminalKind}
    (recorded : s.terminal.get? name = some how) :
    verdictIsKept s (prune changed) (name, how) = none := by
  have kept : changed.terminal.get? name = some how := by
    rcases mutate_verdictsFrom mutated name with same | ⟨who, plane, rfl, unended⟩
    · rw [same, recorded]
    · rw [(terminalOf_eq_none.mp unended).1] at recorded
      cases recorded
  have place : changed.terminalAt.get? name = s.terminalAt.get? name :=
    (mutate_placesFrom mutated).recorded (by simp [recorded])
  have trimmed := prune_terminal changed name
  rw [place, kept] at trimmed
  by_cases prunable : terminalPrunable (s.terminalAt.get? name) changed name
      (liveTransitionKeys changed) = true
  · rw [if_pos prunable] at trimmed
    have same : terminalPrunable (s.terminalAt.get? name) (prune changed) name
        (liveTransitionKeys (prune changed)) = true := prunable
    simp [verdictIsKept, trimmed, same]
  · rw [if_neg prunable] at trimmed
    simp [verdictIsKept, trimmed]

theorem standingEvidence_passes (mutated : o.mutate s = .ok (reply, changed))
    (recorded : name ∈ s.activationEvidence.keys) :
    standingEvidenceIsKept (prune changed) name = none := by
  obtain ⟨evidence, found⟩ := OrderedMap.mem_keys_iff.mp recorded
  have kept : (changed.activationEvidence.get? name).isSome = true := by
    rcases mutate_ground mutated with ground | ⟨op, fresh, slot, rfl, -, -, rfl⟩ |
      ⟨op, rfl, -, -, rfl⟩
    · rw [ground.activationEvidence, found]
      rfl
    · change ((s.activationEvidence.set _ fresh).get? name).isSome = true
      rw [OrderedMap.get?_set, found]
      split <;> rfl
    · change (s.activationEvidence.get? name).isSome = true
      rw [found]
      rfl
  rw [standingEvidenceIsKept, violatedIf_eq_none, Bool.and_eq_false_iff]
  by_cases standing : (standingKeys (prune changed)).contains name = true
  · refine .inl ?_
    have standing : name ∈ standingKeys changed := List.contains_iff_mem.mp standing
    obtain ⟨plane, -, rfl⟩ := List.mem_map.mp standing
    rw [prune_standingEvidence rfl]
    simpa using kept
  · exact .inr (Bool.eq_false_iff.mpr standing)

theorem baseline_passes (tended : Tended s changed) :
    baselineComesFromCandidate s (prune changed) = none := by
  simp only [baselineComesFromCandidate]
  split
  · rfl
  · rename_i baseline found
    rw [violatedIf_eq_none]
    rcases tended.baseline baseline found with old | candidate
    · simp [old]
    · simp [candidate]

theorem activation_passes (tended : Tended s changed)
    (ready : GuardReady changed) : activationLeavesBaseline s (prune changed) = none := by
  simp only [activationLeavesBaseline]
  split
  · rename_i dropped entry pending journal
    rw [violatedIf_eq_none, Bool.eq_false_iff]
    intro broken
    simp only [Bool.and_eq_true, decide_eq_true_eq, Option.isNone_iff_eq_none] at broken
    obtain ⟨⟨⟨⟨arrived, -⟩, gone⟩, -⟩, lost⟩ := broken
    exact lost (tended.closed dropped pending gone (candidateArrived_prune ready arrived))
  · rfl

theorem standing_passes (ready : GuardReady changed) :
    ∀ clause ∈ standingClauses (prune changed), clause = none := by
  have fenced : ∀ what stored,
      (∀ record : PublishRecord, stored = some record →
        record.token ≤ changed.maxLeaderToken) →
      recordIsFenced what stored (prune changed) = none := by
    intro what stored seen
    cases stored with
    | none => rfl
    | some record =>
        exact violatedIf_eq_none.mpr (decide_eq_false (not_lt.mpr (seen record rfl)))
  simp only [standingClauses, List.forall_mem_cons]
  refine ⟨?_, ?_, fenced _ _ ready.intent, fenced _ _ ready.baseline,
    fenced _ _ ready.candidate, by simp⟩
  · simp only [holderIsNewest]
    split
    · rfl
    · rename_i holder held
      exact violatedIf_eq_none.mpr (decide_eq_false (not_not.mpr (ready.right holder held)))
  · rw [reservationsAreSeen, firstViolation_eq_none]
    intro clause member
    obtain ⟨plane, -, member⟩ := List.mem_flatMap.mp member
    obtain ⟨⟨epoch, slot⟩, entry, rfl⟩ := List.mem_map.mp member
    have seen := ready.slots plane epoch slot (OrderedMap.mem_entries_iff.mp entry)
    exact violatedIf_eq_none.mpr (decide_eq_false (not_lt.mpr seen))

theorem newIntent_passes (tended : Tended s changed) :
    newIntentIsNewest s (prune changed) = none := by
  simp only [newIntentIsNewest]
  split
  · rfl
  · rename_i intent found
    rw [violatedIf_eq_none]
    rcases tended.intent intent found with old | newest
    · simp [old, intentIsNew]
    · have newest : normalizeNumeric intent.leaderToken = (prune changed).maxLeaderToken := newest
      simp [newest]

theorem guard_passes (ready : GuardReady s) (issuable : Issuable s.maxLeaderToken o)
    (unhindered : Unhindered s o) (mutated : o.mutate s = .ok (reply, changed)) :
    assertInvariants (some s) (prune changed) = none := by
  have tended := mutate_tended ready issuable unhindered mutated
  have next := mutate_ready ready issuable unhindered mutated
  have newest := mutate_newest mutated
  rw [assertInvariants, firstViolation_eq_none]
  simp only [List.forall_mem_append, stepClauses, List.forall_mem_cons, List.forall_mem_map,
    List.not_mem_nil, false_implies, implies_true, and_true]
  refine ⟨standing_passes next, ⟨⟨⟨⟨⟨newIntent_passes tended, ?_⟩, ?_⟩, baseline_passes tended,
    activation_passes tended next⟩, ?_⟩, ?_⟩, ?_⟩
  · exact violatedIf_eq_none.mpr (decide_eq_false (not_lt.mpr newest))
  · intro plane _
    have forward := (mutate_epochs ready unhindered mutated plane).1
    exact violatedIf_eq_none.mpr (decide_eq_false (not_lt.mpr forward))
  · rintro ⟨name, how⟩ entry
    exact verdictIsKept_passes mutated (OrderedMap.mem_entries_iff.mp entry)
  · exact fun name recorded => standingEvidence_passes mutated recorded
  · simp only [journalDoesNotRewind]
    split
    · rename_i was now before after
      have forward := tended.forward was now before after
      exact violatedIf_eq_none.mpr (decide_eq_false (not_lt.mpr forward))
    · rfl

/-- An operation that may be issued and is not hindered is refused or leaves a
state that is ready again. -/
theorem serial_ready {next : AgentState} (ready : GuardReady s)
    (issuable : Issuable s.maxLeaderToken o) (unhindered : Unhindered s o)
    (succeeded : serial o s = .ok (reply, next)) : GuardReady next := by
  obtain ⟨changed, mutated, rfl, -⟩ := serial_ok succeeded
  exact (mutate_ready ready issuable unhindered mutated).pruned

end Barycenter.Dp
