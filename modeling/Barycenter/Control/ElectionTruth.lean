import Barycenter.Control.Election

/-!
# What the election says about itself

An invariant ties the fields of the election to the session that is current.
One step keeps it exactly when it is none of the three that write to the fields
of a session they do not belong to, and only then does the election stay
truthful.
-/

namespace Barycenter.Control

namespace ElectionWorld

variable {ι : Type} [DecidableEq ι]

@[simp] theorem put_election (world : ElectionWorld ι) (caller : ι) (call : ElectionCall) :
    (world.put caller call).election = world.election := rfl

@[simp] theorem put_opened (world : ElectionWorld ι) (caller : ι) (call : ElectionCall) :
    (world.put caller call).opened = world.opened := rfl

@[simp] theorem put_sessions (world : ElectionWorld ι) (caller : ι) (call : ElectionCall) :
    (world.put caller call).sessions = world.sessions := rfl

@[simp] theorem edit_election (world : ElectionWorld ι) (identity : Nat)
    (session : LeaderSession) : (world.edit identity session).election = world.election := rfl

@[simp] theorem edit_opened (world : ElectionWorld ι) (identity : Nat)
    (session : LeaderSession) : (world.edit identity session).opened = world.opened := rfl

@[simp] theorem edit_calls (world : ElectionWorld ι) (identity : Nat)
    (session : LeaderSession) : (world.edit identity session).calls = world.calls := rfl

theorem put_calls (world : ElectionWorld ι) (caller : ι) (call : ElectionCall) (other : ι) :
    (world.put caller call).calls other =
      if other = caller then call else world.calls other :=
  Function.update_apply ..

theorem edit_sessions (world : ElectionWorld ι) (identity : Nat) (session : LeaderSession)
    (other : Nat) :
    (world.edit identity session).sessions other =
      if other = identity then session else world.sessions other :=
  Function.update_apply ..

/-! ## The property and its condition -/

/-- The election leads exactly while the current session has the lock and has not
reported a loss, and then shows the token of that session. -/
def Truthful (world : ElectionWorld ι) : Prop :=
  (world.election.state.isLeader = true ↔
      ∃ identity, world.election.session = some identity ∧ (world.sessions identity).Leads) ∧
    ∀ identity, world.election.session = some identity → world.election.state.isLeader = true →
      world.election.state.token = some (world.sessions identity).token

/-- What another session reports leaves everything that is kept about the current
one as it is. -/
def Undisturbed (event : Event (ElectionWorld ι) (ElectionAction ι)) : Prop :=
  ∀ identity kind why current, event.label = .loss identity kind why →
    event.before.election.session = some current → identity ≠ current →
      event.after.election = event.before.election

/-- A session is installed only if nothing came early; a release goes on only
while nobody leads; and a report of another session is heard only while none is
current, or the current one is lost and its reason stays. -/
def Careful (world : ElectionWorld ι) : ElectionAction ι → Prop
  | .install caller =>
      ∀ identity ∈ (world.calls caller).toInstall, (world.sessions identity).early = []
  | .released _ => world.election.isLeader = false
  | .loss identity kind why =>
      ∀ current ∈ world.election.session, identity ≠ current →
        (world.sessions identity).listening = true →
          world.election.lost = true ∧ (kind = .error → world.election.reason = some why)
  | _ => True

instance (world : ElectionWorld ι) : DecidablePred world.Careful
  | .install caller =>
      inferInstanceAs (Decidable (∀ identity ∈ (world.calls caller).toInstall, _ = _))
  | .released _ => inferInstanceAs (Decidable (_ = _))
  | .loss identity _ _ =>
      inferInstanceAs (Decidable (∀ current ∈ world.election.session, identity ≠ current → _))
  | .tryAcquire _ | .refused _ _ | .granted _ _ | .release _ => .isTrue trivial

/-! ## The invariant -/

/-- The fields are those of this session, as far as they are read. -/
structure Reflects (election : LeaderElection) (session : LeaderSession) : Prop where
  listening : session.listening = true
  loss : election.lost = session.reported
  kept : election.lost = false → session.holds = true ∧ election.token = some session.token
  explained : election.lost = true → election.reason.isSome = true

structure Sound (world : ElectionWorld ι) : Prop where
  current : ∀ identity, world.election.session = some identity →
    identity < world.opened ∧ (∀ caller, world.calls caller ≠ .releasing identity) ∧
      Reflects world.election (world.sessions identity)
  pending : ∀ caller identity, world.calls caller = .opened identity →
    identity < world.opened ∧ (world.sessions identity).listening = false ∧
      ((world.sessions identity).early = [] ↔ (world.sessions identity).Leads)
  alone : ∀ caller other identity, world.calls caller = .opened identity →
    world.calls other = .opened identity → caller = other
  leaving : ∀ caller identity, world.calls caller = .releasing identity →
    identity < world.opened ∧ (world.sessions identity).listening = true

theorem sound_initial : Sound ({} : ElectionWorld ι) := by
  constructor <;> simp

theorem Sound.truthful {world : ElectionWorld ι} (sound : world.Sound) : world.Truthful := by
  cases current : world.election.session with
  | none => simp [Truthful, LeaderElection.state, LeaderElection.isLeader, current]
  | some identity =>
      obtain ⟨_, _, reflects⟩ := sound.current identity current
      have loss := reflects.loss
      have kept := reflects.kept
      constructor
      · simp only [LeaderElection.state, LeaderElection.isLeader, current, Option.isSome_some,
          Bool.true_and, Option.some.injEq, exists_eq_left', LeaderSession.Leads]
        grind
      · intro same equal leads
        obtain rfl : identity = same := Option.some.inj (current.symm.trans equal)
        simp only [LeaderElection.state, LeaderElection.isLeader, current, Option.isSome_some,
          Bool.true_and, Bool.not_eq_true'] at leads ⊢
        simp [leads, (kept leads).2]

/-! ## One step -/

variable {before after : ElectionWorld ι} {action : ElectionAction ι}

theorem act_cases (step : Step before action after) :
    (∃ caller, action = .tryAcquire caller ∧ before.calls caller = .idle ∧
      (after = before ∨ after = before.put caller .acquiring)) ∨
    (∃ caller why, action = .refused caller why ∧ before.calls caller = .acquiring ∧
      after = ({ before with
        election := { before.election with reason := some why } } : ElectionWorld ι).put
          caller .idle) ∨
    (∃ caller since, action = .granted caller since ∧ before.calls caller = .acquiring ∧
      after = (({ before with
        opened := before.opened + 1
        tokenSeq := before.tokenSeq + 1 } : ElectionWorld ι).edit before.opened
          { token := before.tokenSeq + 1, since := since }).put caller
            (.opened before.opened)) ∨
    (∃ caller identity, action = .install caller ∧ before.calls caller = .opened identity ∧
      after = (({ before with
        election := before.election.installed identity (before.sessions identity) } :
          ElectionWorld ι).edit identity (before.sessions identity).attach).put caller .idle) ∨
    (∃ caller, action = .release caller ∧ before.calls caller = .idle ∧
      before.election.session = none ∧ after = before) ∨
    (∃ caller identity, action = .release caller ∧ before.calls caller = .idle ∧
      before.election.session = some identity ∧
      after = ({ before with
        election := { before.election with session := none } } : ElectionWorld ι).put caller
          (.releasing identity)) ∨
    (∃ caller identity, action = .released caller ∧ before.calls caller = .releasing identity ∧
      after = (({ before with
        election := before.election.steppedDown } : ElectionWorld ι).edit identity
            (before.sessions identity).close).put caller .idle) ∨
    (∃ identity kind why, action = .loss identity kind why ∧ identity < before.opened ∧
      after = ({ before with
        election :=
          if (before.sessions identity).listening then before.election.hear kind why
          else before.election } : ElectionWorld ι).edit identity
            ((before.sessions identity).lose kind why)) := by
  cases action with
  | tryAcquire caller | refused caller why | granted caller since | install caller
    | release caller | released caller | loss identity kind why =>
      simp only [Step, act] at step; grind

theorem sound_step
    (step : Step before action after) (sound : before.Sound) (careful : before.Careful action) :
    after.Sound := by
  obtain ⟨current, pending, alone, leaving⟩ := sound
  rcases act_cases step with ⟨caller, rfl, idle, rfl | rfl⟩ | ⟨caller, why, rfl, waiting, rfl⟩ |
    ⟨caller, since, rfl, waiting, rfl⟩ | ⟨caller, identity, rfl, waiting, rfl⟩ |
    ⟨caller, rfl, idle, none, rfl⟩ | ⟨caller, identity, rfl, idle, held, rfl⟩ |
    ⟨caller, identity, rfl, waiting, rfl⟩ | ⟨identity, kind, why, rfl, known, rfl⟩
  · exact ⟨current, pending, alone, leaving⟩
  · constructor <;> simp only [put_election, put_opened, put_sessions, put_calls] <;> grind
  · constructor <;> simp only [put_election, put_opened, put_sessions, put_calls]
    · intro identity here
      obtain ⟨below, staying, reflects⟩ := current identity here
      exact ⟨below, by grind, ⟨reflects.listening, reflects.loss, reflects.kept, fun _ => rfl⟩⟩
    all_goals grind
  · constructor <;> simp only [put_election, put_opened, put_sessions, put_calls, edit_election,
      edit_opened, edit_calls, edit_sessions, LeaderSession.Leads]
    · grind
    · grind [LeaderSession.Leads]
    · grind
    · grind
  · obtain ⟨below, unheard, fresh⟩ := pending caller identity waiting
    have leads := fresh.mp (careful identity (by simp [waiting, ElectionCall.toInstall]))
    constructor <;> simp only [put_election, put_opened, put_sessions, put_calls, edit_election,
      edit_opened, edit_calls, edit_sessions, LeaderElection.installed_eq]
    · rintro other ⟨⟩
      refine ⟨below, by grind, ?_⟩
      rw [if_pos rfl]
      exact ⟨rfl, leads.2.symm, fun _ => ⟨leads.1, rfl⟩, fun absurd => nomatch absurd⟩
    all_goals grind
  · exact ⟨current, pending, alone, leaving⟩
  · constructor <;> simp only [put_election, put_opened, put_sessions, put_calls]
    · simp
    · grind
    · grind
    · have reflects := (current identity held).2.2.listening
      grind
  · have quiet : before.election.isLeader = false := careful
    obtain ⟨below, heard⟩ := leaving caller identity waiting
    constructor <;> simp only [put_election, put_opened, put_sessions, put_calls, edit_election,
      edit_opened, edit_calls, edit_sessions]
    · intro other (here : before.election.session = some other)
      obtain ⟨within, staying, reflects⟩ := current other here
      have lost : before.election.lost = true := by
        simpa [LeaderElection.isLeader, here] using quiet
      have apart : other ≠ identity := fun same => staying caller (same ▸ waiting)
      rw [if_neg apart]
      refine ⟨within, by grind, reflects.listening, reflects.loss, ?_, fun _ => rfl⟩
      exact fun still => absurd (lost.symm.trans still) (by decide)
    · grind
    · grind
    · grind [LeaderSession.close]
  · constructor <;> simp only [edit_election, edit_opened, edit_calls, edit_sessions]
    · intro other here
      have same : before.election.session = some other := by
        revert here
        split <;> simp
      obtain ⟨within, staying, reflects⟩ := current other same
      refine ⟨within, staying, ?_⟩
      by_cases own : other = identity
      · subst own
        rw [if_pos rfl, if_pos reflects.listening]
        exact ⟨by simp [reflects.listening], by simp, by simp,
          fun _ => LeaderElection.hear_reason ..⟩
      · rw [if_neg own]
        split
        · rename_i heard
          have known := careful other same (Ne.symm own) heard
          rwa [(LeaderElection.hear_eq_self_iff _ _ _ reflects.explained).mpr known]
        · exact reflects
    · grind [LeaderSession.lose_listening, LeaderSession.lose_early, LeaderSession.lose_reported,
        LeaderSession.Leads]
    · exact alone
    · grind [LeaderSession.lose_listening]

/-- A step that is not careful makes the election lie, or lets another session
change what is kept about the current one. -/
theorem careful_of_faithful
    (step : Step before action after) (sound : before.Sound) (truthful : after.Truthful)
    (undisturbed : Undisturbed ⟨before, action, after⟩) : before.Careful action := by
  rcases act_cases step with ⟨caller, rfl, idle, _⟩ | ⟨caller, why, rfl, waiting, _⟩ |
    ⟨caller, since, rfl, waiting, _⟩ | ⟨caller, identity, rfl, waiting, rfl⟩ |
    ⟨caller, rfl, idle, _⟩ | ⟨caller, identity, rfl, idle, held, _⟩ |
    ⟨caller, identity, rfl, waiting, rfl⟩ | ⟨identity, kind, why, rfl, known, rfl⟩
  · trivial
  · trivial
  · trivial
  · -- the election leads after an installation, so the session must have been good
    intro same named
    obtain rfl : identity = same := by simpa [waiting, ElectionCall.toInstall] using named
    have leading := truthful.1.mp (by
      simp [LeaderElection.state, LeaderElection.isLeader, LeaderElection.installed_eq])
    simp only [put_election, put_sessions, edit_election, edit_sessions,
      LeaderElection.installed_eq, Option.some.injEq, exists_eq_left', if_true,
      LeaderSession.Leads, LeaderSession.attach_holds, LeaderSession.attach_reported] at leading
    exact (sound.pending caller identity waiting).2.2.mpr leading
  · trivial
  · trivial
  · -- a release that goes on while another session leads takes its token away
    by_contra leads
    have leads : before.election.isLeader = true := by simpa [Careful] using leads
    obtain ⟨current, here⟩ : ∃ current, before.election.session = some current :=
      Option.isSome_iff_exists.mp (by simp_all [LeaderElection.isLeader])
    have shown := truthful.2 current here leads
    have gone : before.election.steppedDown.state.token = none := if_pos leads
    exact nomatch gone.symm.trans shown
  · intro current here apart heard
    have kept := undisturbed identity kind why current rfl here apart
    simp only [edit_election, heard, if_true] at kept
    exact (LeaderElection.hear_eq_self_iff _ _ _ (sound.current current here).2.2.explained).mp
      kept

theorem undisturbed_of_careful
    (step : Step before action after) (sound : before.Sound) (careful : before.Careful action) :
    Undisturbed ⟨before, action, after⟩ := by
  intro identity kind why current named here apart
  obtain rfl : action = .loss identity kind why := named
  simp only [Step, act, Option.ite_none_right_eq_some, Option.some.injEq] at step
  obtain ⟨_, rfl⟩ := step
  simp only [edit_election]
  split
  · rename_i heard
    exact (LeaderElection.hear_eq_self_iff _ _ _ (sound.current current here).2.2.explained).mpr
      (careful current here apart heard)
  · rfl

/-! ## Whole runs -/

/-- In a run from the start the election is truthful in every state, and no
session disturbs a later one, exactly when every step is careful. -/
theorem leadership_truthful_iff {final : ElectionWorld ι}
    {history : List (Event (ElectionWorld ι) (ElectionAction ι))}
    (run : Follows Step {} history final) :
    (Truthful ({} : ElectionWorld ι) ∧
        ∀ event ∈ history, event.after.Truthful ∧ Undisturbed event) ↔
      ∀ event ∈ history, event.before.Careful event.label := by
  have along := run.exactly Sound (fun event => event.after.Truthful ∧ Undisturbed event)
    (fun event => event.before.Careful event.label) sound_initial
    (fun event step sound => by
      constructor
      · rintro ⟨truthful, undisturbed⟩
        exact careful_of_faithful step sound truthful undisturbed
      · intro careful
        exact ⟨(sound_step step sound careful).truthful,
          undisturbed_of_careful step sound careful⟩)
    (fun event step sound careful => sound_step step sound careful)
  rw [← along]
  exact and_iff_right sound_initial.truthful

/-- A lock that is lost, won again, released and won again, with the end of each
session told before the next one is installed. -/
def lossesInOrder : List (ElectionAction Bool) :=
  [.tryAcquire true, .granted true "t1", .install true, .loss 0 .error "cut", .loss 0 .ended "end",
    .tryAcquire true, .granted true "t2", .install true, .release true, .loss 1 .ended "end",
    .released true, .tryAcquire true, .granted true "t3", .install true]

theorem leadership_truthful_lossesInOrder :
    ∃ history final, Follows Step ({} : ElectionWorld Bool) history final ∧
      history.map Event.label = lossesInOrder ∧
      (∀ event ∈ history, event.after.Truthful ∧ Undisturbed event) ∧
      final.election.state.token = some 3 := by
  obtain ⟨history, final, run, labels, evaluated⟩ := @follows_of_attempt _ _
    (@act Bool _) {} lossesInOrder
    (fun (history, final) =>
      history.all (fun event => decide (event.before.Careful event.label)) &&
        decide (final.election.state.token = some 3)) (by decide +kernel)
  simp only [Bool.and_eq_true, List.all_eq_true, decide_eq_true_eq] at evaluated
  obtain ⟨careful, shown⟩ := evaluated
  exact ⟨history, final, run, labels, ((leadership_truthful_iff run).mpr careful).2, shown⟩

/-- The first session breaks off, the second one is installed, and then the first
one is closed. -/
def lateEnd : List (ElectionAction Bool) :=
  [.tryAcquire true, .granted true "t1", .install true, .loss 0 .error "cut", .tryAcquire true,
    .granted true "t2", .install true, .loss 0 .ended "end"]

/-- A session breaks off before its callback is attached. -/
def earlyEnd : List (ElectionAction Bool) :=
  [.tryAcquire true, .granted true "t1", .loss 0 .ended "end", .install true]

/-- A new session is installed before the release of the old one goes on. -/
def slowRelease : List (ElectionAction Bool) :=
  [.tryAcquire true, .granted true "t1", .install true, .release true, .loss 0 .ended "end",
    .tryAcquire false, .granted false "t2", .install false, .released true]

/-- A late end makes the election deny a session that leads; a session that was
lost early is believed; a slow release takes the token of the newer session. -/
theorem leadership_untruthful :
    (∃ history final, Follows Step ({} : ElectionWorld Bool) history final ∧
      history.map Event.label = lateEnd ∧ final.election.session = some 1 ∧
      (final.sessions 1).Leads ∧ final.election.state.isLeader = false) ∧
    (∃ history final, Follows Step ({} : ElectionWorld Bool) history final ∧
      history.map Event.label = earlyEnd ∧ final.election.session = some 0 ∧
      (final.sessions 0).reported = true ∧ final.election.state.isLeader = true) ∧
    (∃ history final, Follows Step ({} : ElectionWorld Bool) history final ∧
      history.map Event.label = slowRelease ∧ final.election.session = some 1 ∧
      (final.sessions 1).Leads ∧ final.election.state.isLeader = true ∧
      final.election.state.token = none) := by
  refine ⟨?_, ?_, ?_⟩
  · obtain ⟨history, final, run, labels, evaluated⟩ := @follows_of_attempt _ _
      (@act Bool _) {} lateEnd
      (fun (_, final) => decide (final.election.session = some 1 ∧ (final.sessions 1).Leads ∧
        final.election.state.isLeader = false)) (by decide +kernel)
    exact ⟨history, final, run, labels, of_decide_eq_true evaluated⟩
  · obtain ⟨history, final, run, labels, evaluated⟩ := @follows_of_attempt _ _
      (@act Bool _) {} earlyEnd
      (fun (_, final) => decide (final.election.session = some 0 ∧
        (final.sessions 0).reported = true ∧ final.election.state.isLeader = true))
      (by decide +kernel)
    exact ⟨history, final, run, labels, of_decide_eq_true evaluated⟩
  · obtain ⟨history, final, run, labels, evaluated⟩ := @follows_of_attempt _ _
      (@act Bool _) {} slowRelease
      (fun (_, final) => decide (final.election.session = some 1 ∧ (final.sessions 1).Leads ∧
        final.election.state.isLeader = true ∧ final.election.state.token = none))
      (by decide +kernel)
    exact ⟨history, final, run, labels, of_decide_eq_true evaluated⟩

end ElectionWorld

end Barycenter.Control
