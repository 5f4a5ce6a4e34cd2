import Barycenter.Dp.FileStore

/-!
# One writer of the state file

A live handle that has the lock keeps it, as long as nobody unlinks the lock of
another who lives.  A lock is taken over from a holder that was found dead, and
the dead stay dead; so it is enough that the lock is still the one that was read
when it is unlinked.  Then the saves form one chain.
-/

namespace Barycenter.Dp.Files

variable {Data : Type}

/-! ## What a handle has -/

namespace Phase

def record : Phase Data → Option LockRecord
  | .linking _ record | .linked record => some record
  | .judging _ holder | .rechecking _ holder | .reclaiming _ holder => some holder
  | _ => none

def condemned : Phase Data → Option LockRecord
  | .rechecking _ holder | .reclaiming _ holder => some holder
  | _ => none

/-- The lock record that the handle read twice and is about to unlink. -/
def reclaimed : Phase Data → Option LockRecord
  | .reclaiming _ holder => some holder
  | _ => none

def saving : Phase Data → Bool
  | .looking _ | .loading _ | .opening _ _ | .writing _ _ | .replacing _ _ | .syncing _ => true
  | _ => false

/-- The handle does not have its nonce yet, or has it no more. -/
def unset : Phase Data → Bool
  | .drafting _ | .linking _ _ | .linked _ | .contested _ | .judging _ _ | .rechecking _ _
  | .reclaiming _ _ | .refused | .releasing _ | .unlinking _ => true
  | _ => false

/-- The save has checked its version against this state. -/
def pending : Phase Data → Option (Option (StoredState Data) × StoredState Data)
  | .opening current state | .writing current state | .replacing current state =>
      some (current, state)
  | _ => none

end Phase

/-- The nonce under which a handle has the lock, from the link to the unlink. -/
def Handle.claim (handle : Handle Data) : Option Nonce :=
  match handle.phase with
  | .linked record => some record.nonce
  | .releasing nonce | .unlinking nonce => some nonce
  | _ => handle.nonce

namespace World

def host (world : World Data) (id : Nat) : Option Nat := (world.handles id).map Handle.process

/-- A record that a handle of this run has written tells its process. -/
def Genuine (world : World Data) (record : LockRecord) : Prop :=
  ∀ id attempt, record.nonce = .drawn id attempt →
    ∃ process found, world.host id = some process ∧ world.processes process = some found ∧
      record.pid = found.pid ∧ (record.startedAt = none ∨ record.startedAt = some found.start)

def Gone (world : World Data) (record : LockRecord) : Prop :=
  ∀ id attempt process, record.nonce = .drawn id attempt → world.host id = some process →
    world.alive process = false

/-- What is true of a handle whether or not its process lives. -/
structure Kept (world : World Data) (id : Nat) (handle : Handle Data) : Prop where
  hosted : ∃ found, world.processes handle.process = some found
  own : ∀ nonce, handle.claim = some nonce → ∃ attempt, nonce = .drawn id attempt
  drawn : ∀ attempt record, handle.phase = .linking attempt record →
    record.nonce = .drawn id attempt
  genuine : ∀ record, handle.phase.record = some record → world.Genuine record
  gone : ∀ record, handle.phase.condemned = some record → world.Gone record
  unset : handle.phase.unset = true → handle.nonce = none
  saving : handle.phase.saving = true → handle.nonce.isSome = true

structure Owns (digestOf : StoredState Data → String) (world : World Data)
    (handle : Handle Data) : Prop where
  lock : ∀ nonce, handle.claim = some nonce → nonceOf world.lock = some nonce
  current : ∀ current state, handle.phase.pending = some (current, state) →
    readState digestOf world.file = .ok current ∧ state.version = versionOf current + 1
  written : ∀ current state, handle.phase = .replacing current state →
    ∀ found, world.processes handle.process = some found →
      world.tmps found.pid handle.tmpCounter = some (.envelope (envelopeOf digestOf state))
  synced : ∀ state, handle.phase = .syncing state →
    readState digestOf world.file = .ok (some state) ∧
      (∃ save ∈ world.replaced, save.state = state) ∧
      ∀ earlier ∈ world.saved, earlier.version < state.version

end World

/-! ## The chain of saves -/

/-- Every save was checked against the state that the save before it has left. -/
inductive Chain (first : Except StoreCorrupted (Option (StoredState Data))) :
    List (Replaced Data) → Except StoreCorrupted (Option (StoredState Data)) → Prop where
  | first : Chain first [] first
  | next {earlier : List (Replaced Data)} {current : Option (StoredState Data)}
      {state : StoredState Data} (before : Chain first earlier (.ok current))
      (version : state.version = versionOf current + 1) :
      Chain first (earlier ++ [⟨current, state⟩]) (.ok (some state))

variable {replaced : List (Replaced Data)}

theorem Chain.newest {first last : Except StoreCorrupted (Option (StoredState Data))}
    (chain : Chain first replaced last) :
    ∀ save ∈ replaced, ∃ current, last = .ok (some current) ∧
      save.state.version ≤ current.version := by
  induction chain with
  | first => simp
  | @next earlier current state before version induction =>
      intro save member
      refine ⟨state, rfl, ?_⟩
      rcases List.mem_append.mp member with old | new
      · obtain ⟨newest, same, below⟩ := induction save old
        cases same
        simp only [versionOf, Option.map_some, Option.getD_some] at version
        omega
      · obtain rfl := List.mem_singleton.mp new
        exact Nat.le_refl _

theorem Chain.increasing {first last : Except StoreCorrupted (Option (StoredState Data))}
    (chain : Chain first replaced last) :
    replaced.Pairwise fun earlier later => earlier.state.version < later.state.version := by
  induction chain with
  | first => exact .nil
  | @next earlier current state before version induction =>
      refine List.pairwise_append.mpr ⟨induction, List.pairwise_singleton _ _, ?_⟩
      intro save old new member
      obtain rfl := List.mem_singleton.mp member
      obtain ⟨newest, same, below⟩ := before.newest save old
      cases same
      simp only [versionOf, Option.map_some, Option.getD_some] at version
      simp only
      omega

namespace World

structure Sound (digestOf : StoredState Data → String)
    (first : Except StoreCorrupted (Option (StoredState Data))) (world : World Data) : Prop where
  pids : ∀ pid id, world.running pid = some id →
    ∃ found, world.processes id = some found ∧ found.pid = pid
  genuine : ∀ record, readLock world.lock = some record → world.Genuine record
  kept : ∀ id handle, world.handles id = some handle → world.Kept id handle
  owns : ∀ id handle, world.handles id = some handle → world.alive handle.process = true →
    world.Owns digestOf handle
  chain : Chain first world.replaced (readState digestOf world.file)
  recorded : ∀ state ∈ world.saved, ∃ save ∈ world.replaced, save.state = state
  ordered : world.saved.Pairwise fun earlier later => earlier.version < later.version
  complete : ∀ save ∈ world.replaced, save.state ∈ world.saved ∨
    ∃ id handle, world.handles id = some handle ∧ handle.phase = .syncing save.state

def Sole (world : World Data) (id : Nat) : Prop :=
  ∀ other handle, world.handles other = some handle → world.alive handle.process = true →
    other ≠ id → handle.claim = none

variable {digestOf : StoredState Data → String}
  {first : Except StoreCorrupted (Option (StoredState Data))} {world : World Data}

variable {nonce : Nonce} {id : Nat} {handle : Handle Data}

theorem sole_of_claim (sound : world.Sound digestOf first)
    (found : world.handles id = some handle) (lives : world.alive handle.process = true)
    (claims : handle.claim = some nonce) : world.Sole id := by
  intro other rival there rivalLives different
  cases claim : rival.claim with
  | none => rfl
  | some rivalNonce =>
      have mine := (sound.owns id handle found lives).lock nonce claims
      have theirs := (sound.owns other rival there rivalLives).lock rivalNonce claim
      obtain ⟨attempt, rfl⟩ := (sound.kept id handle found).own nonce claims
      obtain ⟨rivalAttempt, rfl⟩ := (sound.kept other rival there).own rivalNonce claim
      rw [mine, Option.some.injEq, Nonce.drawn.injEq] at theirs
      exact absurd theirs.1.symm different

theorem sole_of_unlocked (sound : world.Sound digestOf first) (unlocked : world.lock = none) :
    world.Sole id := by
  intro other rival there rivalLives _
  cases claim : rival.claim with
  | none => rfl
  | some nonce =>
      have theirs := (sound.owns other rival there rivalLives).lock nonce claim
      simp [unlocked, nonceOf, readLock] at theirs

variable {holder : LockRecord}

theorem sole_of_gone (sound : world.Sound digestOf first) (gone : world.Gone holder)
    (still : nonceOf world.lock = some holder.nonce) : world.Sole id := by
  intro other rival there rivalLives _
  cases claim : rival.claim with
  | none => rfl
  | some nonce =>
      have theirs := (sound.owns other rival there rivalLives).lock nonce claim
      rw [still, Option.some.injEq] at theirs
      obtain ⟨attempt, rfl⟩ := (sound.kept other rival there).own nonce claim
      have dead := gone other attempt rival.process theirs (by simp [host, there])
      rw [rivalLives] at dead
      cases dead

variable {other : World Data}

theorem owns_of_unclaimed (kept : world.Kept id handle) (unclaimed : handle.claim = none) :
    other.Owns digestOf handle := by
  have idle : handle.phase.saving = false := by
    cases saves : handle.phase.saving with
    | false => rfl
    | true =>
        have has := kept.saving saves
        rcases handle with ⟨process, nonce, counter, phase⟩
        cases phase <;> simp_all [Handle.claim, Phase.saving]
  refine ⟨by simp [unclaimed], ?_, ?_, ?_⟩
  · intro current state pending
    cases phase : handle.phase <;> simp [phase, Phase.pending, Phase.saving] at pending idle
  · intro current state phase
    simp [phase, Phase.saving] at idle
  · intro state phase
    simp [phase, Phase.saving] at idle

/-! ## A handle goes on -/

theorem kept_transfer (kept : world.Kept id handle)
    (processes : other.processes = world.processes) (running : other.running = world.running)
    (hosts : other.host = world.host) : other.Kept id handle := by
  refine ⟨by simpa [processes] using kept.hosted, kept.own, kept.drawn, ?_, ?_, kept.unset,
    kept.saving⟩
  · simpa [Genuine, processes, hosts] using kept.genuine
  · simpa [Gone, alive, processes, running, hosts] using kept.gone

theorem owns_transfer (owns : world.Owns digestOf handle)
    (processes : other.processes = world.processes) (lock : other.lock = world.lock)
    (file : other.file = world.file) (tmps : other.tmps = world.tmps)
    (replaced : other.replaced = world.replaced) (saved : other.saved = world.saved) :
    other.Owns digestOf handle := by
  refine ⟨?_, ?_, ?_, ?_⟩
  · simpa [lock] using owns.lock
  · simpa [file] using owns.current
  · simpa [processes, tmps] using owns.written
  · simpa [file, replaced, saved] using owns.synced

/-- The files after a step, beside the handle that made it. -/
def withFiles (world : World Data) (lock : Option LockFile) (file : Option (FileContent Data))
    (tmps : Nat → Nat → Option (FileContent Data)) (replaced : List (Replaced Data))
    (saved : List (StoredState Data)) : World Data :=
  { world with lock := lock, file := file, tmps := tmps, replaced := replaced, saved := saved }

variable {next : Handle Data}

theorem host_setHandle (found : world.handles id = some handle)
    (process : next.process = handle.process) : (world.setHandle id next).host = world.host := by
  funext other
  unfold host setHandle
  by_cases same : other = id
  · subst same
    simp [found, process]
  · simp [same]

theorem continued {lock : Option LockFile} {file : Option (FileContent Data)}
    {tmps : Nat → Nat → Option (FileContent Data)} {saved : List (StoredState Data)}
    (sound : world.Sound digestOf first) (found : world.handles id = some handle)
    (process : next.process = handle.process) (kept : world.Kept id next)
    (owns : (world.withFiles lock file tmps replaced saved).Owns digestOf next)
    (others : lock = world.lock ∧ file = world.file ∧ tmps = world.tmps ∧
      replaced = world.replaced ∧ saved = world.saved ∨ world.Sole id)
    (genuine : ∀ record, readLock lock = some record → world.Genuine record)
    (chain : Chain first replaced (readState digestOf file))
    (recorded : ∀ state ∈ saved, ∃ save ∈ replaced, save.state = state)
    (ordered : saved.Pairwise fun earlier later => earlier.version < later.version)
    (complete : ∀ save ∈ replaced, save.state ∈ saved ∨ next.phase = .syncing save.state ∨
      handle.phase ≠ .syncing save.state ∧ save ∈ world.replaced ∧ save.state ∉ world.saved) :
    ((world.withFiles lock file tmps replaced saved).setHandle id next).Sound digestOf first := by
  have hosts : ((world.withFiles lock file tmps replaced saved).setHandle id next).host =
      world.host := by
    have there : (world.withFiles lock file tmps replaced saved).handles id = some handle := found
    have same := host_setHandle there process
    exact same
  refine ⟨sound.pids, ?_, ?_, ?_, chain, recorded, ordered, ?_⟩
  · intro record read
    have before := genuine record read
    simp only [Genuine, hosts]
    exact before
  · intro other one there
    by_cases same : other = id
    · subst same
      simp only [setHandle, Function.update_self, Option.some.injEq] at there
      exact there ▸ kept_transfer kept rfl rfl hosts
    · have before := sound.kept other one (by simpa [setHandle, withFiles, same] using there)
      exact kept_transfer before rfl rfl hosts
  · intro other one there lives
    by_cases same : other = id
    · subst same
      simp only [setHandle, Function.update_self, Option.some.injEq] at there
      subst there
      exact owns_transfer owns rfl rfl rfl rfl rfl rfl
    · have before : world.handles other = some one := by
        simpa [setHandle, withFiles, same] using there
      rcases others with ⟨rfl, rfl, rfl, rfl, rfl⟩ | sole
      · exact owns_transfer (sound.owns other one before lives) rfl rfl rfl rfl rfl rfl
      · exact owns_of_unclaimed (sound.kept other one before) (sole other one before lives same)
  · intro save member
    rcases complete save member with done | here | ⟨elsewhere, old, unsaved⟩
    · exact .inl done
    · exact .inr ⟨id, next, by simp [setHandle], here⟩
    · rcases sound.complete save old with done | ⟨other, one, there, syncing⟩
      · exact absurd done unsaved
      · have different : other ≠ id := by
          rintro rfl
          rw [found] at there
          cases there
          exact elsewhere syncing
        exact .inr ⟨other, one, by simpa [setHandle, withFiles, different] using there, syncing⟩

theorem rearranged {lock : Option LockFile} {tmps : Nat → Nat → Option (FileContent Data)}
    (sound : world.Sound digestOf first) (found : world.handles id = some handle)
    (process : next.process = handle.process) (unsynced : ∀ state, handle.phase ≠ .syncing state)
    (kept : world.Kept id next)
    (owns : ({ world with lock := lock, tmps := tmps } : World Data).Owns digestOf next)
    (others : lock = world.lock ∧ tmps = world.tmps ∨ world.Sole id)
    (genuine : ∀ record, readLock lock = some record → world.Genuine record) :
    (({ world with lock := lock, tmps := tmps } : World Data).setHandle id next).Sound
      digestOf first := by
  have complete : ∀ save ∈ world.replaced, save.state ∈ world.saved ∨
      next.phase = .syncing save.state ∨
      handle.phase ≠ .syncing save.state ∧ save ∈ world.replaced ∧ save.state ∉ world.saved := by
    intro save member
    by_cases done : save.state ∈ world.saved
    · exact .inl done
    · exact .inr (.inr ⟨unsynced save.state, member, done⟩)
  have onward : ((world.withFiles lock world.file tmps world.replaced
      world.saved).setHandle id next).Sound digestOf first :=
    continued sound found process kept (owns_transfer owns rfl rfl rfl rfl rfl rfl)
      (others.imp_left fun same => ⟨same.1, rfl, same.2, rfl, rfl⟩) genuine sound.chain
      sound.recorded sound.ordered complete
  exact onward

theorem moved (sound : world.Sound digestOf first) (found : world.handles id = some handle)
    (process : next.process = handle.process) (unsynced : ∀ state, handle.phase ≠ .syncing state)
    (kept : world.Kept id next) (owns : world.Owns digestOf next) :
    (world.setHandle id next).Sound digestOf first :=
  rearranged sound found process unsynced kept (owns_transfer owns rfl rfl rfl rfl rfl rfl)
    (.inl ⟨rfl, rfl⟩) sound.genuine

/-! ## The calls of a handle -/

variable {seen : Option Nat}

theorem gone_of_not_holding
    (genuine : world.Genuine holder) (truth : world.truthful holder.pid seen = true)
    (dead : world.stillHolding holder seen = false) : world.Gone holder := by
  intro id attempt process nonce hosted
  obtain ⟨writer, found, host, there, pid, started⟩ := genuine id attempt nonce
  rw [hosted, Option.some.injEq] at host
  subst host
  simp only [alive, there, ← pid]
  unfold stillHolding at dead
  cases runs : world.running holder.pid with
  | none => rfl
  | some other =>
      simp only [runs] at dead
      split at dead
      · rename_i wrote told startedAt
        rw [startedAt] at started
        have startOf : world.startTimeOf holder.pid = some told := by
          simp only [truthful, Bool.or_eq_true, beq_iff_eq, reduceCtorEq, false_or] at truth
          exact truth.symm
        have different : other ≠ process := by
          rintro rfl
          simp only [startTimeOf, runs, Option.bind_some, there, Option.map_some,
            Option.some.injEq] at startOf
          simp [startOf, eq_comm] at started
          simp [started] at dead
        simpa using different
      · cases dead

variable {id : Nat} {handle : Handle Data} {process : Process}

theorem alive_of_running (there : world.processes handle.process = some process)
    (runs : world.running process.pid = some handle.process) :
    world.alive handle.process = true := by
  simp [alive, there, runs]

variable {phase : Phase Data}

theorem kept_plain (kept : world.Kept id handle)
    (claims : ({ handle with phase := phase } : Handle Data).claim = none ∨
      ({ handle with phase := phase } : Handle Data).claim = handle.claim)
    (record : phase.record = none) (condemned : phase.condemned = none)
    (saving : phase.saving = false) (unset : phase.unset = true → handle.nonce = none) :
    world.Kept id { handle with phase := phase } := by
  refine ⟨kept.hosted, ?_, ?_, ?_, ?_, unset, ?_⟩
  · intro nonce claim
    rcases claims with none | same
    · rw [none] at claim
      cases claim
    · exact kept.own nonce (same ▸ claim)
  · intro attempt one linking
    simp only at linking
    simp [linking, Phase.record] at record
  · simp [record]
  · simp [condemned]
  · simp [saving]

theorem owns_plain
    (lock : ∀ nonce, ({ handle with phase := phase } : Handle Data).claim = some nonce →
      nonceOf other.lock = some nonce)
    (saving : phase.saving = false) :
    other.Owns digestOf ({ handle with phase := phase } : Handle Data) := by
  refine ⟨lock, ?_, ?_, ?_⟩
  · intro current state pending
    cases phase <;> simp [Phase.pending, Phase.saving] at pending saving
  · intro current state same
    simp only at same
    simp [same, Phase.saving] at saving
  · intro state same
    simp only at same
    simp [same, Phase.saving] at saving

theorem drafting_sound {attempt : Nat} (sound : world.Sound digestOf first)
    (found : world.handles id = some handle)
    (there : world.processes handle.process = some process)
    (runs : world.running process.pid = some handle.process)
    (phase : handle.phase = .drafting attempt) (truth : world.truthful process.pid seen = true) :
    (world.setHandle id { handle with
      phase := .linking attempt
        { pid := process.pid, nonce := .drawn id attempt, startedAt := seen } }).Sound
          digestOf first := by
  have kept := sound.kept id handle found
  have unset : handle.nonce = none := kept.unset (by simp [phase, Phase.unset])
  refine moved sound found rfl (by simp [phase]) ?_ (owns_plain ?_ rfl)
  · refine ⟨kept.hosted, ?_, ?_, ?_, by simp [Phase.condemned], fun _ => unset,
      by simp [Phase.saving]⟩
    · intro nonce claim
      simp [Handle.claim, unset] at claim
    · intro other record same
      simp only [Phase.linking.injEq] at same
      rw [← same.1, ← same.2]
    · intro record same
      simp only [Phase.record, Option.some.injEq] at same
      subst same
      intro other otherAttempt nonce
      simp only [Nonce.drawn.injEq] at nonce
      refine ⟨handle.process, process, by simp [host, ← nonce.1, found], there, rfl, ?_⟩
      have startOf : world.startTimeOf process.pid = some process.start := by
        simp [startTimeOf, runs, there]
      simpa [truthful, startOf] using truth
  · intro nonce claim
    simp [Handle.claim, unset] at claim

variable {record : LockRecord}

theorem linking_sound {attempt : Nat} (sound : world.Sound digestOf first)
    (found : world.handles id = some handle) (phase : handle.phase = .linking attempt record)
    (unlocked : world.lock = none) :
    (({ world with lock := some (.record record) } : World Data).setHandle id
      { handle with phase := .linked record }).Sound digestOf first := by
  have kept := sound.kept id handle found
  have unset : handle.nonce = none := kept.unset (by simp [phase, Phase.unset])
  have genuine : world.Genuine record := kept.genuine record (by simp [phase, Phase.record])
  refine rearranged sound found rfl (by simp [phase]) ?_ (owns_plain ?_ rfl)
    (.inr (sole_of_unlocked sound unlocked)) ?_
  · refine ⟨kept.hosted, ?_, by simp, ?_, by simp [Phase.condemned], fun _ => unset,
      by simp [Phase.saving]⟩
    · intro nonce claim
      simp only [Handle.claim, Option.some.injEq] at claim
      exact ⟨attempt, claim ▸ kept.drawn attempt record phase⟩
    · intro other same
      simp only [Phase.record, Option.some.injEq] at same
      exact same ▸ genuine
  · intro nonce claim
    simp only [Handle.claim, Option.some.injEq] at claim
    simp [nonceOf, readLock, claim]
  · intro other read
    simp only [readLock, Option.some.injEq] at read
    exact read ▸ genuine

theorem linked_sound (sound : world.Sound digestOf first)
    (found : world.handles id = some handle) (lives : world.alive handle.process = true)
    (phase : handle.phase = .linked record) :
    (world.setHandle id { handle with nonce := some record.nonce, phase := .ready }).Sound
      digestOf first := by
  have kept := sound.kept id handle found
  have owns := sound.owns id handle found lives
  have claims : handle.claim = some record.nonce := by simp [Handle.claim, phase]
  refine moved sound found rfl (by simp [phase]) ?_ ?_
  · refine ⟨kept.hosted, ?_, by simp, by simp [Phase.record], by simp [Phase.condemned],
      by simp [Phase.unset], by simp [Phase.saving]⟩
    intro nonce claim
    exact kept.own nonce (claims.trans claim)
  · refine ⟨?_, by simp [Phase.pending], by simp, by simp⟩
    intro nonce claim
    exact owns.lock nonce (claims.trans claim)

theorem retry_cases (attempt : Nat) :
    (retry attempt : Phase Data) = .drafting (attempt + 1) ∨
      (retry attempt : Phase Data) = .refused := by
  unfold retry
  split
  · exact .inl rfl
  · exact .inr rfl

theorem unset_sound {lock : Option LockFile}
    (sound : world.Sound digestOf first) (found : world.handles id = some handle)
    (unsynced : ∀ state, handle.phase ≠ .syncing state) (unset : handle.nonce = none)
    (phases : phase = .refused ∨ phase = .ready ∨ (∃ attempt, phase = .drafting attempt) ∨
      ∃ attempt, phase = .contested attempt)
    (locks : lock = world.lock ∨ lock = none ∧ world.Sole id) :
    (({ world with lock := lock } : World Data).setHandle id
      { handle with phase := phase }).Sound digestOf first := by
  have kept := sound.kept id handle found
  have claims : ({ handle with phase := phase } : Handle Data).claim = none := by
    rcases phases with rfl | rfl | ⟨attempt, rfl⟩ | ⟨attempt, rfl⟩ <;> exact unset
  have saving : phase.saving = false := by
    rcases phases with rfl | rfl | ⟨attempt, rfl⟩ | ⟨attempt, rfl⟩ <;> rfl
  refine rearranged sound found rfl unsynced ?_ (owns_plain (by simp [claims]) saving) ?_ ?_
  · refine kept_plain kept (.inl claims) ?_ ?_ saving fun _ => unset
    · rcases phases with rfl | rfl | ⟨attempt, rfl⟩ | ⟨attempt, rfl⟩ <;> rfl
    · rcases phases with rfl | rfl | ⟨attempt, rfl⟩ | ⟨attempt, rfl⟩ <;> rfl
  · rcases locks with same | ⟨-, sole⟩
    · exact .inl ⟨same, rfl⟩
    · exact .inr sole
  · rcases locks with same | ⟨rfl, -⟩
    · exact same ▸ sound.genuine
    · simp [readLock]

theorem holder_sound (sound : world.Sound digestOf first) (found : world.handles id = some handle)
    (unsynced : ∀ state, handle.phase ≠ .syncing state) (unset : handle.nonce = none)
    (genuine : world.Genuine holder)
    (phases : (∃ attempt, phase = .judging attempt holder) ∨
      ((∃ attempt, phase = .rechecking attempt holder) ∨
        ∃ attempt, phase = .reclaiming attempt holder) ∧ world.Gone holder) :
    (world.setHandle id { handle with phase := phase }).Sound digestOf first := by
  have kept := sound.kept id handle found
  have claims : ({ handle with phase := phase } : Handle Data).claim = none := by
    rcases phases with ⟨attempt, rfl⟩ | ⟨⟨attempt, rfl⟩ | ⟨attempt, rfl⟩, -⟩ <;> exact unset
  have saving : phase.saving = false := by
    rcases phases with ⟨attempt, rfl⟩ | ⟨⟨attempt, rfl⟩ | ⟨attempt, rfl⟩, -⟩ <;> rfl
  refine moved sound found rfl unsynced ?_ (owns_plain (by simp [claims]) saving)
  refine ⟨kept.hosted, by simp [claims], ?_, ?_, ?_, fun _ => unset, by simp [saving]⟩
  · rcases phases with ⟨attempt, rfl⟩ | ⟨⟨attempt, rfl⟩ | ⟨attempt, rfl⟩, -⟩ <;> simp
  · intro record same
    have here : record = holder := by
      rcases phases with ⟨attempt, rfl⟩ | ⟨⟨attempt, rfl⟩ | ⟨attempt, rfl⟩, -⟩ <;>
        simpa [Phase.record, eq_comm] using same
    exact here ▸ genuine
  · intro record same
    rcases phases with ⟨attempt, rfl⟩ | ⟨others, gone⟩
    · simp [Phase.condemned] at same
    · have here : record = holder := by
        rcases others with ⟨attempt, rfl⟩ | ⟨attempt, rfl⟩ <;>
          simpa [Phase.condemned, eq_comm] using same
      exact here ▸ gone

theorem saving_sound (sound : world.Sound digestOf first)
    (found : world.handles id = some handle) (lives : world.alive handle.process = true)
    (ordinary : handle.claim = handle.nonce) (unsynced : ∀ state, handle.phase ≠ .syncing state)
    (phases : phase = .ready ∨ (∃ state, phase = .asserting state) ∨
      handle.nonce.isSome = true ∧ ((∃ state, phase = .looking state) ∨
        (∃ state, phase = .loading state) ∨
        ∃ current state, phase = .opening current state ∧
          readState digestOf world.file = .ok current ∧
          state.version = versionOf current + 1)) :
    (world.setHandle id { handle with phase := phase }).Sound digestOf first := by
  have kept := sound.kept id handle found
  have owns := sound.owns id handle found lives
  have claims : ({ handle with phase := phase } : Handle Data).claim = handle.claim := by
    rw [ordinary]
    rcases phases with rfl | ⟨state, rfl⟩ | ⟨-, ⟨state, rfl⟩ | ⟨state, rfl⟩ |
      ⟨current, state, rfl, -⟩⟩ <;> rfl
  refine moved sound found rfl unsynced ?_ ?_
  · refine ⟨kept.hosted, ?_, ?_, ?_, ?_, ?_, ?_⟩
    · intro nonce claim
      exact kept.own nonce (claims ▸ claim)
    all_goals
      rcases phases with rfl | ⟨state, rfl⟩ | ⟨has, ⟨state, rfl⟩ | ⟨state, rfl⟩ |
        ⟨current, state, rfl, -⟩⟩ <;>
      simp_all [Phase.record, Phase.condemned, Phase.unset, Phase.saving]
  · refine ⟨?_, ?_, ?_, ?_⟩
    · intro nonce claim
      exact owns.lock nonce (claims ▸ claim)
    · intro current state pending
      rcases phases with rfl | ⟨state, rfl⟩ | ⟨-, ⟨state, rfl⟩ | ⟨state, rfl⟩ |
        ⟨base, next, rfl, read⟩⟩
      · simp [Phase.pending] at pending
      · simp [Phase.pending] at pending
      · simp [Phase.pending] at pending
      · simp [Phase.pending] at pending
      · simp only [Phase.pending, Option.some.injEq, Prod.mk.injEq] at pending
        rw [← pending.1, ← pending.2]
        exact read
    · rcases phases with rfl | ⟨state, rfl⟩ | ⟨-, ⟨state, rfl⟩ | ⟨state, rfl⟩ |
        ⟨base, next, rfl, -⟩⟩ <;> simp
    · rcases phases with rfl | ⟨state, rfl⟩ | ⟨-, ⟨state, rfl⟩ | ⟨state, rfl⟩ |
        ⟨base, next, rfl, -⟩⟩ <;> simp

theorem sole_of_saving (sound : world.Sound digestOf first)
    (found : world.handles id = some handle) (lives : world.alive handle.process = true)
    (saving : handle.phase.saving = true) : world.Sole id := by
  obtain ⟨nonce, has⟩ := Option.isSome_iff_exists.mp ((sound.kept id handle found).saving saving)
  have claims : handle.claim = some nonce := by
    rcases handle with ⟨host, held, counter, phase⟩
    cases phase <;> simp_all [Handle.claim, Phase.saving]
  exact sole_of_claim sound found lives claims

variable {state : StoredState Data} {current : Option (StoredState Data)}

theorem tmp_sound {counter : Nat} {content : FileContent Data}
    (sound : world.Sound digestOf first) (found : world.handles id = some handle)
    (there : world.processes handle.process = some process)
    (lives : world.alive handle.process = true) (ordinary : handle.claim = handle.nonce)
    (pending : handle.phase.pending = some (current, state))
    (saving : handle.phase.saving = true)
    (phases : phase = .writing current state ∨ phase = .replacing current state ∧
      content = .envelope (envelopeOf digestOf state)) :
    (({ world with
      tmps := Function.update world.tmps process.pid
        (Function.update (world.tmps process.pid) counter (some content)) } : World Data).setHandle
      id { handle with tmpCounter := counter, phase := phase }).Sound digestOf first := by
  have kept := sound.kept id handle found
  have owns := sound.owns id handle found lives
  have claims : ({ handle with tmpCounter := counter, phase := phase } : Handle Data).claim =
      handle.claim := by
    rw [ordinary]
    rcases phases with rfl | ⟨rfl, -⟩ <;> rfl
  have unsynced : ∀ other, handle.phase ≠ .syncing other := by
    intro other same
    simp [same, Phase.pending] at pending
  refine rearranged sound found rfl unsynced ?_ ?_
    (.inr (sole_of_saving sound found lives saving)) sound.genuine
  · refine ⟨kept.hosted, ?_, ?_, ?_, ?_, ?_, fun _ => kept.saving saving⟩
    · intro nonce claim
      exact kept.own nonce (claims ▸ claim)
    all_goals
      rcases phases with rfl | ⟨rfl, -⟩ <;>
      simp [Phase.record, Phase.condemned, Phase.unset]
  · refine ⟨?_, ?_, ?_, ?_⟩
    · intro nonce claim
      exact owns.lock nonce (claims ▸ claim)
    · intro base next same
      have here : some (current, state) = some (base, next) := by
        rcases phases with rfl | ⟨rfl, -⟩ <;> simpa [Phase.pending] using same
      cases here
      exact owns.current current state pending
    · intro base next same found' other
      rcases phases with rfl | ⟨rfl, rfl⟩
      · cases same
      · cases same
        rw [there] at other
        cases other
        simp
    · rcases phases with rfl | ⟨rfl, -⟩ <;> simp

theorem replacing_sound {content : FileContent Data} (sound : world.Sound digestOf first)
    (found : world.handles id = some handle)
    (there : world.processes handle.process = some process)
    (lives : world.alive handle.process = true) (phase : handle.phase = .replacing current state)
    (written : world.tmps process.pid handle.tmpCounter = some content) :
    (({ world with
      file := some content
      tmps := Function.update world.tmps process.pid
        (Function.update (world.tmps process.pid) handle.tmpCounter none)
      replaced := world.replaced ++ [Replaced.mk current state] } : World Data).setHandle id
      { handle with phase := .syncing state }).Sound digestOf first := by
  have kept := sound.kept id handle found
  have owns := sound.owns id handle found lives
  have saving : handle.phase.saving = true := by simp [phase, Phase.saving]
  have claims : handle.claim = handle.nonce := by simp [Handle.claim, phase]
  obtain ⟨read, version⟩ := owns.current current state (by simp [phase, Phase.pending])
  have whole := owns.written current state phase process there
  rw [written, Option.some.injEq] at whole
  subst whole
  have chain := sound.chain
  rw [read] at chain
  have next : Chain first (world.replaced ++ [⟨current, state⟩])
      (readState digestOf (some (.envelope (envelopeOf digestOf state)))) := by
    rw [readState_envelopeOf]
    exact .next chain version
  have newer : ∀ earlier ∈ world.saved, earlier.version < state.version := by
    intro earlier member
    obtain ⟨save, made, rfl⟩ := sound.recorded earlier member
    obtain ⟨newest, same, below⟩ := chain.newest save made
    cases same
    simp only [versionOf, Option.map_some, Option.getD_some] at version
    omega
  have onward : ((world.withFiles world.lock (some (.envelope (envelopeOf digestOf state)))
      (Function.update world.tmps process.pid
        (Function.update (world.tmps process.pid) handle.tmpCounter none))
      (world.replaced ++ [⟨current, state⟩]) world.saved).setHandle id
      { handle with phase := .syncing state }).Sound digestOf first := by
    refine continued sound found rfl ?_ ?_ (.inr (sole_of_saving sound found lives saving))
      sound.genuine next ?_ sound.ordered ?_
    · refine ⟨kept.hosted, ?_, by simp, by simp [Phase.record], by simp [Phase.condemned],
        by simp [Phase.unset], fun _ => kept.saving saving⟩
      intro nonce claim
      exact kept.own nonce (claims.trans claim)
    · refine ⟨?_, by simp [Phase.pending], by simp, ?_⟩
      · intro nonce claim
        exact owns.lock nonce (claims.trans claim)
      · intro other same
        cases same
        exact ⟨readState_envelopeOf digestOf state,
          ⟨⟨current, state⟩, List.mem_append_right _ List.mem_cons_self, rfl⟩, newer⟩
    · intro earlier member
      obtain ⟨save, made, same⟩ := sound.recorded earlier member
      exact ⟨save, List.mem_append_left _ made, same⟩
    · intro save member
      rcases List.mem_append.mp member with old | new
      · by_cases done : save.state ∈ world.saved
        · exact .inl done
        · exact .inr (.inr ⟨by simp [phase], old, done⟩)
      · obtain rfl := List.mem_singleton.mp new
        exact .inr (.inl rfl)
  exact onward

theorem syncing_sound (sound : world.Sound digestOf first)
    (found : world.handles id = some handle) (lives : world.alive handle.process = true)
    (phase : handle.phase = .syncing state) :
    (({ world with saved := world.saved ++ [state] } : World Data).setHandle id
      { handle with phase := .ready }).Sound digestOf first := by
  have kept := sound.kept id handle found
  have owns := sound.owns id handle found lives
  have saving : handle.phase.saving = true := by simp [phase, Phase.saving]
  have claims : handle.claim = handle.nonce := by simp [Handle.claim, phase]
  obtain ⟨-, made, newer⟩ := owns.synced state phase
  have onward : ((world.withFiles world.lock world.file world.tmps world.replaced
      (world.saved ++ [state])).setHandle id { handle with phase := .ready }).Sound
        digestOf first := by
    refine continued sound found rfl ?_ (owns_plain ?_ rfl)
      (.inr (sole_of_saving sound found lives saving)) sound.genuine sound.chain ?_ ?_ ?_
    · exact kept_plain kept (.inr claims.symm) rfl rfl rfl (by simp [Phase.unset])
    · intro nonce claim
      exact owns.lock nonce (claims.trans claim)
    · intro earlier member
      rcases List.mem_append.mp member with old | new
      · exact sound.recorded earlier old
      · rw [List.mem_singleton] at new
        exact new ▸ made
    · refine List.pairwise_append.mpr ⟨sound.ordered, List.pairwise_singleton _ _, ?_⟩
      intro earlier old later new
      rw [List.mem_singleton] at new
      exact new ▸ newer earlier old
    · intro save member
      by_cases done : save.state ∈ world.saved ++ [state]
      · exact .inl done
      · have unsaved : save.state ∉ world.saved := fun old => done (List.mem_append_left _ old)
        have other : save.state ≠ state := fun same =>
          done (List.mem_append_right _ (List.mem_singleton.mpr same))
        exact .inr (.inr ⟨by simp [phase, Ne.symm other], member, unsaved⟩)
  exact onward

theorem releasing_sound (sound : world.Sound digestOf first)
    (found : world.handles id = some handle) (lives : world.alive handle.process = true)
    (phase : handle.phase = .releasing nonce) :
    (world.setHandle id { handle with phase := .unlinking nonce }).Sound digestOf first := by
  have kept := sound.kept id handle found
  have owns := sound.owns id handle found lives
  have unset : handle.nonce = none := kept.unset (by simp [phase, Phase.unset])
  have claims : ({ handle with phase := .unlinking nonce } : Handle Data).claim = handle.claim := by
    simp [Handle.claim, phase]
  refine moved sound found rfl (by simp [phase])
    (kept_plain kept (.inr claims) rfl rfl rfl fun _ => unset) (owns_plain ?_ rfl)
  intro other claim
  exact owns.lock other (claims ▸ claim)

theorem checked_sound (sound : world.Sound digestOf first) (found : world.handles id = some handle)
    (lives : world.alive handle.process = true) (ordinary : handle.claim = handle.nonce)
    (unsynced : ∀ state, handle.phase ≠ .syncing state) (saving : handle.phase.saving = true)
    (read : readState digestOf world.file = .ok current) :
    (world.setHandle id { handle with phase := checked current state }).Sound digestOf first := by
  unfold checked
  split
  · rename_i version
    exact saving_sound sound found lives ordinary unsynced
      (.inr (.inr ⟨(sound.kept id handle found).saving saving,
        .inr (.inr ⟨current, state, rfl, read, version⟩)⟩))
  · exact saving_sound sound found lives ordinary unsynced (.inl rfl)

/-- A lock is unlinked only while it is the one that was read, or gone. -/
def Careful (world : World Data) (handle : Handle Data) : Prop :=
  ∀ holder ∈ handle.phase.reclaimed, world.lock = none ∨ nonceOf world.lock = some holder.nonce

instance (world : World Data) (handle : Handle Data) : Decidable (world.Careful handle) :=
  inferInstanceAs (Decidable (∀ holder ∈ handle.phase.reclaimed,
    world.lock = none ∨ nonceOf world.lock = some holder.nonce))

variable {after : World Data}

theorem advance_sound (sound : world.Sound digestOf first)
    (found : world.handles id = some handle)
    (there : world.processes handle.process = some process)
    (runs : world.running process.pid = some handle.process) (careful : world.Careful handle)
    (stepped : world.advance digestOf id handle process seen = some after) :
    after.Sound digestOf first := by
  have lives := alive_of_running there runs
  have kept := sound.kept id handle found
  unfold advance at stepped
  cases phase : handle.phase with simp only [phase] at stepped
  | drafting attempt =>
      split at stepped
      · rename_i truth
        cases stepped
        exact drafting_sound sound found there runs phase truth
      · cases stepped
  | linking attempt record =>
      have unset : handle.nonce = none := kept.unset (by simp [phase, Phase.unset])
      split at stepped
      · rename_i unlocked
        cases stepped
        exact linking_sound sound found phase unlocked
      · cases stepped
        exact unset_sound sound found (by simp [phase]) unset
          (.inr (.inr (.inr ⟨attempt, rfl⟩))) (.inl rfl)
  | linked record =>
      cases stepped
      exact linked_sound sound found lives phase
  | contested attempt =>
      have unset : handle.nonce = none := kept.unset (by simp [phase, Phase.unset])
      split at stepped
      · cases stepped
        exact unset_sound sound found (by simp [phase]) unset (.inl rfl) (.inl rfl)
      · rename_i holder read
        cases stepped
        exact holder_sound sound found (by simp [phase]) unset (sound.genuine holder read)
          (.inl ⟨attempt, rfl⟩)
  | judging attempt holder =>
      have unset : handle.nonce = none := kept.unset (by simp [phase, Phase.unset])
      have genuine := kept.genuine holder (by simp [phase, Phase.record])
      split at stepped
      · rename_i truth
        cases stepped
        cases holds : world.stillHolding holder seen with
        | true =>
            exact unset_sound sound found (by simp [phase]) unset (.inl rfl) (.inl rfl)
        | false =>
            exact holder_sound sound found (by simp [phase]) unset genuine
              (.inr ⟨.inl ⟨attempt, rfl⟩, gone_of_not_holding genuine truth holds⟩)
      · cases stepped
  | rechecking attempt holder =>
      have unset : handle.nonce = none := kept.unset (by simp [phase, Phase.unset])
      have genuine := kept.genuine holder (by simp [phase, Phase.record])
      have gone := kept.gone holder (by simp [phase, Phase.condemned])
      cases stepped
      split
      · exact holder_sound sound found (by simp [phase]) unset genuine
          (.inr ⟨.inr ⟨attempt, rfl⟩, gone⟩)
      · rcases retry_cases attempt with again | given <;> rw [‹retry attempt = _›]
        · exact unset_sound sound found (by simp [phase]) unset
            (.inr (.inr (.inl ⟨attempt + 1, rfl⟩))) (.inl rfl)
        · exact unset_sound sound found (by simp [phase]) unset (.inl rfl) (.inl rfl)
  | reclaiming attempt holder =>
      have unset : handle.nonce = none := kept.unset (by simp [phase, Phase.unset])
      have gone := kept.gone holder (by simp [phase, Phase.condemned])
      have sole : world.Sole id := by
        rcases careful holder (by simp [phase, Phase.reclaimed]) with unlocked | still
        · exact sole_of_unlocked sound unlocked
        · exact sole_of_gone sound gone still
      cases stepped
      rcases retry_cases attempt with again | given <;> rw [‹retry attempt = _›]
      · exact unset_sound sound found (by simp [phase]) unset
          (.inr (.inr (.inl ⟨attempt + 1, rfl⟩))) (.inr ⟨rfl, sole⟩)
      · exact unset_sound sound found (by simp [phase]) unset (.inl rfl) (.inr ⟨rfl, sole⟩)
  | refused | ready =>
      cases stepped
  | asserting state =>
      have ordinary : handle.claim = handle.nonce := by simp [Handle.claim, phase]
      cases stepped
      split
      · rename_i holds
        exact saving_sound sound found lives ordinary (by simp [phase])
          (.inr (.inr ⟨holds.1, .inl ⟨state, rfl⟩⟩))
      · exact saving_sound sound found lives ordinary (by simp [phase]) (.inl rfl)
  | looking state =>
      have ordinary : handle.claim = handle.nonce := by simp [Handle.claim, phase]
      have saving : handle.phase.saving = true := by simp [phase, Phase.saving]
      cases stepped
      split
      · exact saving_sound sound found lives ordinary (by simp [phase])
          (.inr (.inr ⟨kept.saving saving, .inr (.inl ⟨state, rfl⟩)⟩))
      · rename_i absent
        have missing : world.file = none := by simpa using absent
        exact checked_sound sound found lives ordinary (by simp [phase]) saving
          (by simp [missing, readState])
  | loading state =>
      have ordinary : handle.claim = handle.nonce := by simp [Handle.claim, phase]
      split at stepped
      · cases stepped
        exact saving_sound sound found lives ordinary (by simp [phase]) (.inl rfl)
      · rename_i current read
        cases stepped
        exact checked_sound sound found lives ordinary (by simp [phase])
          (by simp [phase, Phase.saving]) read
  | opening current state =>
      have ordinary : handle.claim = handle.nonce := by simp [Handle.claim, phase]
      cases stepped
      exact tmp_sound sound found there lives ordinary (by simp [phase, Phase.pending])
        (by simp [phase, Phase.saving]) (.inl rfl)
  | writing current state =>
      have ordinary : handle.claim = handle.nonce := by simp [Handle.claim, phase]
      cases stepped
      exact tmp_sound sound found there lives ordinary (by simp [phase, Phase.pending])
        (by simp [phase, Phase.saving]) (.inr ⟨rfl, rfl⟩)
  | replacing current state =>
      have ordinary : handle.claim = handle.nonce := by simp [Handle.claim, phase]
      split at stepped
      · cases stepped
        exact saving_sound sound found lives ordinary (by simp [phase]) (.inl rfl)
      · rename_i content written
        cases stepped
        exact replacing_sound sound found there lives phase written
  | syncing state =>
      cases stepped
      exact syncing_sound sound found lives phase
  | releasing nonce =>
      have unset : handle.nonce = none := kept.unset (by simp [phase, Phase.unset])
      cases stepped
      split
      · exact releasing_sound sound found lives phase
      · exact unset_sound sound found (by simp [phase]) unset (.inr (.inl rfl)) (.inl rfl)
  | unlinking nonce =>
      have unset : handle.nonce = none := kept.unset (by simp [phase, Phase.unset])
      have sole : world.Sole id :=
        sole_of_claim sound found lives (show handle.claim = some nonce by simp [Handle.claim, phase])
      cases stepped
      exact unset_sound sound found (by simp [phase]) unset (.inr (.inl rfl)) (.inr ⟨rfl, sole⟩)

/-! ## Processes and callers -/

/-- More processes and handles may be known, and fewer processes live. -/
structure Onward (before after : World Data) : Prop where
  processes : ∀ process found, before.processes process = some found →
    after.processes process = some found
  hosts : ∀ id process, before.host id = some process → after.host id = some process
  lives : ∀ process found, before.processes process = some found →
    after.alive process = true → before.alive process = true

theorem Onward.genuine (onward : Onward world after)
    (genuine : world.Genuine record) : after.Genuine record := by
  intro id attempt nonce
  obtain ⟨process, found, hosted, there, wrote⟩ := genuine id attempt nonce
  exact ⟨process, found, onward.hosts id process hosted, onward.processes process found there,
    wrote⟩

theorem Onward.gone (onward : Onward world after)
    (genuine : world.Genuine record) (gone : world.Gone record) : after.Gone record := by
  intro id attempt process nonce hosted
  obtain ⟨known, found, before, there, -⟩ := genuine id attempt nonce
  have same : known = process := by
    have later := onward.hosts id known before
    rw [hosted, Option.some.injEq] at later
    exact later.symm
  subst same
  have dead := gone id attempt known nonce before
  cases lives : after.alive known with
  | false => rfl
  | true =>
      rw [onward.lives known found there lives] at dead
      cases dead

theorem record_of_condemned
    (condemned : phase.condemned = some record) : phase.record = some record := by
  cases phase <;> simp_all [Phase.condemned, Phase.record]

theorem Onward.kept (onward : Onward world after)
    (kept : world.Kept id handle) : after.Kept id handle := by
  obtain ⟨found, there⟩ := kept.hosted
  refine ⟨⟨found, onward.processes _ found there⟩, kept.own, kept.drawn, ?_, ?_, kept.unset,
    kept.saving⟩
  · exact fun record same => onward.genuine (kept.genuine record same)
  · exact fun record same => onward.gone (kept.genuine record (record_of_condemned same))
      (kept.gone record same)

theorem Onward.owns (onward : Onward world after)
    (hosted : ∃ found, world.processes handle.process = some found)
    (lock : after.lock = world.lock) (file : after.file = world.file)
    (tmps : after.tmps = world.tmps) (replaced : after.replaced = world.replaced)
    (saved : after.saved = world.saved) (owns : world.Owns digestOf handle) :
    after.Owns digestOf handle := by
  refine ⟨by simpa [lock] using owns.lock, by simpa [file] using owns.current, ?_,
    by simpa [file, replaced, saved] using owns.synced⟩
  intro current state phase found there
  obtain ⟨before, known⟩ := hosted
  have same : before = found := by
    have later := onward.processes _ before known
    rw [there, Option.some.injEq] at later
    exact later.symm
  rw [tmps]
  exact owns.written current state phase found (same ▸ known)

theorem spawn_sound {one pid start : Nat} (sound : world.Sound digestOf first)
    (fresh : world.processes one = none) (free : world.running pid = none) :
    ({ world with
      processes := Function.update world.processes one (some { pid := pid, start := start })
      running := Function.update world.running pid (some one) } : World Data).Sound
        digestOf first := by
  have onward : Onward world { world with
      processes := Function.update world.processes one (some { pid := pid, start := start })
      running := Function.update world.running pid (some one) } := by
    refine ⟨?_, fun _ _ hosted => hosted, ?_⟩
    · intro process found there
      have different : process ≠ one := by
        rintro rfl
        rw [fresh] at there
        cases there
      simpa [different] using there
    · intro process found there lives
      have different : process ≠ one := by
        rintro rfl
        rw [fresh] at there
        cases there
      simp only [alive, ne_eq, different, not_false_eq_true, Function.update_of_ne, there] at lives
      simp only [alive, there]
      by_cases same : found.pid = pid
      · simp [same, Ne.symm different] at lives
      · simpa [same] using lives
  refine ⟨?_, fun record read => onward.genuine (sound.genuine record read), ?_, ?_, sound.chain,
    sound.recorded, sound.ordered, sound.complete⟩
  · intro other id runs
    by_cases same : other = pid
    · subst same
      simp only [Function.update_self, Option.some.injEq] at runs
      subst runs
      exact ⟨{ pid := other, start := start }, by simp, rfl⟩
    · obtain ⟨found, there, pids⟩ := sound.pids other id (by simpa [same] using runs)
      exact ⟨found, onward.processes id found there, pids⟩
  · exact fun id handle found => onward.kept (sound.kept id handle found)
  · intro id handle found lives
    obtain ⟨process, there⟩ := (sound.kept id handle found).hosted
    exact onward.owns ⟨process, there⟩ rfl rfl rfl rfl rfl
      (sound.owns id handle found (onward.lives _ process there lives))

theorem crash_sound {pid : Nat} (sound : world.Sound digestOf first) :
    ({ world with running := Function.update world.running pid none } : World Data).Sound
      digestOf first := by
  have onward : Onward world { world with
      running := Function.update world.running pid none } := by
    refine ⟨fun _ _ there => there, fun _ _ hosted => hosted, ?_⟩
    intro process found there lives
    simp only [alive, there] at lives ⊢
    by_cases same : found.pid = pid
    · simp [same] at lives
    · simpa [same] using lives
  refine ⟨?_, fun record read => onward.genuine (sound.genuine record read), ?_, ?_, sound.chain,
    sound.recorded, sound.ordered, sound.complete⟩
  · intro other id runs
    by_cases same : other = pid
    · simp [same] at runs
    · exact sound.pids other id (by simpa [same] using runs)
  · exact fun id handle found => onward.kept (sound.kept id handle found)
  · intro id handle found lives
    obtain ⟨process, there⟩ := (sound.kept id handle found).hosted
    exact onward.owns ⟨process, there⟩ rfl rfl rfl rfl rfl
      (sound.owns id handle found (onward.lives _ process there lives))

theorem openStore_sound {one : Nat} (sound : world.Sound digestOf first)
    (fresh : world.handles id = none) (lives : world.alive one = true) :
    (world.setHandle id { process := one }).Sound digestOf first := by
  have onward : Onward world (world.setHandle id { process := one }) := by
    refine ⟨fun _ _ there => there, ?_, fun _ _ _ alive => alive⟩
    intro other process hosted
    have different : other ≠ id := by
      rintro rfl
      simp [host, fresh] at hosted
    simpa [host, setHandle, different] using hosted
  have known : ∃ found, world.processes one = some found := by
    unfold alive at lives
    split at lives
    · cases lives
    · exact ⟨_, ‹_›⟩
  have nothing : ({ process := one } : Handle Data).claim = none := rfl
  refine ⟨sound.pids, fun record read => onward.genuine (sound.genuine record read), ?_, ?_,
    sound.chain, sound.recorded, sound.ordered, ?_⟩
  · intro other handle found
    by_cases same : other = id
    · subst same
      simp only [setHandle, Function.update_self, Option.some.injEq] at found
      subst found
      exact ⟨known, by simp [nothing], by simp, by simp [Phase.record],
        by simp [Phase.condemned], fun _ => rfl, by simp [Phase.saving]⟩
    · exact onward.kept (sound.kept other handle (by simpa [setHandle, same] using found))
  · intro other handle found alive
    by_cases same : other = id
    · subst same
      simp only [setHandle, Function.update_self, Option.some.injEq] at found
      subst found
      exact ⟨by simp [nothing], by simp [Phase.pending], by simp, by simp⟩
    · have before : world.handles other = some handle := by simpa [setHandle, same] using found
      exact onward.owns (sound.kept other handle before).hosted rfl rfl rfl rfl rfl
        (sound.owns other handle before alive)
  · intro save member
    rcases sound.complete save member with done | ⟨other, handle, found, syncing⟩
    · exact .inl done
    · have different : other ≠ id := by
        rintro rfl
        rw [fresh] at found
        cases found
      exact .inr ⟨other, handle, by simpa [setHandle, different] using found, syncing⟩

theorem release_sound (sound : world.Sound digestOf first)
    (found : world.handles id = some handle) (lives : world.alive handle.process = true)
    (phase : handle.phase = .ready) (has : handle.nonce = some nonce) :
    (world.setHandle id { handle with nonce := none, phase := .releasing nonce }).Sound
      digestOf first := by
  have kept := sound.kept id handle found
  have owns := sound.owns id handle found lives
  have claims : handle.claim = some nonce := by simp [Handle.claim, phase, has]
  refine moved sound found rfl (by simp [phase]) ?_ ?_
  · refine ⟨kept.hosted, ?_, by simp, by simp [Phase.record], by simp [Phase.condemned],
      fun _ => rfl, by simp [Phase.saving]⟩
    intro other claim
    exact kept.own other (claims.trans claim)
  · refine ⟨?_, by simp [Phase.pending], by simp, by simp⟩
    intro other claim
    exact owns.lock other (claims.trans claim)

theorem act_sound {label : Label Data} (sound : world.Sound digestOf first)
    (careful : ∀ id seen, label = .run id seen → ∀ handle, world.handles id = some handle →
      world.Careful handle)
    (stepped : world.act digestOf label = some after) : after.Sound digestOf first := by
  cases label with simp only [act] at stepped
  | spawn process pid start =>
      split at stepped
      · rename_i fresh
        cases stepped
        exact spawn_sound sound fresh.1 fresh.2
      · cases stepped
  | crash process =>
      split at stepped
      · cases stepped
      · split at stepped
        · cases stepped
          exact crash_sound sound
        · cases stepped
  | openStore id process =>
      split at stepped
      · rename_i opens
        cases stepped
        exact openStore_sound sound opens.1 opens.2
      · cases stepped
  | save id state =>
      split at stepped
      · rename_i process nonce counter found
        split at stepped
        · rename_i lives
          cases stepped
          exact saving_sound sound found lives rfl (by simp) (.inr (.inl ⟨state, rfl⟩))
        · cases stepped
      · cases stepped
  | release id =>
      split at stepped
      · rename_i process nonce counter found
        split at stepped
        · rename_i lives
          cases stepped
          exact release_sound sound found lives rfl rfl
        · cases stepped
      · cases stepped
  | run id seen =>
      split at stepped
      · cases stepped
      · rename_i handle found
        split at stepped
        · cases stepped
        · rename_i process there
          split at stepped
          · rename_i runs
            exact advance_sound sound found there runs (careful id seen rfl handle found) stepped
          · cases stepped

/-! ## Runs -/

inductive Leftover where
  | unreadable
  | record (pid : Nat) (nonce : String) (startedAt : Option Nat)
deriving DecidableEq, Repr

def Leftover.lock : Leftover → LockFile
  | .unreadable => .unreadable
  | .record pid nonce startedAt => .record { pid, nonce := .foreign nonce, startedAt }

def begin (leftover : Option Leftover) (file : Option (FileContent Data)) : World Data :=
  { lock := leftover.map Leftover.lock, file := file }

theorem sound_begin (leftover : Option Leftover) (file : Option (FileContent Data)) :
    (begin leftover file).Sound digestOf (readState digestOf file) := by
  refine ⟨by simp [begin], ?_, by simp [begin], by simp [begin], .first, by simp [begin],
    by simp [begin], by simp [begin]⟩
  intro record read id attempt nonce
  rcases leftover with _ | _ | ⟨pid, value, started⟩
  · simp [begin, readLock] at read
  · simp [begin, readLock, Leftover.lock] at read
  · simp only [begin, Option.map_some, Leftover.lock, readLock, Option.some.injEq] at read
    subst read
    cases nonce

/-- The lock that is taken over is still the one that was read. -/
def CarefulStep (event : Event (World Data) (Label Data)) : Prop :=
  match event.label with
  | .run id _ => ∀ handle ∈ event.before.handles id, event.before.Careful handle
  | _ => True

instance (event : Event (World Data) (Label Data)) : Decidable (CarefulStep event) :=
  match event with
  | ⟨before, .run id _, _⟩ =>
      inferInstanceAs (Decidable (∀ handle ∈ before.handles id, before.Careful handle))
  | ⟨_, .spawn _ _ _, _⟩ | ⟨_, .crash _, _⟩ | ⟨_, .openStore _ _, _⟩ | ⟨_, .save _ _, _⟩
  | ⟨_, .release _, _⟩ => isTrue trivial

/-- A takeover does not remove the lock of a live handle. -/
def SparesTheLiving (event : Event (World Data) (Label Data)) : Prop :=
  ∀ id seen handle attempt holder, event.label = .run id seen →
    event.before.handles id = some handle → handle.phase = .reclaiming attempt holder →
    ∀ other rival nonce, event.before.handles other = some rival →
      event.before.alive rival.process = true → rival.claim = some nonce →
      nonceOf event.before.lock ≠ some nonce

/-- The saves form one chain from the first state to the one that is loaded, one
for each version; those that have returned are among them, and the others were
interrupted before they could return. -/
structure NeverForks (digestOf : StoredState Data → String)
    (first : Except StoreCorrupted (Option (StoredState Data))) (world : World Data) : Prop where
  chain : Chain first world.replaced (readState digestOf world.file)
  versions : world.replaced.Pairwise fun earlier later =>
    earlier.state.version < later.state.version
  acknowledged : ∀ state ∈ world.saved, ∃ save ∈ world.replaced, save.state = state
  once : world.saved.Pairwise fun earlier later => earlier.version < later.version
  interrupted : ∀ save ∈ world.replaced, save.state ∈ world.saved ∨
    ∃ id handle, world.handles id = some handle ∧ handle.phase = .syncing save.state

theorem neverForks_of_sound (sound : world.Sound digestOf first) :
    NeverForks digestOf first world :=
  ⟨sound.chain, sound.chain.increasing, sound.recorded, sound.ordered, sound.complete⟩

theorem sparesTheLiving_of_careful {event : Event (World Data) (Label Data)}
    (sound : event.before.Sound digestOf first) (careful : CarefulStep event) :
    SparesTheLiving event := by
  intro id seen handle attempt holder label found phase other rival nonce there lives claim
  simp only [CarefulStep, label] at careful
  have kept := sound.kept id handle found
  have sole : event.before.Sole id := by
    rcases careful handle found holder (by simp [phase, Phase.reclaimed]) with
      unlocked | still
    · exact sole_of_unlocked sound unlocked
    · exact sole_of_gone sound (kept.gone holder (by simp [phase, Phase.condemned])) still
  have none : rival.claim = none := by
    by_cases same : other = id
    · subst same
      rw [found] at there
      cases there
      have unset : handle.nonce = none := kept.unset (by simp [phase, Phase.unset])
      simp [Handle.claim, phase, unset]
    · exact sole other rival there lives same
  rw [none] at claim
  cases claim

end World

/-- In a run in which every lock that is taken over is still the one that was
read, the file store never forks. -/
theorem file_store_never_forks {digestOf : StoredState Data → String}
    {leftover : Option World.Leftover} {file : Option (FileContent Data)}
    {history : List (Event (World Data) (Label Data))} {final : World Data}
    (run : Follows (fun before label after => before.act digestOf label = some after)
      (World.begin leftover file) history final)
    (careful : ∀ event ∈ history, World.CarefulStep event) :
    World.NeverForks digestOf (readState digestOf file) final ∧
      ∀ event ∈ history, World.NeverForks digestOf (readState digestOf file) event.before ∧
        World.SparesTheLiving event := by
  have initially : (World.begin leftover file).Sound digestOf (readState digestOf file) :=
    World.sound_begin leftover file
  have preserved : ∀ event ∈ history,
      event.before.act digestOf event.label = some event.after →
      event.before.Sound digestOf (readState digestOf file) →
      event.after.Sound digestOf (readState digestOf file) := by
    intro event member stepped sound
    refine World.act_sound sound ?_ stepped
    intro id seen label handle found
    have here := careful event member
    simp only [World.CarefulStep, label] at here
    exact here handle found
  have sound := run.throughout _ initially preserved
  exact ⟨World.neverForks_of_sound (run.invariant_along _ initially preserved),
    fun event member => ⟨World.neverForks_of_sound (sound event member),
      World.sparesTheLiving_of_careful (sound event member) (careful event member)⟩⟩

section Runs

def digestByVersion (state : StoredState String) : String := toString state.version

def deadLock : Option World.Leftover := some (.record 9 "n9" none)

def twoProcesses : List (Label String) :=
  [.spawn 0 1 100, .spawn 1 2 200, .openStore 0 0, .openStore 1 1]

def calls (handle count : Nat) : List (Label String) := List.replicate count (.run handle none)

/-- Handle 1 takes the dead lock over and saves; handle 0 comes later and is refused. -/
def oneAfterTheOther : List (Label String) :=
  twoProcesses ++ calls 1 9 ++ [.save 1 ⟨1, "b"⟩] ++ calls 1 6 ++ calls 0 4

/-- Handle 0 has read the dead lock twice when handle 1 takes it over and is about
to save; then handle 0 unlinks what is there. -/
def bothTakeOver : List (Label String) :=
  twoProcesses ++ calls 0 5 ++ calls 1 9 ++ [.save 1 ⟨1, "b"⟩] ++ calls 1 4 ++
    calls 0 4 ++ [.save 0 ⟨1, "a"⟩] ++ calls 0 6 ++ calls 1 2

theorem file_store_of_one_after_the_other :
    ∃ history final,
      Follows (fun before label after => before.act digestByVersion label = some after)
        (World.begin deadLock none) history final ∧
      history.map Event.label = oneAfterTheOther ∧
      World.NeverForks digestByVersion (.ok none) final := by
  obtain ⟨history, final, run, labels, careful⟩ := @follows_of_attempt _ _
    (World.act digestByVersion) (World.begin deadLock none) oneAfterTheOther
    (fun (history, _) => decide (∀ event ∈ history, World.CarefulStep event)) (by decide +kernel)
  exact ⟨history, final, run, labels, (file_store_never_forks run (of_decide_eq_true careful)).1⟩

/-- Both saves of version 1 return. -/
theorem file_store_forks :
    ∃ history final,
      Follows (fun before label after => before.act digestByVersion label = some after)
        (World.begin deadLock none) history final ∧
      history.map Event.label = bothTakeOver ∧
      ¬ World.NeverForks digestByVersion (.ok none) final := by
  obtain ⟨history, final, run, labels, holds⟩ := @follows_of_attempt _ _
    (World.act digestByVersion) (World.begin deadLock none) bothTakeOver
    (fun (_, final) => decide (final.saved = [⟨1, "a"⟩, ⟨1, "b"⟩])) (by decide +kernel)
  refine ⟨history, final, run, labels, fun whole => ?_⟩
  have once := whole.once
  rw [of_decide_eq_true holds] at once
  simp at once

end Runs

end Barycenter.Dp.Files
