import Barycenter.Foundation.Json
import Barycenter.Foundation.PosixPath
import Barycenter.Dp.Operation

/-!
# Publishing on a file system

The pointer `current` is a symbolic link that is replaced by a rename, and the
record of its owner is a file beside it that is renamed first.  The lease is
asked between the two renames.  So a publication whose lease is refused has
already replaced the owner: what is observed afterwards is what was observed
before only when the record was there already.
-/

namespace Barycenter.Dp

open PosixPath

/-! ## The files of a publication -/

/-- What stands at a temporary path.  A dangling link does not exist for
`existsSync`; a file can be created through it, or not. -/
inductive TempEntry where
  | absent
  | file
  | directory
  | linked
  | dangling (creatable : Bool)
deriving DecidableEq, Repr

/-- What stands at `current`. -/
inductive Pointer where
  | absent
  | link (target : String)
  | file
  | directory
deriving DecidableEq, Repr

inductive OwnerFile where
  | absent
  | directory
  | unparsable
  | parsed (value : Json)
deriving Repr

structure PublicationFs where
  /-- The directory of a generation, and whether it has an `nginx.conf`. -/
  generations : String → Option Bool
  current : Pointer
  currentTmp : TempEntry
  owner : OwnerFile
  ownerTmp : TempEntry

inductive PublishFault where
  | noGeneration (generation : String)
  | noConf (generation : String)
  | fileSystem
  | lease
deriving DecidableEq, Repr

def recordJson (record : PublishRecord) : Json :=
  .object [("generation", .string record.generation),
    ("leaderToken", .string record.leaderToken.text),
    ("operationId", .string record.operationId),
    ("transitionId", .string record.transitionId),
    ("generationDigest", .string record.generationDigest)]

/-! ## Publishing -/

abbrev Publishing := ExceptT PublishFault (StateM PublicationFs)

/-- `if (existsSync(path)) unlinkSync(path)` -/
def cleared : TempEntry → Except PublishFault TempEntry
  | .absent => .ok .absent
  | .file | .linked => .ok .absent
  | .directory => .error .fileSystem
  | .dangling creatable => .ok (.dangling creatable)

def linkedAt : TempEntry → Except PublishFault TempEntry
  | .absent => .ok .linked
  | _ => .error .fileSystem

def openedAt : TempEntry → Except PublishFault TempEntry
  | .dangling false | .directory => .error .fileSystem
  | .dangling true => .ok .linked
  | _ => .ok .file

def prepareLink : Publishing Unit := do
  let fs ← get
  let free ← cleared fs.currentTmp
  modify fun fs => { fs with currentTmp := free }
  let entry ← linkedAt free
  modify fun fs => { fs with currentTmp := entry }

def writeOwner (record : PublishRecord) : Publishing Unit := do
  let fs ← get
  let free ← cleared fs.ownerTmp
  modify fun fs => { fs with ownerTmp := free }
  let opened ← openedAt free
  modify fun fs => { fs with ownerTmp := opened }
  match fs.owner with
  | .directory => throw .fileSystem
  | _ => modify fun fs =>
      { fs with owner := .parsed (recordJson record), ownerTmp := .absent }

def pointerTo (generation : String) : String :=
  String.ofList (join "generations".toList generation.toList)

def switchLink (generation : String) : Publishing Unit := do
  let fs ← get
  match fs.current with
  | .directory => throw .fileSystem
  | _ => modify fun fs =>
      { fs with current := .link (pointerTo generation), currentTmp := .absent }

/-- The lease is asked once, behind the record and in front of the pointer. -/
def publish (record : PublishRecord) (leaseValid : Bool) : Publishing Unit := do
  let fs ← get
  match fs.generations record.generation with
  | none => throw (.noGeneration record.generation)
  | some false => throw (.noConf record.generation)
  | some true =>
      prepareLink
      -- The owner goes first: a pointer whose owner is unknown must not be seen.
      writeOwner record
      unless leaseValid do throw .lease
      switchLink record.generation

/-! ## Observing -/

inductive Observed where
  | none
  | owned (record : Json)
  | inconsistent (generation : Option String) (record : Option Json)
  /-- The record is `null`, and asking it for its generation throws. -/
  | threw
deriving Repr

def observedGeneration : Pointer → Option String
  | .link target => some (String.ofList (basename target.toList))
  | _ => .none

def observedRecord : OwnerFile → Option Json
  | .parsed value => some value
  | _ => .none

def observePublished (fs : PublicationFs) : Observed :=
  match observedGeneration fs.current, observedRecord fs.owner with
  | .none, .none => .none
  | .none, some record => .inconsistent .none (some record)
  | some generation, .none => .inconsistent (some generation) .none
  | some generation, some record =>
      match record with
      | .null => .threw
      | _ =>
          match record.field? "generation" with
          | some (.string named) =>
              if named = generation then .owned record
              else .inconsistent (some generation) (some record)
          | _ => .inconsistent (some generation) (some record)

/-! ## What a publication leaves -/

structure Prepared (fs : PublicationFs) (generation : String) : Prop where
  generation : fs.generations generation = some true
  pointer : fs.currentTmp ≠ .directory ∧ ∀ creatable, fs.currentTmp ≠ .dangling creatable
  record : fs.ownerTmp ≠ .directory ∧ fs.ownerTmp ≠ .dangling false
  owner : fs.owner ≠ .directory

/-- The answer of a publication and the files it leaves. -/
def outcome (fs : PublicationFs) (record : PublishRecord) (leaseValid : Bool) :
    Except PublishFault Unit × PublicationFs :=
  ((publish record leaseValid).run).run fs

section

variable {fs : PublicationFs} {record : PublishRecord} {generation : String}

theorem run_bind {α β : Type} (first : Publishing α) (next : α → Publishing β) :
    ((first >>= next).run).run fs =
      match (first.run).run fs with
      | (.error fault, reached) => (.error fault, reached)
      | (.ok value, reached) => ((next value).run).run reached := by
  change (ExceptT.bindCont next) ((first.run).run fs).1 ((first.run).run fs).2 = _
  obtain ⟨answer, reached⟩ := (first.run).run fs
  cases answer <;> rfl

theorem prepareLink_cases :
    ((fs.currentTmp ≠ .directory ∧ ∀ creatable, fs.currentTmp ≠ .dangling creatable) ∧
        (prepareLink.run).run fs = (.ok (), { fs with currentTmp := .linked })) ∨
      ((fs.currentTmp = .directory ∨ ∃ creatable, fs.currentTmp = .dangling creatable) ∧
        ∃ reached, (prepareLink.run).run fs = (.error .fileSystem, reached)) := by
  obtain ⟨generations, current, currentTmp, owner, ownerTmp⟩ := fs
  cases currentTmp with
  | absent | file | linked => exact .inl ⟨by simp, rfl⟩
  | directory => exact .inr ⟨.inl rfl, _, rfl⟩
  | dangling creatable => exact .inr ⟨.inr ⟨creatable, rfl⟩, _, rfl⟩

/-- The owner's record is replaced, or something at one of its paths is in the
way. -/
theorem writeOwner_cases :
    ((fs.ownerTmp ≠ .directory ∧ fs.ownerTmp ≠ .dangling false ∧ fs.owner ≠ .directory) ∧
        ((writeOwner record).run).run fs =
          (.ok (), { fs with owner := .parsed (recordJson record), ownerTmp := .absent })) ∨
      ((fs.ownerTmp = .directory ∨ fs.ownerTmp = .dangling false ∨ fs.owner = .directory) ∧
        ∃ reached, ((writeOwner record).run).run fs = (.error .fileSystem, reached)) := by
  obtain ⟨generations, current, currentTmp, owner, ownerTmp⟩ := fs
  cases owner with
  | directory =>
      refine .inr ⟨.inr (.inr rfl), ?_⟩
      rcases ownerTmp with _ | _ | _ | _ | ⟨_ | _⟩ <;> exact ⟨_, rfl⟩
  | absent | unparsable | parsed =>
      rcases ownerTmp with _ | _ | _ | _ | ⟨_ | _⟩
      case directory => exact .inr ⟨.inl rfl, _, rfl⟩
      case dangling.false => exact .inr ⟨.inr (.inl rfl), _, rfl⟩
      all_goals exact .inl ⟨by simp, rfl⟩

inductive Ended (fs : PublicationFs) (record : PublishRecord) (leaseValid : Bool) :
    Except PublishFault Unit × PublicationFs → Prop where
  | refused (prepared : Prepared fs record.generation) (lost : leaseValid = false) :
      Ended fs record leaseValid (.error .lease,
        { fs with owner := .parsed (recordJson record), ownerTmp := .absent, currentTmp := .linked })
  | published (prepared : Prepared fs record.generation) (valid : leaseValid = true)
      (free : fs.current ≠ .directory) :
      Ended fs record leaseValid (.ok (),
        { fs with
          owner := .parsed (recordJson record)
          ownerTmp := .absent
          current := .link (pointerTo record.generation)
          currentTmp := .absent })
  | failed (fault : PublishFault) (reached : PublicationFs) (other : fault ≠ .lease)
      (blocked : Prepared fs record.generation → leaseValid = true ∧ fs.current = .directory) :
      Ended fs record leaseValid (.error fault, reached)

theorem outcome_eq (fs : PublicationFs) (record : PublishRecord) (leaseValid : Bool) :
    outcome fs record leaseValid =
      match fs.generations record.generation with
      | none => (.error (.noGeneration record.generation), fs)
      | some false => (.error (.noConf record.generation), fs)
      | some true =>
          ((do
            prepareLink
            writeOwner record
            unless leaseValid do throw .lease
            switchLink record.generation : Publishing Unit).run).run fs := by
  rw [outcome, publish, run_bind]
  change ((match fs.generations record.generation with
    | none => throw (.noGeneration record.generation)
    | some false => throw (.noConf record.generation)
    | some true => _ : Publishing Unit).run).run fs = _
  rcases fs.generations record.generation with _ | _ | _ <;> rfl

theorem outcome_ended (fs : PublicationFs) (record : PublishRecord) (leaseValid : Bool) :
    Ended fs record leaseValid (outcome fs record leaseValid) := by
  rw [outcome_eq]
  rcases found : fs.generations record.generation with _ | _ | _
  · exact .failed _ _ (by simp) fun prepared => absurd prepared.generation (by simp [found])
  · exact .failed _ _ (by simp) fun prepared => absurd prepared.generation (by simp [found])
  · dsimp only
    rw [run_bind]
    rcases @prepareLink_cases fs with ⟨pointer, linked⟩ | ⟨inTheWay, reached, stopped⟩
    · rw [linked]
      dsimp only
      rw [run_bind]
      rcases @writeOwner_cases { fs with currentTmp := .linked } record with
        ⟨⟨noDirectory, noDangling, noOwnerDirectory⟩, written⟩ | ⟨inTheWay, reached, stopped⟩
      · rw [written]
        have prepared : Prepared fs record.generation :=
          ⟨found, pointer, ⟨noDirectory, noDangling⟩, noOwnerDirectory⟩
        cases leaseValid with
        | false => exact .refused prepared rfl
        | true =>
            obtain ⟨generations, current, currentTmp, owner, ownerTmp⟩ := fs
            cases current with
            | directory => exact .failed _ _ (by simp) fun _ => ⟨rfl, rfl⟩
            | absent | link target | file => exact .published prepared rfl (by simp)
      · rw [stopped]
        refine .failed _ _ (by simp) fun prepared => ?_
        rcases inTheWay with directory | dangling | owner
        · exact absurd directory prepared.record.1
        · exact absurd dangling prepared.record.2
        · exact absurd owner prepared.owner
    · rw [stopped]
      refine .failed _ _ (by simp) fun prepared => ?_
      rcases inTheWay with directory | ⟨creatable, dangling⟩
      · exact absurd directory prepared.pointer.1
      · exact absurd dangling (prepared.pointer.2 creatable)

/-! ## What is observed afterwards -/

def Observed.record? : Observed → Option Json
  | .none | .threw => .none
  | .owned record => some record
  | .inconsistent _ record => record

theorem record?_observePublished {value : Json}
    (seen : (observePublished fs).record? = some value) : fs.owner = .parsed value := by
  have stored : observedRecord fs.owner = some value := by
    revert seen
    simp only [observePublished]
    rcases observedGeneration fs.current with _ | generation <;>
      rcases observedRecord fs.owner with _ | record
    · exact id
    · exact id
    · exact id
    · dsimp only
      split
      · exact fun seen => by cases seen
      · split
        · split <;> exact id
        · exact id
  cases owner : fs.owner with
  | parsed other =>
      rw [owner] at stored
      exact congrArg _ (Option.some.inj stored)
  | absent | directory | unparsable =>
      rw [owner] at stored
      cases stored

theorem observe_recorded (current : Pointer) (currentTmp ownerTmp : TempEntry) :
    observePublished ⟨fs.generations, current, currentTmp, .parsed (recordJson record), ownerTmp⟩ =
      match observedGeneration current with
      | none => .inconsistent none (some (recordJson record))
      | some generation =>
          if record.generation = generation then .owned (recordJson record)
          else .inconsistent (some generation) (some (recordJson record)) := by
  simp only [observePublished, observedRecord]
  cases observedGeneration current <;> rfl

theorem observe_unchanged_iff (currentTmp ownerTmp : TempEntry) :
    observePublished
        ⟨fs.generations, fs.current, currentTmp, .parsed (recordJson record), ownerTmp⟩ =
      observePublished fs ↔ fs.owner = .parsed (recordJson record) := by
  constructor
  · intro same
    apply record?_observePublished
    rw [← same, observe_recorded]
    cases observedGeneration fs.current with
    | none => rfl
    | some generation =>
        dsimp only
        split <;> rfl
  · intro owner
    simp only [observePublished, owner]

theorem pointerTo_basename (generation : String) :
    observedGeneration (.link (pointerTo generation)) = some generation ↔
      PosixPath.Plain generation.toList := by
  have plain : PosixPath.Plain "generations".toList := by
    refine ⟨?_, ?_, ?_, ?_⟩ <;> simp
  rw [observedGeneration, pointerTo, String.toList_ofList, Option.some.injEq,
    ← basename_join_iff plain]
  constructor
  · intro same
    have characters := congrArg String.toList same
    rwa [String.toList_ofList] at characters
  · intro same
    rw [same, String.ofList_toList]

end

/-- A refused lease leaves what is observed as it was, and a publication that
succeeds is observed with its owner. -/
structure AtomicUnderLease (fs : PublicationFs) (record : PublishRecord) (leaseValid : Bool) :
    Prop where
  refused : ∀ reached, outcome fs record leaseValid = (.error .lease, reached) →
    observePublished reached = observePublished fs
  published : ∀ reached, outcome fs record leaseValid = (.ok (), reached) →
    observePublished reached = .owned (recordJson record)

/-- For every state of the files, every record and every answer of the lease. -/
theorem atomicUnderLease_iff (fs : PublicationFs) (record : PublishRecord) (leaseValid : Bool) :
    AtomicUnderLease fs record leaseValid ↔
      (leaseValid = false → Prepared fs record.generation →
          fs.owner = .parsed (recordJson record)) ∧
        (leaseValid = true → Prepared fs record.generation → fs.current ≠ .directory →
          PosixPath.Plain record.generation.toList) := by
  have ended := outcome_ended fs record leaseValid
  generalize answer : outcome fs record leaseValid = result at ended
  cases ended with
  | refused prepared lost =>
      subst lost
      constructor
      · intro atomic
        refine ⟨fun _ _ => ?_, fun valid => (by cases valid)⟩
        exact (observe_unchanged_iff _ _).mp (atomic.refused _ answer)
      · intro condition
        refine ⟨fun reached same => ?_, fun reached same => ?_⟩
        · rw [answer] at same
          cases same
          exact (observe_unchanged_iff _ _).mpr (condition.1 rfl prepared)
        · rw [answer] at same
          cases same
  | published prepared valid free =>
      subst valid
      have observed : observePublished
          { fs with
            owner := .parsed (recordJson record)
            ownerTmp := .absent
            current := .link (pointerTo record.generation)
            currentTmp := .absent } = .owned (recordJson record) ↔
          PosixPath.Plain record.generation.toList := by
        rw [← pointerTo_basename, observe_recorded]
        cases observedGeneration (.link (pointerTo record.generation)) with
        | none => simp
        | some generation =>
            dsimp only
            split
            · rename_i same
              simp [same]
            · rename_i different
              simp [Ne.symm different]
      constructor
      · intro atomic
        refine ⟨fun lost => (by cases lost), fun _ _ _ => ?_⟩
        exact observed.mp (atomic.published _ answer)
      · intro condition
        refine ⟨fun reached same => ?_, fun reached same => ?_⟩
        · rw [answer] at same
          cases same
        · rw [answer] at same
          cases same
          exact observed.mpr (condition.2 rfl prepared free)
  | failed fault reached other blocked =>
      refine iff_of_true ⟨fun _ same => ?_, fun _ same => ?_⟩ ⟨?_, ?_⟩
      · rw [answer] at same
        cases same
        exact absurd rfl other
      · rw [answer] at same
        cases same
      · intro lost prepared
        have valid := (blocked prepared).1
        rw [lost] at valid
        cases valid
      · intro _ prepared free
        exact absurd (blocked prepared).2 free

/-- A leader that has lost its lease replaces the record of the one that holds
it: what was owned is inconsistent. -/
def publishedByNewer : PublicationFs where
  generations := fun _ => some true
  current := .link "generations/r2-e2"
  currentTmp := .absent
  owner := .parsed (recordJson ⟨"r2-e2", ⟨0, 2⟩, "o2", "t2", "d2"⟩)
  ownerTmp := .absent

theorem stale_publication_shows :
    ¬AtomicUnderLease publishedByNewer ⟨"r1-e1", ⟨0, 1⟩, "o1", "t1", "d1"⟩ false := by
  intro atomic
  have same := (observe_unchanged_iff _ _).mp (atomic.refused _ rfl)
  simp [publishedByNewer, recordJson] at same

end Barycenter.Dp
