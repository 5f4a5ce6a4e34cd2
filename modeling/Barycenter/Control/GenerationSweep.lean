import Barycenter.Dp.Driver
import Barycenter.Dp.Retention
import Barycenter.Foundation.DelimitedText
import Barycenter.Foundation.History

/-!
# Sweeping generations and reclaiming their slots

After an activation the control plane removes old generation directories and
then the membership slots of their epochs.  What must stay is the generation
just made and whatever the last status that was read names.  How long a
generation has been out of service is guessed from the directories: it is taken
to have left when the next one was made.

The guess holds as long as, whenever a generation leaves service, no directory
that is younger than its own has been standing for longer than workers may
linger.  A failed apply leaves such a directory behind, and so does going back to
an older generation.
-/

namespace Barycenter.Control

open Dp

structure DriverStatus where
  planes : PerPlane PlaneState
  published : PublishedState
  unfinished : Option PublishRecord
deriving DecidableEq, Repr

def generationName (revision epoch : Nat) : String :=
  "r" ++ toString revision ++ "-e" ++ toString epoch

def publishedGeneration : PublishedState → Option String
  | .none => none
  | .owned record => some record.generation
  | .inconsistent generation _ => generation

def protectedBy (justMade : String) (status : Option DriverStatus) : List String :=
  justMade ::
    ((status.bind fun st => publishedGeneration st.published).toList ++
      (status.bind fun st => st.unfinished.map PublishRecord.generation).toList)

structure SweepRequest where
  justMade : String
  keepGenerations : Option Int
  workerShutdownTimeoutS : Option Nat

def sweep (files : GenerationFiles) (status : Option DriverStatus) (now : Nat)
    (request : SweepRequest) : SweepResult :=
  let keep := request.keepGenerations.getD DEFAULT_KEEP
  if keep ≤ 0 then ⟨[], [], []⟩
  else
    sweepGenerations files
      { keep := some keep
        protect := protectedBy request.justMade status
        workerLingerMs := request.workerShutdownTimeoutS.map (· * 2000)
        now }

/-- The digits behind the last `-e` at the end of a name. -/
def epochText (generation : String) : Option String :=
  let reversed := generation.toList.reverse
  let digits := reversed.takeWhile Char.isDigit
  if digits ≠ [] ∧ ['e', '-'].isPrefixOf (reversed.dropWhile Char.isDigit) = true then
    some (String.ofList digits.reverse)
  else none

/-- The epochs whose slots both planes are asked to remove. -/
def reclaimSlots (removedGenerations : List String) : List String :=
  (removedGenerations.filterMap epochText).eraseDups

/-! ## The data plane and its generations over time -/

structure Node where
  agent : AgentState
  published : PublishedState
  /-- The generation whose workers take new requests. -/
  active : Option String
  /-- The generation directories with their modification times. -/
  directories : OrderedMap String Nat
  lastStatus : Option DriverStatus
  /-- When which generation left service. -/
  retired : List (String × Nat)
  clock : Nat

def Node.status (node : Node) : DriverStatus :=
  ⟨node.agent.planes, node.published, unfinishedIn node.agent⟩

/-- A generation was in service at some moment of the window before now. -/
def Node.ActiveWithin (node : Node) (window : Nat) (generation : String) : Prop :=
  node.active = some generation ∨
    ∃ left, (generation, left) ∈ node.retired ∧ node.clock < left + window

/-- The generation that stops being in service when another one starts. -/
def Node.replaced (node : Node) (active : Option String) : Option String :=
  if active = node.active then none else node.active

def Node.files (node : Node) (rmFault : String → Option String) : GenerationFiles where
  entries := node.directories.keys
  mtimeMs := node.directories.get?
  rmFault := rmFault

inductive Deed where
  /-- A generation is materialised, for an apply or for a node that follows. -/
  | built (epoch : Nat)
  /-- The control plane reads the status. -/
  | looked
  /-- The driver got ahead: an activation, a failure half-way, a publication again. -/
  | worked (agent : AgentState) (published : PublishedState) (active : Option String)
  | swept (request : SweepRequest) (rmFault : String → Option String)

def Node.outcome (node : Node) (request : SweepRequest) (rmFault : String → Option String) :
    SweepResult :=
  sweep (node.files rmFault) node.lastStatus node.clock request

def Node.after (revisionOf : Nat → Nat) (node : Node) : Deed → Node
  | .built epoch =>
      let name := generationName (revisionOf epoch) epoch
      if (node.directories.get? name).isSome then node
      else { node with directories := node.directories.set name node.clock }
  | .looked => { node with lastStatus := some node.status }
  | .worked agent published active =>
      { node with
        agent := agent
        published := published
        active := active
        retired := (node.replaced active).toList.map (·, node.clock) ++ node.retired }
  | .swept request rmFault =>
      let removed := (node.outcome request rmFault).removed
      { node with directories := node.directories.without fun name => name ∈ removed }

/-- A deed at a moment that is not earlier than the one before.  The revision of
an epoch is fixed, because an epoch is reserved once. -/
def Node.Step (revisionOf : Nat → Nat) (before : Node) (deed : Nat × Deed) (after : Node) : Prop :=
  before.clock ≤ deed.1 ∧ after = Node.after revisionOf { before with clock := deed.1 } deed.2

structure Node.Spared (node : Node) (request : SweepRequest)
    (rmFault : String → Option String) : Prop where
  published : ∀ generation, publishedGeneration node.published = some generation →
    generation ∉ (node.outcome request rmFault).removed
  unfinished : ∀ record, unfinishedIn node.agent = some record →
    record.generation ∉ (node.outcome request rmFault).removed
  lingering : ∀ seconds, request.workerShutdownTimeoutS = some seconds →
    ∀ generation ∈ (node.outcome request rmFault).removed,
      ¬node.ActiveWithin (seconds * 1000) generation
  slots : ∀ epoch ∈ reclaimSlots (node.outcome request rmFault).removed,
    (∀ name ∈ node.directories.keys, name ∉ (node.outcome request rmFault).removed →
      epochText name ≠ some epoch) ∧
    ∀ plane, toString (node.agent.planes.get plane).activationEpoch ≠ epoch

/-! ## When the guess is right -/

/-- What an apply that has just activated leaves, as long as nothing follows it. -/
structure Node.Settled (revisionOf : Nat → Nat) (node : Node) (justMade : String) : Prop where
  published : publishedGeneration node.published = some justMade
  finished : unfinishedIn node.agent = none
  serving : node.active = some justMade
  entered : ∃ epoch, justMade = generationName (revisionOf epoch) epoch ∧
    ∀ plane, (node.agent.planes.get plane).activationEpoch = epoch

/-- No directory that is younger than a generation has stood for longer than the
slack at the moment the generation leaves service. -/
def Node.Timely (slack : Nat) (node : Node) (leaving : String) (moment : Nat) : Prop :=
  ∀ made, node.directories.get? leaving = some made →
    ∀ name younger, node.directories.get? name = some younger → name ≠ leaving →
      made ≤ younger → moment ≤ younger + slack

/-- The condition on one deed: who leaves service leaves in time, and a sweep
follows its own activation with a timeout that covers the slack. -/
def Node.Meets (revisionOf : Nat → Nat) (slack : Nat) (before : Node) (deed : Nat × Deed) : Prop :=
  match deed.2 with
  | .worked _ _ active =>
      ∀ leaving, before.replaced active = some leaving → before.Timely slack leaving deed.1
  | .swept request _ =>
      before.Settled revisionOf request.justMade ∧
        ∀ seconds, request.workerShutdownTimeoutS = some seconds → slack ≤ seconds * 1000
  | _ => True

/-- The directories are generations, and who left service did so in time. -/
structure Node.Guessed (revisionOf : Nat → Nat) (slack : Nat) (node : Node) : Prop where
  named : ∀ name ∈ node.directories.keys,
    name = "bootstrap" ∨ ∃ epoch, name = generationName (revisionOf epoch) epoch
  left : ∀ leaving moment, (leaving, moment) ∈ node.retired →
    moment ≤ node.clock ∧ node.Timely slack leaving moment

variable {revisionOf : Nat → Nat} {slack : Nat}

variable {node : Node} {request : SweepRequest} {rmFault : String → Option String} {name : String}

theorem Node.Timely.built {leaving : String} {moment : Nat}
    (timely : node.Timely slack leaving moment) (past : moment ≤ node.clock)
    (fresh : node.directories.get? name = none) :
    Node.Timely slack { node with directories := node.directories.set name node.clock }
      leaving moment := by
  intro made found other younger otherFound different older
  simp only [OrderedMap.get?_set] at found otherFound
  by_cases isNew : name = other
  · rw [if_pos isNew, Option.some.injEq] at otherFound
    omega
  · rw [if_neg isNew] at otherFound
    by_cases leavingNew : name = leaving
    · rw [if_pos leavingNew, Option.some.injEq] at found
      omega
    · rw [if_neg leavingNew] at found
      exact timely made found other younger otherFound different older

theorem Node.Timely.without {leaving : String} {moment : Nat}
    (timely : node.Timely slack leaving moment) (doomed : String → Bool) :
    Node.Timely slack { node with directories := node.directories.without doomed }
      leaving moment := by
  intro made found other younger otherFound different older
  simp only [OrderedMap.get?_without] at found otherFound
  split at found
  · cases found
  · split at otherFound
    · cases otherFound
    · exact timely made found other younger otherFound different older

/-- A node before its first apply: at most the bootstrap is there. -/
structure Node.Fresh (node : Node) : Prop where
  bare : ∀ name ∈ node.directories.keys, name = "bootstrap"
  unused : node.retired = []

theorem Node.Guessed.later {moment : Nat}
    (guessed : node.Guessed revisionOf slack) (later : node.clock ≤ moment) :
    Node.Guessed revisionOf slack { node with clock := moment } :=
  ⟨guessed.named, fun leaving gone member =>
    ⟨(guessed.left leaving gone member).1.trans later, (guessed.left leaving gone member).2⟩⟩

def Node.turn (revisionOf : Nat → Nat) (node : Node) (deed : Nat × Deed) : Node :=
  Node.after revisionOf { node with clock := deed.1 } deed.2

def activation (epoch : Nat) : Deed :=
  let generation := generationName epoch epoch
  let entered : PlaneState :=
    { activationEpoch := epoch, membershipRevision := 0, payloadDigest := "" }
  .worked { initial with planes := ⟨entered, entered⟩ }
    (.owned ⟨generation, .ofNat 1, "o", "t", "d"⟩) (some generation)

/-- The last sweep of an apply that keeps one generation and lets workers linger ten seconds. -/
def sweepOf (epoch : Nat) : Deed :=
  .swept ⟨generationName epoch epoch, some 1, some 10⟩ fun _ => none

/-- An apply of an epoch at a moment, from its generation to its sweep. -/
def applied (moment epoch : Nat) : List (Nat × Deed) :=
  [(moment, .built epoch), (moment, .looked), (moment, activation epoch), (moment, sweepOf epoch)]

end Barycenter.Control
