import Barycenter.Foundation.History
import Barycenter.Foundation.OrderedMap
import Mathlib.Logic.Function.Basic

/-!
# The SQLite store of one process

All instances that open a file under one path share a bundle: one writing
connection, one reading connection, a queue in front of the writer, and the time
of the transaction that is open.  A statement outside a transaction goes to the
reader when its text is that of a reading, else it queues for the writer; a
transaction queues, and has the writer from its `BEGIN` to its end.

Of SQLite itself it is assumed that every statement is atomic, that the reader
sees what is committed, that at most one connection of a file is in a writing
transaction, and that a statement may fail alone or take its whole transaction
back.
-/

namespace Barycenter

namespace Sqlite

/-! ## Routing -/

/-- `/^(\s|--[^\n]*\n|\/\*[\s\S]*?\*\/)+/`, taken off; a comment that does not
end is left. -/
def skipBlanks : Nat → List Char → List Char
  | 0, text => text
  | fuel + 1, text =>
      match text with
      | '-' :: '-' :: rest =>
          match rest.dropWhile (· ≠ '\n') with
          | [] => text
          | _ :: after => skipBlanks fuel after
      | '/' :: '*' :: rest =>
          match afterComment rest with
          | none => text
          | some after => skipBlanks fuel after
      | character :: rest => if character.isWhitespace then skipBlanks fuel rest else text
      | [] => []
where
  afterComment : List Char → Option (List Char)
    | '*' :: '/' :: after => some after
    | _ :: rest => afterComment rest
    | [] => none

def isWord (character : Char) : Bool := character.isAlphanum || decide (character = '_')

/-- `/\b(INSERT|UPDATE|DELETE|REPLACE)\b/i`: one of the words stands alone. -/
def mentionsWriting (text : List Char) : Bool :=
  (text.splitOnP fun character => !isWord character).any fun word =>
    ["INSERT", "UPDATE", "DELETE", "REPLACE"].contains (String.ofList (word.map Char.toUpper))

def isRead (sql : String) : Bool :=
  let text := sql.toList
  let head := ((skipBlanks text.length text).take 16).map Char.toUpper
  if "SELECT".toList.isPrefixOf head || "VALUES".toList.isPrefixOf head then true
  else if "WITH".toList.isPrefixOf head then !mentionsWriting text
  else false

/-! ## Statements -/

/-- What becomes of a statement.  Some failures take the transaction back. -/
inductive Ran (δ ρ : Type) where
  | done (data : δ) (rows : ρ)
  | failed
  | lost
deriving DecidableEq, Repr

def Ran.left {δ ρ : Type} (ran : Ran δ ρ) (data : δ) : δ :=
  match ran with
  | .done reached _ => reached
  | .failed | .lost => data

/-- A statement with its values: what it does to the data at a time of `now()`.
A statement whose text is that of a reading changes nothing. -/
structure Statement (δ ρ : Type) where
  text : String
  run : δ → Nat → Ran δ ρ
  reads : isRead text = true → ∀ data now, (run data now).left data = data

/-! ## The store -/

variable {δ ρ : Type}

inductive Request (δ ρ : Type) where
  | write (statement : Statement δ ρ)
  | tx
  | dryRun

inductive Stage where
  | waiting
  | inside (begun : Nat)
  | ended
deriving DecidableEq, Repr

structure Call (δ ρ : Type) where
  request : Request δ ρ
  asked : Nat
  stage : Stage

structure Bundle (δ ρ : Type) where
  txNow : Option Nat := none
  queue : List Nat := []
  calls : OrderedMap Nat (Call δ ρ) := OrderedMap.empty

/-- The bundle whose writer is in a transaction, with the data as that
transaction sees it. -/
structure World (δ ρ : Type) where
  committed : δ
  clock : Nat
  writing : Option (Nat × δ) := none
  bundles : Nat → Bundle δ ρ := fun _ => {}

inductive Step (δ ρ : Type) where
  | tick (later : Nat)
  | read (bundle : Nat) (statement : Statement δ ρ)
  | ask (bundle call : Nat) (request : Request δ ρ)
  | nested (bundle call : Nat)
  | write (bundle call : Nat)
  | beginImmediate (bundle call : Nat) (granted : Bool)
  | statement (bundle call : Nat) (statement : Statement δ ρ)
  | finish (bundle call : Nat) (threw kept : Bool)
  | release (bundle call : Nat)

namespace World

def call? (world : World δ ρ) (bundle call : Nat) : Option (Call δ ρ) :=
  (world.bundles bundle).calls.get? call

def queue (world : World δ ρ) (bundle : Nat) : List Nat := (world.bundles bundle).queue

def txNow (world : World δ ρ) (bundle : Nat) : Option Nat := (world.bundles bundle).txNow

/-- The function `now()` of both connections of the bundle. -/
def now (world : World δ ρ) (bundle : Nat) : Nat := (world.txNow bundle).getD world.clock

/-- The data that the open transaction of this writer sees. -/
def working (world : World δ ρ) (bundle : Nat) : Option δ :=
  world.writing.bind fun (holder, data) => if holder = bundle then some data else none

def become (world : World δ ρ) (bundle : Nat) (entry : Bundle δ ρ) : World δ ρ :=
  { world with bundles := Function.update world.bundles bundle entry }

def putCall (world : World δ ρ) (bundle call : Nat) (entry : Call δ ρ) : World δ ρ :=
  world.become bundle
    { world.bundles bundle with calls := (world.bundles bundle).calls.set call entry }

def withTxNow (world : World δ ρ) (bundle : Nat) (txNow : Option Nat) : World δ ρ :=
  world.become bundle { world.bundles bundle with txNow := txNow }

def withQueue (world : World δ ρ) (bundle : Nat) (queue : List Nat) : World δ ρ :=
  world.become bundle { world.bundles bundle with queue := queue }

/-- A statement on the writing connection: in its transaction when it has one,
else on its own, for which no other connection may be in one. -/
def run (world : World δ ρ) (bundle : Nat) (statement : Statement δ ρ) : World δ ρ :=
  match world.writing with
  | none =>
      { world with
        committed := (statement.run world.committed (world.now bundle)).left world.committed }
  | some (holder, data) =>
      if holder = bundle then
        match statement.run data (world.now bundle) with
        | .done reached _ => { world with writing := some (holder, reached) }
        | .failed => world
        | .lost => { world with writing := none }
      else world

/-- `ROLLBACK`, which fails when there is no transaction. -/
def rollback (world : World δ ρ) (bundle : Nat) : World δ ρ :=
  if (world.working bundle).isSome then { world with writing := none } else world

/-- `COMMIT`; when it fails, what it leaves is rolled back. -/
def commit (world : World δ ρ) (bundle : Nat) (kept : Bool) : World δ ρ :=
  match world.working bundle, kept with
  | some data, true => { world with committed := data, writing := none }
  | _, _ => world.rollback bundle

def next? (world : World δ ρ) (bundle call : Nat) : Option (Call δ ρ) :=
  if (world.queue bundle).head? = some call then
    (world.call? bundle call).filter fun entry => decide (entry.stage = .waiting)
  else none

def inside? (world : World δ ρ) (bundle call : Nat) : Option (Call δ ρ) :=
  (world.call? bundle call).filter fun entry =>
    match entry.stage with
    | .inside _ => true
    | _ => false

end World

/-- Whether the request may queue: a reading goes to the reader at once. -/
def Request.queues : Request δ ρ → Bool
  | .write statement => !isRead statement.text
  | .tx | .dryRun => true

/-- Whether a finished transaction is to be committed. -/
def Request.commits (request : Request δ ρ) (threw : Bool) : Bool :=
  match request with
  | .tx => !threw
  | _ => false

def act (world : World δ ρ) : Step δ ρ → Option (World δ ρ)
  | .tick later => if world.clock ≤ later then some { world with clock := later } else none
  | .read _ statement => if isRead statement.text then some world else none
  | .ask bundle call request =>
      match world.call? bundle call with
      | some _ => none
      | none =>
          if request.queues then
            some ((world.withQueue bundle (world.queue bundle ++ [call])).putCall bundle
              call { request := request, asked := world.clock, stage := .waiting })
          else none
  -- Inside a transaction a second one, or a write outside it, is refused at once.
  | .nested bundle call => (world.inside? bundle call).map fun _ => world
  | .write bundle call =>
      match world.next? bundle call with
      | some ⟨.write statement, asked, _⟩ =>
          some ((world.run bundle statement).putCall bundle call
            { request := .write statement, asked := asked, stage := .ended })
      | _ => none
  | .beginImmediate bundle call granted =>
      match world.next? bundle call with
      | none | some ⟨.write _, _, _⟩ => none
      | some entry =>
          if granted ∧ world.writing.isNone then
            some (({ world with writing := some (bundle, world.committed) }.withTxNow bundle
              (some world.clock)).putCall bundle call { entry with stage := .inside world.clock })
          else some (world.putCall bundle call { entry with stage := .ended })
  | .statement bundle call statement =>
      (world.inside? bundle call).map fun _ => world.run bundle statement
  | .finish bundle call threw kept =>
      (world.inside? bundle call).map fun entry =>
        let ended := if entry.request.commits threw then world.commit bundle kept
          else world.rollback bundle
        (ended.withTxNow bundle none).putCall bundle call { entry with stage := .ended }
  | .release bundle call =>
      match world.queue bundle, world.call? bundle call with
      | first :: rest, some ⟨_, _, .ended⟩ =>
          if first = call then some (world.withQueue bundle rest) else none
      | _, _ => none

/-! ## What is where -/

namespace World

variable {world : World δ ρ} {bundle other call second : Nat} {entry : Call δ ρ}
  {line : List Nat} {time : Option Nat}

@[simp]
theorem call?_putCall : (world.putCall bundle call entry).call? other second =
    if other = bundle ∧ call = second then some entry else world.call? other second := by
  simp only [call?, putCall, become, Function.update_apply]
  by_cases same : other = bundle
  · subst same
    simp [OrderedMap.get?_set]
  · simp [same]

@[simp]
theorem queue_putCall : (world.putCall bundle call entry).queue other = world.queue other := by
  simp only [World.queue, putCall, become, Function.update_apply]
  split
  · next same => rw [same]
  · rfl

@[simp]
theorem txNow_putCall : (world.putCall bundle call entry).txNow other = world.txNow other := by
  simp only [World.txNow, putCall, become, Function.update_apply]
  split
  · next same => rw [same]
  · rfl

@[simp]
theorem call?_withQueue : (world.withQueue bundle line).call? other second =
    world.call? other second := by
  simp only [call?, withQueue, become, Function.update_apply]
  split
  · next same => rw [same]
  · rfl

@[simp]
theorem queue_withQueue : (world.withQueue bundle line).queue other =
    if other = bundle then line else world.queue other := by
  simp only [World.queue, withQueue, become, Function.update_apply]
  split <;> rfl

@[simp]
theorem txNow_withQueue : (world.withQueue bundle line).txNow other = world.txNow other := by
  simp only [World.txNow, withQueue, become, Function.update_apply]
  split
  · next same => rw [same]
  · rfl

@[simp]
theorem call?_withTxNow : (world.withTxNow bundle time).call? other second =
    world.call? other second := by
  simp only [call?, withTxNow, become, Function.update_apply]
  split
  · next same => rw [same]
  · rfl

@[simp]
theorem queue_withTxNow : (world.withTxNow bundle time).queue other = world.queue other := by
  simp only [World.queue, withTxNow, become, Function.update_apply]
  split
  · next same => rw [same]
  · rfl

@[simp]
theorem txNow_withTxNow : (world.withTxNow bundle time).txNow other =
    if other = bundle then time else world.txNow other := by
  simp only [World.txNow, withTxNow, become, Function.update_apply]
  split <;> rfl

/-- The connections leave the bundles and the clock alone. -/
structure SameBundles (world after : World δ ρ) : Prop where
  bundles : after.bundles = world.bundles
  clock : after.clock = world.clock

theorem sameBundles_run (statement : Statement δ ρ) :
    SameBundles world (world.run bundle statement) := by
  unfold run
  split
  · exact ⟨rfl, rfl⟩
  · split
    · split <;> exact ⟨rfl, rfl⟩
    · exact ⟨rfl, rfl⟩

theorem sameBundles_rollback : SameBundles world (world.rollback bundle) := by
  unfold rollback
  split <;> exact ⟨rfl, rfl⟩

theorem sameBundles_commit (kept : Bool) : SameBundles world (world.commit bundle kept) := by
  unfold commit
  split
  · exact ⟨rfl, rfl⟩
  · exact sameBundles_rollback

variable {after : World δ ρ}

theorem SameBundles.call? (same : SameBundles world after) :
    after.call? bundle call = world.call? bundle call := by
  simp [World.call?, same.bundles]

theorem SameBundles.queue (same : SameBundles world after) :
    after.queue bundle = world.queue bundle := by
  simp [World.queue, same.bundles]

theorem SameBundles.txNow (same : SameBundles world after) :
    after.txNow bundle = world.txNow bundle := by
  simp [World.txNow, same.bundles]

end World

/-! ## What a step does -/

/-- The steps that act, and what becomes of the world. -/
inductive Acted (world : World δ ρ) : Step δ ρ → World δ ρ → Prop where
  | ticked {later : Nat} (onward : world.clock ≤ later) :
      Acted world (.tick later) { world with clock := later }
  | read {bundle : Nat} {statement : Statement δ ρ} (reading : isRead statement.text = true) :
      Acted world (.read bundle statement) world
  | asked {bundle call : Nat} {request : Request δ ρ}
      (fresh : world.call? bundle call = none) :
      Acted world (.ask bundle call request)
        ((world.withQueue bundle (world.queue bundle ++ [call])).putCall bundle call
          { request := request, asked := world.clock, stage := .waiting })
  | nested {bundle call : Nat} : Acted world (.nested bundle call) world
  | wrote {bundle call asked : Nat} {statement : Statement δ ρ}
      (next : world.next? bundle call = some ⟨.write statement, asked, .waiting⟩) :
      Acted world (.write bundle call)
        ((world.run bundle statement).putCall bundle call ⟨.write statement, asked, .ended⟩)
  | begun {bundle call : Nat} {entry : Call δ ρ}
      (next : world.next? bundle call = some entry) (free : world.writing = none) :
      Acted world (.beginImmediate bundle call true)
        (({ world with writing := some (bundle, world.committed) }.withTxNow bundle
          (some world.clock)).putCall bundle call { entry with stage := .inside world.clock })
  | notBegun {bundle call : Nat} {granted : Bool} {entry : Call δ ρ}
      (next : world.next? bundle call = some entry)
      (refused : ¬ (granted = true ∧ world.writing = none)) :
      Acted world (.beginImmediate bundle call granted)
        (world.putCall bundle call { entry with stage := .ended })
  | stated {bundle call : Nat} {statement : Statement δ ρ} {entry : Call δ ρ}
      (inside : world.inside? bundle call = some entry) :
      Acted world (.statement bundle call statement) (world.run bundle statement)
  | finished {bundle call : Nat} {threw kept : Bool} {entry : Call δ ρ}
      (inside : world.inside? bundle call = some entry) :
      Acted world (.finish bundle call threw kept)
        (((if entry.request.commits threw then world.commit bundle kept
            else world.rollback bundle).withTxNow bundle none).putCall bundle call
          { entry with stage := .ended })
  | released {bundle call : Nat} {rest : List Nat} {entry : Call δ ρ}
      (queue : world.queue bundle = call :: rest) (known : world.call? bundle call = some entry)
      (ended : entry.stage = .ended) :
      Acted world (.release bundle call) (world.withQueue bundle rest)

theorem next?_spec {world : World δ ρ} {bundle call : Nat} {entry : Call δ ρ}
    (next : world.next? bundle call = some entry) :
    (world.queue bundle).head? = some call ∧ world.call? bundle call = some entry ∧
      entry.stage = .waiting := by
  simp only [World.next?] at next
  split at next
  · next first =>
      obtain ⟨known, waiting⟩ := Option.filter_eq_some_iff.mp next
      exact ⟨first, known, of_decide_eq_true waiting⟩
  · cases next

theorem inside?_spec {world : World δ ρ} {bundle call : Nat} {entry : Call δ ρ}
    (inside : world.inside? bundle call = some entry) :
    world.call? bundle call = some entry ∧ ∃ begun, entry.stage = .inside begun := by
  obtain ⟨known, stage⟩ := Option.filter_eq_some_iff.mp inside
  refine ⟨known, ?_⟩
  split at stage
  · next begun same => exact ⟨begun, same⟩
  · cases stage

theorem act_acted {world after : World δ ρ} {step : Step δ ρ}
    (acted : act world step = some after) : Acted world step after := by
  cases step with simp only [act] at acted
  | tick later =>
      split at acted
      · next onward => exact Option.some.inj acted ▸ .ticked onward
      · cases acted
  | read bundle statement =>
      split at acted
      · next reading => exact Option.some.inj acted ▸ .read reading
      · cases acted
  | ask bundle call request =>
      split at acted
      · cases acted
      · next fresh =>
          split at acted
          · exact Option.some.inj acted ▸ .asked fresh
          · cases acted
  | nested bundle call =>
      obtain ⟨_, _, rfl⟩ := Option.map_eq_some_iff.mp acted
      exact .nested
  | write bundle call =>
      split at acted
      · next statement asked stage next =>
          obtain rfl : stage = .waiting := (next?_spec next).2.2
          exact Option.some.inj acted ▸ .wrote next
      · cases acted
  | beginImmediate bundle call granted =>
      split at acted
      · cases acted
      · cases acted
      · next entry _ next =>
          split at acted
          · next free =>
              obtain ⟨rfl, free⟩ := free
              exact Option.some.inj acted ▸ .begun next (Option.isNone_iff_eq_none.mp free)
          · next refused =>
              rw [Option.isNone_iff_eq_none] at refused
              exact Option.some.inj acted ▸ .notBegun next refused
  | statement bundle call statement =>
      obtain ⟨entry, inside, rfl⟩ := Option.map_eq_some_iff.mp acted
      exact .stated inside
  | finish bundle call threw kept =>
      obtain ⟨entry, inside, rfl⟩ := Option.map_eq_some_iff.mp acted
      exact .finished inside
  | release bundle call =>
      split at acted
      · next first rest _ _ queue known =>
          split at acted
          · next same =>
              subst same
              exact Option.some.inj acted ▸ .released queue known rfl
          · cases acted
      · cases acted

/-- What a statement is answered.  The reader sees what is committed. -/
def answer (world : World δ ρ) : Step δ ρ → Option (Ran δ ρ)
  | .read bundle statement => some (statement.run world.committed (world.now bundle))
  | .statement bundle _ statement =>
      some (statement.run ((world.working bundle).getD world.committed) (world.now bundle))
  | .write bundle call =>
      match world.next? bundle call with
      | some ⟨.write statement, _, _⟩ =>
          some (statement.run ((world.working bundle).getD world.committed) (world.now bundle))
      | _ => none
  | _ => none

abbrev SqliteEvent (δ ρ : Type) := Event (World δ ρ) (Step δ ρ)

def SqliteRun (start : δ) (clock : Nat) (history : List (SqliteEvent δ ρ))
    (final : World δ ρ) : Prop :=
  Follows (fun before label after => act before label = some after)
    { committed := start, clock := clock } history final

end Sqlite

end Barycenter
