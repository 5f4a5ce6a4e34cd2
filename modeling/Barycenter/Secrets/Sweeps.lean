import Barycenter.Control.AcmeRunner
import Barycenter.Foundation.History
import Barycenter.Secrets.Retention

/-!
# Secret versions, what refers to them, and sweeps

Versions are put into the store and referred to by changesets, revisions, certificate
orders, accounts, and the generations on disk.  A sweep reads the roots from the
database and the disk one source after the other, asks the store what it holds to
find the versions behind the directories of the generations, and then judges what is
stored.  The store of files is judged and cleared in one go.  In the store of rows the
judged rows are deleted one by one, and everything else goes on meanwhile.

Bytes that are already stored under their content address stay where they are, with
the time at which they first came.
-/

namespace Barycenter.Secrets

open Control (AcmeState)

inductive Backend where
  | fs
  | pg
deriving DecidableEq, Repr

abbrev Certificates := OrderedMap String Ref

inductive CertificateOp where
  | put (key : String) (materialRef : Ref)
  | delete (key : String)
deriving DecidableEq, Repr

def CertificateOp.ref : CertificateOp → Option Ref
  | .put _ materialRef => some materialRef
  | .delete _ => none

def applyOp (certificates : Certificates) : CertificateOp → Certificates
  | .put key materialRef => certificates.set key materialRef
  | .delete key => certificates.erase key

inductive ChangesetState where
  | opened
  | sealed
  | committed
  | discarded
deriving DecidableEq, Repr

structure Changeset where
  ops : List CertificateOp
  /-- The number of revisions that the plan was made over. -/
  base : Nat
  state : ChangesetState
deriving DecidableEq, Repr

def Changeset.refs (changeset : Changeset) : List Ref := changeset.ops.filterMap CertificateOp.ref

def Changeset.pending (changeset : Changeset) : Bool :=
  changeset.state = .opened || changeset.state = .sealed

structure Order where
  certificateKey : String
  state : AcmeState
  issuedRef : Option Ref
  certKeyRef : Option Ref
  updatedAt : Nat
deriving DecidableEq, Repr

def Order.refs (order : Order) : List Ref := order.issuedRef.toList ++ order.certKeyRef.toList

inductive Source where
  | revisions
  | generations
  | accounts
  | orders
deriving DecidableEq, Repr

def Source.all : List Source := [.revisions, .generations, .accounts, .orders]

/-- References, and the versions that directories of generations are named after. -/
structure Gathered where
  refs : List Ref := []
  versions : List String := []
deriving DecidableEq, Repr

inductive Sweep where
  | reading (startedAt : Nat) (gathered : Gathered) (left : List Source)
  | judging (startedAt : Nat) (roots : List Ref)
  | deleting (doomed : List Ref)
deriving DecidableEq, Repr

structure World where
  now : Nat := 0
  /-- Every stored version, with the time of its directory or row. -/
  stored : OrderedMap Ref Nat := .empty
  /-- What puts returned, and when. -/
  returned : List (Ref × Nat) := []
  /-- Newest first. -/
  revisions : List Certificates := []
  changesets : OrderedMap String Changeset := .empty
  generations : OrderedMap String Certificates := .empty
  accounts : List Ref := []
  orders : OrderedMap String Order := .empty
  sweeps : OrderedMap Nat Sweep := .empty

/-- `DEFAULT_ROLLBACK_REVISIONS` -/
def rollbackRevisions : Nat := 20

def sevenDays : Nat := 7 * 24 * 3600000

namespace World

def head (world : World) : Certificates := world.revisions.head?.getD .empty

def retained (world : World) : List Certificates := world.revisions.take rollbackRevisions

def usedBy (world : World) : Source → List Ref
  | .revisions => world.retained.flatMap OrderedMap.values
  | .generations => world.generations.values.flatMap OrderedMap.values
  | .accounts => world.accounts
  | .orders =>
      (world.orders.values.filter fun order => order.state ≠ .abandoned).flatMap Order.refs

/-- What changesets refer to that are open or sealed by a plan. -/
def proposed (world : World) : List Ref :=
  (world.changesets.values.filter Changeset.pending).flatMap Changeset.refs

/-! ## Reading the roots -/

/-- One query, or the walk over the directories of the generations. -/
def gather (world : World) (gathered : Gathered) : Source → Gathered
  | .revisions => { gathered with refs := gathered.refs ++ world.usedBy .revisions }
  | .generations =>
      { gathered with
        versions := gathered.versions ++ (world.usedBy .generations).map Ref.version }
  | .accounts => { gathered with refs := gathered.refs ++ world.accounts }
  | .orders =>
      { gathered with
        refs := gathered.refs ++
          (world.orders.values.filter fun order =>
            order.state ≠ .abandoned || world.now < order.updatedAt + sevenDays).flatMap
              Order.refs }

def expandVersionRoots (gathered : Gathered) (allRefs : List Ref) : List Ref :=
  gathered.refs ++ allRefs.filter fun ref => gathered.versions.contains ref.version

def entries (world : World) : List SweepEntry :=
  world.stored.entries.map fun (ref, mtime) => { ref, mtime }

def doomed (policy : Policy) (world : World) (roots : List Ref) : List Ref :=
  (partitionForSweep policy roots world.now world.entries).2.map SweepEntry.ref

def withSweep (world : World) (sweep : Nat) (phase : Sweep) : World :=
  { world with sweeps := world.sweeps.set sweep phase }

def endSweep (world : World) (sweep : Nat) : World :=
  { world with sweeps := world.sweeps.erase sweep }

def setChangeset (world : World) (id : String) (changeset : Changeset) : World :=
  { world with changesets := world.changesets.set id changeset }

def setOrder (world : World) (id : String) (order : Order) : World :=
  { world with orders := world.orders.set id { order with updatedAt := world.now } }

/-- A new revision.  The orders of certificates that it does not have any more go. -/
def push (world : World) (certificates : Certificates) : World :=
  { world with
    revisions := certificates :: world.revisions
    orders := world.orders.filterValues fun order =>
      (certificates.get? order.certificateKey).isSome }

end World

inductive Action where
  | tick (milliseconds : Nat)
  | put (ref : Ref)
  | createChangeset (id : String)
  | patchChangeset (id : String) (ops : List CertificateOp)
  | plan (id : String)
  | reopen (id : String)
  | discard (id : String)
  | commit (id : String)
  | rollback (revision : Nat)
  | build (generation : String) (revision : Nat)
  | removeGeneration (generation : String)
  | register (accountKeyRef : Ref)
  | openOrder (id certificateKey : String)
  | setCertKeyRef (id : String) (ref : Ref)
  | markIssued (id : String) (issuedRef certKeyRef : Ref)
  | advance (id : String) (state : AcmeState)
  | beginSweep (sweep : Nat)
  | readSource (sweep : Nat)
  | listRefs (sweep : Nat)
  | judge (sweep : Nat)
  | deleteNext (sweep : Nat)
deriving DecidableEq, Repr

namespace World

/-- A changeset moves on when it is in the right state. -/
def changeset (world : World) (id : String) (allowed : Changeset → Bool)
    (next : Changeset → World) : Option World :=
  match world.changesets.get? id with
  | some changeset => if allowed changeset then some (next changeset) else none
  | none => none

def order (world : World) (id : String) (change : Order → Order) : Option World :=
  (world.orders.get? id).map fun order => world.setOrder id (change order)

/-- The step of the store's users.  Publishing an issued certificate is a changeset
that puts its material, and goes through the same steps. -/
def use (world : World) : Action → Option World
  | .tick milliseconds => some { world with now := world.now + milliseconds }
  | .put ref =>
      some
        { world with
          stored :=
            -- content address: the same bytes are the same version, and stay as they are
            if (world.stored.get? ref).isSome then world.stored
            else world.stored.set ref world.now
          returned := (ref, world.now) :: world.returned }
  | .createChangeset id =>
      if (world.changesets.get? id).isSome then none
      else some (world.setChangeset id { ops := [], base := 0, state := .opened })
  | .patchChangeset id ops =>
      world.changeset id (·.state = .opened) fun changeset =>
        world.setChangeset id { changeset with ops := changeset.ops ++ ops }
  | .plan id =>
      world.changeset id (·.state = .opened) fun changeset =>
        world.setChangeset id
          { changeset with state := .sealed, base := world.revisions.length }
  | .reopen id =>
      world.changeset id (·.state = .sealed) fun changeset =>
        world.setChangeset id { changeset with state := .opened }
  | .discard id =>
      world.changeset id Changeset.pending fun changeset =>
        world.setChangeset id { changeset with state := .discarded }
  | .commit id =>
      world.changeset id
        (fun changeset => changeset.state = .sealed && changeset.base = world.revisions.length)
        fun changeset =>
          (world.setChangeset id { changeset with state := .committed }).push
            (changeset.ops.foldl applyOp world.head)
  | .rollback revision =>
      -- the certificates are deleted and put again, and their orders go with them
      (world.retained[revision]?).map fun certificates =>
        { world with revisions := certificates :: world.revisions, orders := .empty }
  | .build generation revision =>
      (world.revisions[revision]?).map fun certificates =>
        { world with generations := world.generations.set generation certificates }
  | .removeGeneration generation =>
      some { world with generations := world.generations.erase generation }
  | .register accountKeyRef =>
      some { world with accounts := accountKeyRef :: world.accounts }
  | .openOrder id certificateKey =>
      if (world.orders.get? id).isSome || (world.head.get? certificateKey).isNone then none
      else
        some (world.setOrder id
          { certificateKey := certificateKey, state := .pending, issuedRef := none,
            certKeyRef := none, updatedAt := world.now })
  | .setCertKeyRef id ref => world.order id fun order => { order with certKeyRef := some ref }
  | .markIssued id issuedRef certKeyRef =>
      world.order id fun order =>
        { order with state := .issued, issuedRef := some issuedRef, certKeyRef := some certKeyRef }
  | .advance id state => world.order id fun order => { order with state := state }
  | _ => none

def sweepStep (backend : Backend) (policy : Policy) (world : World) : Action → Option World
  | .beginSweep sweep =>
      if (world.sweeps.get? sweep).isSome then none
      else some (world.withSweep sweep (.reading world.now {} Source.all))
  | .readSource sweep =>
      match world.sweeps.get? sweep with
      | some (.reading startedAt gathered (source :: left)) =>
          some (world.withSweep sweep (.reading startedAt (world.gather gathered source) left))
      | _ => none
  | .listRefs sweep =>
      match world.sweeps.get? sweep with
      | some (.reading startedAt gathered []) =>
          some (world.withSweep sweep
            (.judging startedAt (expandVersionRoots gathered world.stored.keys)))
      | _ => none
  | .judge sweep =>
      match world.sweeps.get? sweep, backend with
      | some (.judging _ roots), .fs =>
          some
            ({ world with
              stored := world.stored.without (world.doomed policy roots).contains }.endSweep sweep)
      | some (.judging _ roots), .pg =>
          some (world.withSweep sweep (.deleting (world.doomed policy roots)))
      | _, _ => none
  | .deleteNext sweep =>
      match world.sweeps.get? sweep with
      | some (.deleting (ref :: rest)) =>
          some ({ world with stored := world.stored.erase ref }.withSweep sweep (.deleting rest))
      | some (.deleting []) => some (world.endSweep sweep)
      | _ => none
  | _ => none

def deleted (backend : Backend) (policy : Policy) (world : World) : Action → List Ref
  | .judge sweep =>
      match world.sweeps.get? sweep, backend with
      | some (.judging _ roots), .fs => world.doomed policy roots
      | _, _ => []
  | .deleteNext sweep =>
      match world.sweeps.get? sweep with
      | some (.deleting (ref :: _)) => [ref]
      | _ => []
  | _ => []

end World

def act (backend : Backend) (policy : Policy) (world : World) (action : Action) : Option World :=
  (world.use action).or (world.sweepStep backend policy action)

def Steps (backend : Backend) (policy : Policy) (before : World) (action : Action)
    (after : World) : Prop :=
  act backend policy before action = some after

end Barycenter.Secrets
