import Mathlib.Data.List.Sort
import Barycenter.Store.PlanFidelity

/-!
# The publication of issued certificates

An issued order does not change the configuration.  A publisher compares the
material of every certificate with the newest order issued for it, and where the
two differ it goes the way of a user: a changeset over the head, a plan, a
commit.  Nothing is stored about a publication.  Users work on the same store,
and any number of publishers run; each of them can stop between two statements.
-/

namespace Barycenter.Control

open Config Store

/-- An issued order.  When it was issued is told by the number of orders issued
before it and by the head of that moment. -/
structure Publication where
  orderId : String
  certificateKey : String
  issuedRef : String
  turn : Nat
  head : Nat
deriving DecidableEq, Repr

inductive OrderProgress where
  /-- One of the states in which the order is worked on. -/
  | live
  | issued (publication : Publication)
  | abandoned
deriving DecidableEq, Repr

structure OrderEntry where
  id : String
  certificateKey : String
  createdAt : Nat
  updatedAt : Nat
  progress : OrderProgress := .live
deriving DecidableEq, Repr

def OrderEntry.publication? (entry : OrderEntry) : Option Publication :=
  match entry.progress with
  | .issued publication => some publication
  | _ => none

/-- `ORDER BY o.created_at DESC, o.id DESC` -/
def OrderEntry.newerThan (entry other : OrderEntry) : Bool :=
  decide (other.createdAt < entry.createdAt) ||
    decide (other.createdAt = entry.createdAt) && decide (other.id < entry.id)

/-- No order for the same certificate that is issued too is newer. -/
def newestIssued (orders : List OrderEntry) (entry : OrderEntry) : Bool :=
  orders.all fun other =>
    decide (other.certificateKey ≠ entry.certificateKey) || other.publication?.isNone ||
      !other.newerThan entry

inductive Author where
  | user
  | publisher (publication : Publication)
deriving DecidableEq, Repr

def Author.publication? : Author → Option Publication
  | .user => none
  | .publisher publication => some publication

/-- A revision, who made it, and the certificates that it put or deleted. -/
structure Decision where
  revision : Nat
  author : Author
  keys : List String
deriving DecidableEq, Repr

def certificateKey : PatchOp → Option String
  | .put (.certificate certificate) => some certificate.key
  | .delete .certificate key => some key
  | _ => none

def deletedCertificate : PatchOp → Option String
  | .delete .certificate key => some key
  | _ => none

def patchOf (db : ConfigDb) (changesetId : String) : List PatchOp :=
  (db.changesets.get? changesetId).elim [] ChangesetRow.patch

/-- What the secret store tells about the material of a reference. -/
structure MaterialDigests where
  chainDigest : String
  keyDigest : String
deriving DecidableEq, Repr

inductive PublishStage where
  | describing
  | heading (digests : MaterialDigests)
  | creating (digests : MaterialDigests) (base : Nat)
  | intending (digests : MaterialDigests) (changesetId : String)
  | patching (certificate : Certificate) (changesetId : String)
  | planning (changesetId : String)
  | trying (changesetId : String) (call : Nat)
  | sealing (changesetId : String) (call : Nat)
  | committing (changesetId planId : String)
deriving DecidableEq, Repr

inductive PublishCall where
  | idle
  | publishing (publication : Publication) (rest : List Publication) (stage : PublishStage)
deriving DecidableEq, Repr

def queued : List Publication → PublishCall
  | [] => .idle
  | publication :: rest => .publishing publication rest .describing

/-- What comes from outside with a step of a publisher. -/
structure PublishAnswer where
  digests : MaterialDigests := ⟨"", ""⟩
  changesetId : String := ""
  planId : String := ""
  call : Nat := 0
  torn : Model := {}
  now : Nat := 0
  audited : Bool := true

inductive PublishAction (ι : Type) where
  /-- A step of anybody else in the store. -/
  | store (input : StoreInput)
  | openOrder (id certificateKey : String) (now : Nat)
  | issue (id issuedRef : String) (now : Nat)
  | abandon (id : String) (now : Nat)
  /-- The row of an order is written for another reason. -/
  | touch (id : String) (now : Nat)
  | go (publisher : ι) (answer : PublishAnswer)
  /-- The statement throws, and the publisher takes the next publication. -/
  | throws (publisher : ι)
  | crash (publisher : ι)

structure PublishWorld (ι : Type) where
  system : StoreSystem := {}
  orders : List OrderEntry := []
  /-- Every identifier of an order that was ever opened. -/
  opened : List String := []
  /-- Every order that was ever issued. -/
  issued : List Publication := []
  decisions : List Decision := []
  calls : ι → PublishCall

namespace PublishWorld

variable {ι : Type}

def initial : PublishWorld ι := { calls := fun _ => .idle }

def head (world : PublishWorld ι) : Nat := world.system.db.head

def materialRef (world : PublishWorld ι) (key : String) : Option String :=
  (world.system.db.tables.certificates.get? key).bind CertificateRow.materialRef

/-- The newest issued order of every certificate, where the certificate has other
material: `WHERE latest.material_ref IS DISTINCT FROM latest.issued_ref`. -/
def pendingPublications (world : PublishWorld ι) : List Publication :=
  let joined := world.orders.filter fun entry =>
    (world.system.db.tables.certificates.get? entry.certificateKey).isSome
  let latest := joined.filter (newestIssued joined)
  let sorted := latest.insertionSort fun first second => first.updatedAt ≤ second.updatedAt
  (sorted.filterMap OrderEntry.publication?).filter fun publication =>
    decide (world.materialRef publication.certificateKey ≠ some publication.issuedRef)

/-- A put overwrites the whole row, so it carries the present intent along. -/
def acmeIntentOf (world : PublishWorld ι) (key : String) : Option AcmeIntent :=
  (world.system.db.tables.certificates.get? key).bind fun row =>
    row.acmeAccount.map fun account =>
      { account := account, domains := row.acmeDomains.getD [] }

/-- The certificates that a transaction put or deleted.  A rollback deletes all
of them and puts those of the revision. -/
def keysWritten (world : PublishWorld ι) (system : StoreSystem) : StoreAction → List String
  | .commit changesetId _ _ => (patchOf world.system.db changesetId).filterMap certificateKey
  | .rollbackTo _ _ _ =>
      world.system.db.tables.certificates.keys ++ system.db.tables.certificates.keys
  | _ => []

def ordersLeft (world : PublishWorld ι) : StoreAction → List OrderEntry
  | .commit changesetId _ _ =>
      let deleted := (patchOf world.system.db changesetId).filterMap deletedCertificate
      world.orders.filter fun entry => decide (entry.certificateKey ∉ deleted)
  | .rollbackTo _ _ _ => []
  | _ => world.orders

/-- The store has taken a step, and the revision that it made is a decision. -/
def settled (world : PublishWorld ι) (author : Author) (action : StoreAction)
    (system : StoreSystem) : PublishWorld ι :=
  if system.db.head = world.head then { world with system := system }
  else
    { world with
      system := system
      orders := world.ordersLeft action
      decisions := world.decisions ++
        [{ revision := system.db.head
           author := author
           keys := world.keysWritten system action }] }

def updateOrder (world : PublishWorld ι) (id : String) (change : OrderEntry → OrderEntry) :
    List OrderEntry :=
  world.orders.map fun entry => if entry.id = id then change entry else entry

def liveOrder (world : PublishWorld ι) (id : String) : Option OrderEntry :=
  world.orders.find? fun entry => decide (entry.id = id) && decide (entry.progress = .live)

def openOrder (world : PublishWorld ι) (id certificateKey : String) (now : Nat) :
    Option (PublishWorld ι) :=
  if id ∈ world.opened ∨
      (world.system.db.tables.certificates.get? certificateKey).isNone ∨
      ∃ entry ∈ world.orders, entry.certificateKey = certificateKey ∧ entry.progress = .live then
    none
  else
    some { world with
      orders := world.orders ++
        [{ id := id, certificateKey := certificateKey, createdAt := now, updatedAt := now }]
      opened := id :: world.opened }

def issue (world : PublishWorld ι) (id issuedRef : String) (now : Nat) :
    Option (PublishWorld ι) :=
  (world.liveOrder id).map fun entry =>
    let publication : Publication :=
      { orderId := id
        certificateKey := entry.certificateKey
        issuedRef := issuedRef
        turn := world.issued.length
        head := world.head }
    { world with
      orders := world.updateOrder id fun entry =>
        { entry with progress := .issued publication, updatedAt := now }
      issued := world.issued ++ [publication] }

def abandon (world : PublishWorld ι) (id : String) (now : Nat) : Option (PublishWorld ι) :=
  (world.liveOrder id).map fun _ =>
    { world with
      orders := world.updateOrder id fun entry =>
        { entry with progress := .abandoned, updatedAt := now } }

variable [DecidableEq ι]

def become (world : PublishWorld ι) (publisher : ι) (call : PublishCall) : PublishWorld ι :=
  { world with calls := Function.update world.calls publisher call }

/-- A statement of a publisher in the store.  What it throws ends the work on
this publication only. -/
def request (ctx : StoreContext) (world : PublishWorld ι) (publisher : ι)
    (answer : PublishAnswer) (publication : Publication) (rest : List Publication)
    (action : StoreAction) (next : PublishCall) : Option (PublishWorld ι) :=
  (act ctx ⟨action, answer.audited⟩ world.system).map fun (label, system) =>
    (world.settled (.publisher publication) action system).become publisher
      (if label.2.isOk then next else queued rest)

/-- The application that follows a commit leaves certificates and revisions
alone. -/
def publish (ctx : StoreContext) (world : PublishWorld ι) (publisher : ι)
    (answer : PublishAnswer) (publication : Publication) (rest : List Publication) :
    PublishStage → Option (PublishWorld ι)
  | .describing =>
      some (world.become publisher (.publishing publication rest (.heading answer.digests)))
  | .heading digests =>
      some (world.become publisher
        (.publishing publication rest (.creating digests world.head)))
  | .creating digests base =>
      world.request ctx publisher answer publication rest
        (.createChangeset answer.changesetId base)
        (.publishing publication rest (.intending digests answer.changesetId))
  | .intending digests changesetId =>
      let certificate : Certificate :=
        { key := publication.certificateKey
          materialRef := some publication.issuedRef
          chainDigest := some digests.chainDigest
          keyDigest := some digests.keyDigest
          acme := world.acmeIntentOf publication.certificateKey }
      some (world.become publisher
        (.publishing publication rest (.patching certificate changesetId)))
  | .patching certificate changesetId =>
      world.request ctx publisher answer publication rest
        (.patchChangeset changesetId [.put (.certificate certificate)])
        (.publishing publication rest (.planning changesetId))
  | .planning changesetId =>
      world.request ctx publisher answer publication rest
        (.planRead answer.call changesetId)
        (.publishing publication rest (.trying changesetId answer.call))
  | .trying changesetId call =>
      world.request ctx publisher answer publication rest
        (.planDryRun call answer.torn)
        (.publishing publication rest (.sealing changesetId call))
  | .sealing changesetId call =>
      world.request ctx publisher answer publication rest
        (.planSeal call answer.planId answer.now)
        (.publishing publication rest (.committing changesetId answer.planId))
  | .committing changesetId planId =>
      world.request ctx publisher answer publication rest
        (.commit changesetId planId answer.now) (queued rest)

def act (ctx : StoreContext) (world : PublishWorld ι) :
    PublishAction ι → Option (PublishWorld ι)
  | .store input =>
      (Store.act ctx input world.system).map fun (_, system) =>
        world.settled .user input.action system
  | .openOrder id certificateKey now => world.openOrder id certificateKey now
  | .issue id issuedRef now => world.issue id issuedRef now
  | .abandon id now => world.abandon id now
  | .touch id now =>
      some { world with
        orders := world.updateOrder id fun entry => { entry with updatedAt := now } }
  | .go publisher answer =>
      match world.calls publisher with
      | .idle => some (world.become publisher (queued world.pendingPublications))
      | .publishing publication rest stage =>
          world.publish ctx publisher answer publication rest stage
  | .throws publisher =>
      match world.calls publisher with
      | .idle => some world
      | .publishing _ rest _ => some (world.become publisher (queued rest))
  | .crash publisher => some (world.become publisher .idle)

def Step (ctx : StoreContext) (before : PublishWorld ι) (action : PublishAction ι)
    (after : PublishWorld ι) : Prop :=
  before.act ctx action = some after

end PublishWorld

end Barycenter.Control
