import Barycenter.Control.AcmeRunner
import Barycenter.Control.Membership
import Barycenter.Store.ConfigEffects
import Barycenter.Store.Family

/-!
# Operational state and rollbacks

Which backends are drained, how the probes have judged them and which orders of
certificates are under way is not configuration, and no revision holds it.  It
lives in tables that hang off the tables of the configuration: a trigger removes
the state of a backend that is deleted, and foreign keys remove the orders of a
certificate and the challenges of an order.

A rollback empties the tables of the configuration and fills them again.  What
hangs off them does not come back.
-/

namespace Barycenter.Control

open Config Store

structure DrainMark where
  startedAt : Nat
  deadlineAt : Option Nat := none
  startedBy : String
deriving DecidableEq, Repr

structure HealthVerdict where
  state : HealthState := .unknown
  probeStartSeq : Nat := 0
  lastOk : Bool := true
  consecutive : Nat := 0
  observedAt : Nat
  detail : Option String := none
deriving DecidableEq, Repr

/-- The configuration store and the tables of operational state. -/
structure OperationalDb where
  config : ConfigDb := {}
  drains : OrderedMap String DrainMark := .empty
  health : OrderedMap String HealthVerdict := .empty
  orders : List (AcmeOrder String) := []
  challenges : List AcmeChallenge := []

namespace OperationalDb

def tables (db : OperationalDb) : Tables := db.config.tables

structure References (db : OperationalDb) : Prop where
  backends : ∀ row ∈ db.tables.backends.values, row.pool ∈ db.tables.pools.keys
  bindings : ∀ row ∈ db.tables.sniBindings.values, row.listener.key ∈ db.tables.listeners.keys
  orders : ∀ order ∈ db.orders, order.certificateKey ∈ db.tables.certificates.keys
  challenges : ∀ challenge ∈ db.challenges, challenge.orderId ∈ db.orders.map AcmeOrder.id

/-! ## Statements -/

def withTables (db : OperationalDb) (tables : Tables) : OperationalDb :=
  { db with config := db.config.withTables tables }

def backendStateCleanup (db : OperationalDb) (gone : List String) : OperationalDb :=
  { db with
    drains := db.drains.without fun key => decide (key ∈ gone)
    health := db.health.without fun key => decide (key ∈ gone) }

def deleteBackends (db : OperationalDb) (doomed : BackendRow → Bool) : OperationalDb :=
  let gone := (db.tables.backends.filterValues doomed).keys
  (db.withTables { db.tables with
    backends := db.tables.backends.filterValues fun row => !doomed row }).backendStateCleanup gone

/-- `DELETE FROM pools` -/
def deletePools (db : OperationalDb) : OperationalDb :=
  let pools := db.tables.pools.keys
  let cascaded := db.deleteBackends fun row => decide (row.pool ∈ pools)
  cascaded.withTables { cascaded.tables with pools := .empty }

def deleteOrders (db : OperationalDb) (doomed : AcmeOrder String → Bool) : OperationalDb :=
  let gone := (db.orders.filter doomed).map AcmeOrder.id
  { db with
    orders := db.orders.filter fun order => !doomed order
    challenges := db.challenges.filter fun challenge => decide (challenge.orderId ∉ gone) }

/-- `DELETE FROM certificates` -/
def deleteCertificates (db : OperationalDb) : OperationalDb :=
  let certificates := db.tables.certificates.keys
  let cascaded := db.deleteOrders fun order => decide (order.certificateKey ∈ certificates)
  cascaded.withTables { cascaded.tables with certificates := .empty }

/-- `DELETE FROM listeners` -/
def deleteListeners (db : OperationalDb) : OperationalDb :=
  let listeners := db.tables.listeners.keys
  db.withTables { db.tables with
    sniBindings := db.tables.sniBindings.filterValues fun row =>
      decide (row.listener.key ∉ listeners)
    listeners := .empty }

/-- The deletions of a rollback, the referring rows first. -/
def clearResources (db : OperationalDb) : OperationalDb :=
  let unrouted := db.withTables { db.tables with httpRoutes := .empty, passthroughRoutes := .empty }
  let cleared := unrouted.deleteListeners.deletePools.deleteCertificates
  cleared.withTables { cleared.tables with
    tlsPolicies := .empty
    addressSets := .empty
    engine := none }

/-- The rollback of the store, with what its deletions take along. -/
def rollbackTo (ctx : StoreContext) (revision : Nat) (planId : String) (now : Nat)
    (db : OperationalDb) : Except Failure (Nat × Nat) × OperationalDb :=
  match Script.transact (ConfigDb.undo ctx.dialect) (Store.rollbackTo ctx revision planId now)
      db.config with
  | (.ok reserved, config) => (.ok reserved, { db.clearResources with config := config })
  | (.error refused, config) => (.error refused, { db with config := config })

def modelAt (ctx : StoreContext) (revision : Nat) (db : OperationalDb) : Option Model :=
  (db.config.revisions.get? revision).bind fun row => ctx.decodeModel row.model

/-! ## What a rollback should keep -/

def ordersOf (db : OperationalDb) (certificateKey : String) : List (AcmeOrder String) :=
  db.orders.filter fun order => decide (order.certificateKey = certificateKey)

/-- The challenges of a certificate that are placed and not cleaned. -/
def lingeringOf (db : OperationalDb) (certificateKey : String) : List AcmeChallenge :=
  db.challenges.filter fun challenge =>
    challenge.lingers && decide (challenge.orderId ∈ (db.ordersOf certificateKey).map AcmeOrder.id)

/-- There is a backend of that key, and the model of the revision has one. -/
def SharedBackend (db : OperationalDb) (ctx : StoreContext) (revision : Nat) (key : String) :
    Prop :=
  key ∈ db.tables.backends.keys ∧
    ∃ model ∈ db.modelAt ctx revision, key ∈ model.backends.map Backend.key

def SharedCertificate (db : OperationalDb) (ctx : StoreContext) (revision : Nat)
    (key : String) : Prop :=
  key ∈ db.tables.certificates.keys ∧
    ∃ model ∈ db.modelAt ctx revision, key ∈ model.certificates.map Certificate.key

/-- The operational state of what is there before and in the revision stays. -/
structure KeepsState (ctx : StoreContext) (revision : Nat) (before after : OperationalDb) :
    Prop where
  drains : ∀ key, before.SharedBackend ctx revision key →
    after.drains.get? key = before.drains.get? key
  health : ∀ key, before.SharedBackend ctx revision key →
    after.health.get? key = before.health.get? key
  orders : ∀ key, before.SharedCertificate ctx revision key →
    after.ordersOf key = before.ordersOf key
  challenges : ∀ key, before.SharedCertificate ctx revision key →
    after.lingeringOf key = before.lingeringOf key

/-- Nothing that is there before and in the revision has operational state. -/
structure Unburdened (db : OperationalDb) (ctx : StoreContext) (revision : Nat) : Prop where
  drains : ∀ key, db.SharedBackend ctx revision key → db.drains.get? key = none
  health : ∀ key, db.SharedBackend ctx revision key → db.health.get? key = none
  orders : ∀ key, db.SharedCertificate ctx revision key → db.ordersOf key = []

/-! ## What the deletions leave -/

section Cleared

variable {db : OperationalDb}

theorem backends_filtered (references : db.References) :
    db.tables.backends.filterValues (fun row => decide (row.pool ∈ db.tables.pools.keys)) =
      db.tables.backends :=
  OrderedMap.filterValues_eq_self fun row member =>
    decide_eq_true (references.backends row member)

/-- Every backend loses its drain mark and its verdict; what is left belongs to no
backend. -/
theorem clearResources_drains (references : db.References) :
    db.clearResources.drains =
      db.drains.without fun key => decide (key ∈ db.tables.backends.keys) := by
  change db.drains.without (fun key => decide (key ∈ (db.tables.backends.filterValues
    fun row => decide (row.pool ∈ db.tables.pools.keys)).keys)) = _
  rw [backends_filtered references]

theorem clearResources_health (references : db.References) :
    db.clearResources.health =
      db.health.without fun key => decide (key ∈ db.tables.backends.keys) := by
  change db.health.without (fun key => decide (key ∈ (db.tables.backends.filterValues
    fun row => decide (row.pool ∈ db.tables.pools.keys)).keys)) = _
  rw [backends_filtered references]

theorem clearResources_orders (references : db.References) : db.clearResources.orders = [] := by
  change db.orders.filter (fun order =>
    !decide (order.certificateKey ∈ db.tables.certificates.keys)) = []
  refine List.filter_eq_nil_iff.mpr fun order member => ?_
  simpa using references.orders order member

end Cleared

section Rollback

variable {ctx : StoreContext} {revision now : Nat} {planId : String} {db after : OperationalDb}

theorem ordersOf_eq_nil (none : after.orders = []) (key : String) : after.ordersOf key = [] := by
  unfold ordersOf
  rw [none]
  rfl

theorem lingeringOf_eq_nil {key : String} (none : db.ordersOf key = []) :
    db.lingeringOf key = [] := by
  unfold lingeringOf
  rw [none]
  exact List.filter_eq_nil_iff.mpr fun challenge _ => by simp

theorem keepsState_of_cleared (references : db.References)
    (drains : after.drains = db.clearResources.drains)
    (health : after.health = db.clearResources.health)
    (orders : after.orders = db.clearResources.orders) :
    KeepsState ctx revision db after ↔ db.Unburdened ctx revision := by
  have drained (key : String) (shared : db.SharedBackend ctx revision key) :
      after.drains.get? key = none := by
    rw [drains, clearResources_drains references]
    simp [shared.1]
  have judged (key : String) (shared : db.SharedBackend ctx revision key) :
      after.health.get? key = none := by
    rw [health, clearResources_health references]
    simp [shared.1]
  have ordered := ordersOf_eq_nil (orders.trans (clearResources_orders references))
  constructor
  · intro keeps
    exact
      { drains := fun key shared => (keeps.drains key shared).symm.trans (drained key shared)
        health := fun key shared => (keeps.health key shared).symm.trans (judged key shared)
        orders := fun key shared => (keeps.orders key shared).symm.trans (ordered key) }
  · intro unburdened
    exact
      { drains := fun key shared => (drained key shared).trans (unburdened.drains key shared).symm
        health := fun key shared => (judged key shared).trans (unburdened.health key shared).symm
        orders := fun key shared => (ordered key).trans (unburdened.orders key shared).symm
        challenges := fun key shared => (lingeringOf_eq_nil (ordered key)).trans
          (lingeringOf_eq_nil (unburdened.orders key shared)).symm }

/-- A rollback that is refused keeps the operational state.  One that succeeds keeps
it exactly when nothing that it puts back has any. -/
theorem rollbackTo_keepsState (references : db.References) :
    (∀ refused, db.rollbackTo ctx revision planId now = (.error refused, after) →
      KeepsState ctx revision db after) ∧
    ∀ reserved, db.rollbackTo ctx revision planId now = (.ok reserved, after) →
      (KeepsState ctx revision db after ↔ db.Unburdened ctx revision) := by
  constructor
  · intro refused performed
    unfold rollbackTo at performed
    split at performed
    · cases performed
    · cases performed
      exact ⟨fun _ _ => rfl, fun _ _ => rfl, fun _ _ => rfl, fun _ _ => rfl⟩
  · intro reserved performed
    unfold rollbackTo at performed
    split at performed
    · cases performed
      exact keepsState_of_cleared references rfl rfl rfl
    · cases performed

end Rollback

/-! ## Concrete rollbacks -/

/-- Two revisions: the second has a pool with one backend and a certificate, the third
one backend more. -/
def twoBackends : List StoreInput :=
  [⟨.createChangeset "c" 1, true⟩,
    ⟨.patchChangeset "c"
      [putsPool "app",
        .put (.backend
          { key := "a1", pool := "app", host := "10.0.0.1", port := 8080, weight := 1 }),
        .put (.certificate
          { key := "web", acme := some { account := "le", domains := ["a.test"] } })], true⟩,
    ⟨.planRead 0 "c", true⟩, ⟨.planDryRun 0 {}, true⟩, ⟨.planSeal 0 "p" 0, true⟩,
    ⟨.commit "c" "p" 1, true⟩,
    ⟨.createChangeset "d" 2, true⟩,
    ⟨.patchChangeset "d"
      [.put (.backend
        { key := "a2", pool := "app", host := "10.0.0.2", port := 8080, weight := 1 })], true⟩,
    ⟨.planRead 1 "d", true⟩, ⟨.planDryRun 1 {}, true⟩, ⟨.planSeal 1 "q" 2, true⟩,
    ⟨.commit "d" "q" 3, true⟩]

def twoBackendsDb : ConfigDb := ((performInputs plainContext twoBackends {}).map (·.2.db)).getD {}

/-- A drained backend that its probes fail, and an order whose challenge is placed. -/
def busyDb (backend : String) : OperationalDb :=
  { config := twoBackendsDb
    drains := OrderedMap.empty.set backend { startedAt := 4, startedBy := "operator" }
    health := OrderedMap.empty.set backend { state := .unhealthy, observedAt := 5 }
    orders := [{ id := "o", certificateKey := "web", domains := ["a.test"], state := .validating }]
    challenges := [⟨"c", "o", ⟨.http01, "a.test", "token"⟩, some 6, none⟩] }

instance (db : OperationalDb) : Decidable db.References :=
  decidable_of_iff
    ((∀ row ∈ db.tables.backends.values, row.pool ∈ db.tables.pools.keys) ∧
      (∀ row ∈ db.tables.sniBindings.values, row.listener.key ∈ db.tables.listeners.keys) ∧
      (∀ order ∈ db.orders, order.certificateKey ∈ db.tables.certificates.keys) ∧
      ∀ challenge ∈ db.challenges, challenge.orderId ∈ db.orders.map AcmeOrder.id)
    ⟨fun ⟨backends, bindings, orders, challenges⟩ => ⟨backends, bindings, orders, challenges⟩,
      fun ⟨backends, bindings, orders, challenges⟩ => ⟨backends, bindings, orders, challenges⟩⟩

instance (db : OperationalDb) (ctx : StoreContext) (revision : Nat) (key : String) :
    Decidable (db.SharedBackend ctx revision key) :=
  inferInstanceAs (Decidable (key ∈ db.tables.backends.keys ∧
    ∃ model ∈ db.modelAt ctx revision, key ∈ model.backends.map Backend.key))

instance (db : OperationalDb) (ctx : StoreContext) (revision : Nat) (key : String) :
    Decidable (db.SharedCertificate ctx revision key) :=
  inferInstanceAs (Decidable (key ∈ db.tables.certificates.keys ∧
    ∃ model ∈ db.modelAt ctx revision, key ∈ model.certificates.map Certificate.key))

/-- The backend and the certificate are in both revisions, and lose their drain mark,
their verdict, their order and the challenge that is still placed. -/
theorem rollback_drops_state :
    ∃ db : OperationalDb, db.References ∧ ∃ reserved after,
      db.rollbackTo plainContext 2 "r" 7 = (.ok reserved, after) ∧
        (db.SharedBackend plainContext 2 "a1" ∧
          after.drains.get? "a1" ≠ db.drains.get? "a1" ∧
          after.health.get? "a1" ≠ db.health.get? "a1") ∧
        (db.SharedCertificate plainContext 2 "web" ∧
          after.ordersOf "web" ≠ db.ordersOf "web" ∧
          after.lingeringOf "web" ≠ db.lingeringOf "web") ∧
        ¬ KeepsState plainContext 2 db after := by
  have performed : ((busyDb "a1").rollbackTo plainContext 2 "r" 7).1 = .ok (4, 3) := by
    decide +kernel
  have backend : (busyDb "a1").SharedBackend plainContext 2 "a1" ∧
      ((busyDb "a1").rollbackTo plainContext 2 "r" 7).2.drains.get? "a1" ≠
        (busyDb "a1").drains.get? "a1" ∧
      ((busyDb "a1").rollbackTo plainContext 2 "r" 7).2.health.get? "a1" ≠
        (busyDb "a1").health.get? "a1" := by
    decide +kernel
  have certificate : (busyDb "a1").SharedCertificate plainContext 2 "web" ∧
      ((busyDb "a1").rollbackTo plainContext 2 "r" 7).2.ordersOf "web" ≠
        (busyDb "a1").ordersOf "web" ∧
      ((busyDb "a1").rollbackTo plainContext 2 "r" 7).2.lingeringOf "web" ≠
        (busyDb "a1").lingeringOf "web" := by
    decide +kernel
  exact ⟨busyDb "a1", by decide +kernel, _, _, Prod.ext performed rfl, backend, certificate,
    fun keeps => backend.2.1 (keeps.drains "a1" backend.1)⟩

/-- Only the backend that the older revision does not have is drained and judged, and
the orders of the certificate are gone already. -/
theorem rollbackTo_keepsState_unburdened :
    ∃ db : OperationalDb, db.drains.get? "a2" ≠ none ∧ ∃ reserved after,
      db.rollbackTo plainContext 2 "r" 7 = (.ok reserved, after) ∧
        KeepsState plainContext 2 db after := by
  let db : OperationalDb := { busyDb "a2" with orders := [], challenges := [] }
  have performed : (db.rollbackTo plainContext 2 "r" 7).1 = .ok (4, 3) := by
    decide +kernel
  have references : db.References := by decide +kernel
  have drains : db.drains.get? "a2" ≠ none := by decide +kernel
  have unburdened : db.Unburdened plainContext 2 := by
    have restored : (db.modelAt plainContext 2).map (fun model => model.backends.map Backend.key) =
        some ["a1"] := by decide +kernel
    have only (key : String) (shared : db.SharedBackend plainContext 2 key) : key = "a1" := by
      obtain ⟨_, model, found, member⟩ := shared
      rw [Option.mem_def.mp found] at restored
      have names : model.backends.map Backend.key = ["a1"] := Option.some.inj restored
      rw [names] at member
      exact List.mem_singleton.mp member
    refine ⟨fun key shared => ?_, fun key shared => ?_, fun key _ => rfl⟩
    · rw [only key shared]
      decide +kernel
    · rw [only key shared]
      decide +kernel
  exact ⟨db, drains, _, _, Prod.ext performed rfl,
    ((rollbackTo_keepsState references).2 _ (Prod.ext performed rfl)).mpr unburdened⟩

end OperationalDb

end Barycenter.Control
