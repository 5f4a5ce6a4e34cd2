import Barycenter.Store.Restore

/-!
# Which resources keep to their rows

For a kind of resource that refers to a pool at most: a resource has an allowed
row from which it can be read back exactly when it fits.  The references of a
resource are resolved in tables that hold the pools of one model.
-/

namespace Barycenter

namespace Store

open Config

theorem Family.keeps_of_row
    {β R : Type} {family : Family β R} {tables : Tables} {item : β} {stored : R}
    (spread : family.row tables item = .ok stored) :
    family.Keeps tables item ↔
      (∀ check ∈ family.checks (family.key item) stored, check.2 = true) ∧
        family.resource (family.key item) stored = item := by
  simp only [Family.Keeps, Family.Stores, spread, Except.ok.injEq]
  constructor
  · rintro ⟨_, ⟨rfl, allowed⟩, same⟩
    exact ⟨allowed, same⟩
  · rintro ⟨allowed, same⟩
    exact ⟨stored, ⟨rfl, allowed⟩, same⟩

/-! ## Columns -/

variable {α : Type}

@[simp]
theorem filled_iff {items : Option (List α)} : filled items = true ↔ items ≠ some [] := by
  match items with
  | none | some [] | some (_ :: _) => simp [filled]

@[simp]
theorem listColumn_eq_self {items : Option (List α)} :
    listColumn items = items ↔ items ≠ some [] := by
  match items with
  | none | some [] | some (_ :: _) => simp [listColumn]

/-! ## Resources without references -/

theorem pool_keeps {tables : Tables} {pool : Pool} :
    poolFamily.Keeps tables pool ↔ PoolFits pool := by
  rw [@Family.keeps_of_row _ _ poolFamily tables pool (poolRow pool) rfl]
  have faithful : poolFamily.resource (poolFamily.key pool) (poolRow pool) = pool := rfl
  rw [and_iff_left faithful]
  obtain ⟨_, _, _, hashKey, send, health, tls, _⟩ := pool
  cases hashKey <;> cases send <;> cases health <;> cases tls <;>
    simp [poolFamily, poolChecks, poolRow, PoolFits]

theorem certificate_keeps {tables : Tables} {certificate : Certificate} :
    certificateFamily.Keeps tables certificate ↔ CertificateFits certificate := by
  rw [@Family.keeps_of_row _ _ certificateFamily tables certificate
    (certificateRow certificate) rfl]
  obtain ⟨_, material, chain, digest, acme⟩ := certificate
  cases material <;> cases chain <;> cases digest <;> cases acme <;>
    simp [certificateFamily, certificateChecks, certificateRow, CertificateFits,
      MaterialFits, certificateOf, and_assoc]

theorem tlsPolicy_keeps {tables : Tables} {policy : TlsPolicy} :
    tlsPolicyFamily.Keeps tables policy ↔ TlsPolicyFits policy := by
  rw [@Family.keeps_of_row _ _ tlsPolicyFamily tables policy (tlsPolicyRow policy) rfl]
  have faithful :
      tlsPolicyFamily.resource (tlsPolicyFamily.key policy) (tlsPolicyRow policy) = policy :=
    rfl
  rw [and_iff_left faithful]
  simp [tlsPolicyFamily, tlsPolicyChecks, tlsPolicyRow, TlsPolicyFits]

theorem addressSet_keeps {tables : Tables} {set : AddressSet} :
    addressSetFamily.Keeps tables set ↔ AddressSetFits set := by
  rw [@Family.keeps_of_row _ _ addressSetFamily tables set (addressSetRow set) rfl]
  have faithful :
      addressSetFamily.resource (addressSetFamily.key set) (addressSetRow set) = set := rfl
  rw [and_iff_left faithful]
  obtain ⟨_, _, source, options⟩ := set
  cases source <;> cases options <;>
    simp [addressSetFamily, addressSetChecks, addressSetRow, AddressSetFits]

theorem engine_allowed {settings : EngineSettings} :
    (∀ check ∈ engineChecks settings, check.2 = true) ↔ EngineFits settings := by
  obtain ⟨timeout, membership, acme⟩ := settings
  cases timeout <;> cases membership <;> cases acme <;> simp [engineChecks, EngineFits]

/-! ## References -/

theorem idOf_ok {table : OrderedMap String α} {key subject found : String} :
    idOf table key subject = .ok found ↔ (table.get? key).isSome ∧ key = found := by
  unfold idOf
  cases table.get? key <;> simp

theorem Family.Holds.isSome
    {β R : Type} {family : Family β R} {tables : Tables} {items : List β}
    {rows : OrderedMap String R} {key : String}
    (held : family.Holds tables items rows)
    (spreads : ∀ item, ∃ stored, family.row tables item = .ok stored) :
    (rows.get? key).isSome ↔ ∃ item ∈ items, family.key item = key := by
  rw [Option.isSome_iff_exists]
  constructor
  · rintro ⟨stored, found⟩
    obtain ⟨item, member, same, _⟩ := (held key stored).mp found
    exact ⟨item, member, same⟩
  · rintro ⟨item, member, same⟩
    obtain ⟨stored, spread⟩ := spreads item
    exact ⟨stored, (held key stored).mpr ⟨item, member, same, spread⟩⟩

theorem poolRef_ok
    {tables : Tables} {model : Model} {key subject : String} {ref : PoolRef}
    (pools : poolFamily.Holds {} model.pools tables.pools) :
    poolRef tables key subject = .ok ref ↔
      ref.key = key ∧ HasPool model key ref.protocolClass := by
  have held := pools key
  unfold poolRef
  cases found : tables.pools.get? key with
  | none =>
      simp only [found, reduceCtorEq, false_iff, not_exists, not_and] at held ⊢
      rintro rfl ⟨pool, member, same, _⟩
      exact held (poolRow pool) pool member same rfl
  | some row =>
      rw [found] at held
      obtain ⟨pool, member, same, spread⟩ := (held row).mp rfl
      simp only [Except.ok.injEq]
      constructor
      · rintro rfl
        obtain rfl : poolRow pool = row := Except.ok.inj spread
        exact ⟨rfl, pool, member, same, rfl⟩
      · rintro ⟨rfl, other, otherMember, otherSame, otherClass⟩
        have stored := (held (poolRow other)).mpr ⟨other, otherMember, otherSame, rfl⟩
        cases stored
        exact congrArg (PoolRef.mk ref.key) otherClass

theorem backend_keeps
    {tables : Tables} {model : Model} {backend : Backend}
    (pools : poolFamily.Holds {} model.pools tables.pools) :
    backendFamily.Keeps tables backend ↔ BackendFits model backend := by
  have refers (subject : String) :
      (∃ ref, poolRef tables backend.pool subject = .ok ref) ↔
        ∃ pool ∈ model.pools, pool.key = backend.pool := by
    constructor
    · rintro ⟨ref, resolved⟩
      obtain ⟨_, pool, member, same, _⟩ := (poolRef_ok pools).mp resolved
      exact ⟨pool, member, same⟩
    · rintro ⟨pool, member, same⟩
      exact ⟨⟨backend.pool, pool.protocolClass⟩,
        (poolRef_ok pools).mpr ⟨rfl, pool, member, same, rfl⟩⟩
  have spread (stored : BackendRow) :
      backendFamily.row tables backend = .ok stored ↔
        (∃ pool ∈ model.pools, pool.key = backend.pool) ∧ backendRow backend = stored := by
    rw [← refers s!"backend '{backend.key}'", ← exists_and_right]
    exact Outcome.map_ok
  have stands :
      (∀ check ∈ backendChecks backend.key (backendRow backend), check.2 = true) ↔
        keySyntax backend.key = true ∧ backend.host ≠ "" ∧
          (1 ≤ backend.port ∧ backend.port ≤ 65535) ∧ backend.weight < 2147483648 := by
    simp only [backendChecks, List.forall_mem_cons, List.not_mem_nil, false_implies,
      implies_true, and_true, portColumn, integerColumn, decide_eq_true_eq]
    rfl
  have faithful :
      backendOf backend.key (backendRow backend) = backend ↔
        backend.softMaxConns = none ∧ backend.isBackup = none := by
    obtain ⟨_, _, _, _, _, soft, backup⟩ := backend
    cases soft <;> cases backup <;> simp [backendOf, backendRow]
  simp only [Family.Keeps, Family.Stores, spread, BackendFits]
  constructor
  · rintro ⟨_, ⟨⟨refers, rfl⟩, allowed⟩, same⟩
    obtain ⟨named, hosted, ported, weighted⟩ := stands.mp allowed
    exact ⟨refers, named, hosted, ported, weighted, faithful.mp same⟩
  · rintro ⟨refers, named, hosted, ported, weighted, plain⟩
    exact ⟨backendRow backend,
      ⟨⟨refers, rfl⟩, stands.mpr ⟨named, hosted, ported, weighted⟩⟩, faithful.mpr plain⟩

end Store

end Barycenter
