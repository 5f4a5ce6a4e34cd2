import Barycenter.Secrets.Sweeps

/-!
# Sweeps and what is in use

A version is in use while a retained revision, a generation on disk, an account, an
order that has not been abandoned, or an open or planned changeset refers to it, and
for the minimum age after a put returned it.  Sweeps know the first four only, and
know them as they were when they read them.  Of a put they know the time at which the
bytes first came.

So a sweep spares what is in use as long as two things hold.  When it judges, what
only changesets and recent puts speak for is younger than the minimum age.  And while
it is under way, nothing old comes into use behind its back.
-/

namespace Barycenter.Secrets

/-! ## Use -/

def World.returnedLately (policy : Policy) (world : World) (ref : Ref) : Prop :=
  ∃ put ∈ world.returned, put.1 = ref ∧ world.now < put.2 + policy.minAgeMs

/-- What a source of roots speaks for; without a source, what changesets and recent
puts speak for. -/
def World.Uses (policy : Policy) (world : World) : Option Source → Ref → Prop
  | some source, ref => ref ∈ world.usedBy source
  | none, ref => ref ∈ world.proposed ∨ world.returnedLately policy ref

def World.InUse (policy : Policy) (world : World) (ref : Ref) : Prop :=
  ∃ source, world.Uses policy source ref

def World.held (world : World) (ref : Ref) : Prop :=
  ∃ source ∈ Source.all, ref ∈ world.usedBy source

/-! ## The condition -/

def Sweep.startedAt : Sweep → Option Nat
  | .reading startedAt _ _ | .judging startedAt _ => some startedAt
  | .deleting _ => none

def Sweep.hasRead : Sweep → Source → Bool
  | .reading _ _ left, source => !left.contains source
  | .judging _ _, _ => true
  | .deleting _, _ => false

def Sweep.keeps : Sweep → Ref → Bool
  | .reading _ gathered _, ref =>
      gathered.refs.contains ref || gathered.versions.contains ref.version
  | .judging _ roots, ref => roots.contains ref
  | .deleting doomed, ref => !doomed.contains ref

/-- The sweep has passed the source without the version, and the version will be old
when the sweep judges; or the version is already chosen. -/
def World.missedBy (policy : Policy) (slack : Nat) (world : World) (source : Option Source)
    (sweep : Sweep) (ref : Ref) : Prop :=
  match sweep.startedAt with
  | none => sweep.keeps ref = false
  | some startedAt =>
      source.any sweep.hasRead = true ∧ sweep.keeps ref = false ∧
        ∃ birth ∈ world.stored.get? ref, birth + policy.minAgeMs ≤ startedAt + slack

/-- The source in which an action refers to something. -/
def Action.source : Action → Option Source
  | .commit _ => some .revisions
  | .build _ _ => some .generations
  | .register _ => some .accounts
  | .setCertKeyRef _ _ | .markIssued _ _ _ | .advance _ _ => some .orders
  | _ => none

def World.takes (world : World) : Action → List Ref
  | .put ref | .register ref | .setCertKeyRef _ ref => [ref]
  | .patchChangeset _ ops => ops.filterMap CertificateOp.ref
  | .commit id => (world.changesets.get? id).toList.flatMap Changeset.refs
  | .build _ revision => (world.revisions[revision]?).toList.flatMap OrderedMap.values
  | .markIssued _ issuedRef certKeyRef => [issuedRef, certKeyRef]
  | .advance id _ => (world.orders.get? id).toList.flatMap Order.refs
  | _ => []

/-- The sweep judges soon enough after it began, and what is old and spoken for by
changesets or recent puts is held by a source too. -/
def World.JudgesSafely (policy : Policy) (slack : Nat) (world : World) (sweep : Nat) : Prop :=
  match world.sweeps.get? sweep with
  | some (.judging startedAt _) =>
      world.now ≤ startedAt + slack ∧
        ∀ entry ∈ world.entries, entry.mtime + policy.minAgeMs ≤ world.now →
          world.Uses policy none entry.ref → world.held entry.ref
  | _ => True

def Careful (policy : Policy) (slack : Nat) (event : Event World Action) : Prop :=
  (∀ ref ∈ event.before.takes event.label, ∀ entry ∈ event.before.sweeps.entries,
    ¬ event.before.missedBy policy slack event.label.source entry.2 ref) ∧
  match event.label with
  | .judge sweep => event.before.JudgesSafely policy slack sweep
  | _ => True

/-! ## What the users of the store do -/

/-- A step beside the sweeps: time passes, versions that appear are new, and what
comes into use is what the action refers to. -/
structure Beside (policy : Policy) (world : World) (action : Action) (after : World) : Prop where
  clock : world.now ≤ after.now
  sweeps : after.sweeps = world.sweeps
  births : ∀ ref birth, after.stored.get? ref = some birth →
    world.stored.get? ref = some birth ∨ world.now ≤ birth
  uses : ∀ source ref, after.Uses policy source ref →
    world.Uses policy source ref ∨ source = action.source ∧ ref ∈ world.takes action

section

variable {policy : Policy} {slack : Nat} {world after : World} {ref : Ref} {id : String}

theorem mem_proposed :
    ref ∈ world.proposed ↔ ∃ id changeset, world.changesets.get? id = some changeset ∧
      changeset.pending = true ∧ ref ∈ changeset.refs := by
  simp only [World.proposed, List.mem_flatMap, List.mem_filter, OrderedMap.mem_values_iff]
  constructor
  · rintro ⟨changeset, ⟨⟨id, found⟩, pending⟩, member⟩
    exact ⟨id, changeset, found, pending, member⟩
  · rintro ⟨id, changeset, found, pending, member⟩
    exact ⟨changeset, ⟨⟨id, found⟩, pending⟩, member⟩

theorem mem_usedBy_orders :
    ref ∈ world.usedBy .orders ↔ ∃ id order, world.orders.get? id = some order ∧
      order.state ≠ .abandoned ∧ ref ∈ order.refs := by
  simp only [World.usedBy, List.mem_flatMap, List.mem_filter, OrderedMap.mem_values_iff,
    decide_eq_true_eq]
  constructor
  · rintro ⟨order, ⟨⟨id, found⟩, live⟩, member⟩
    exact ⟨id, order, found, live, member⟩
  · rintro ⟨id, order, found, live, member⟩
    exact ⟨order, ⟨⟨id, found⟩, live⟩, member⟩

theorem mem_usedBy_revisions :
    ref ∈ world.usedBy .revisions ↔ ∃ certificates ∈ world.retained,
      ∃ key, certificates.get? key = some ref := by
  simp [World.usedBy, OrderedMap.mem_values_iff]

theorem mem_usedBy_generations :
    ref ∈ world.usedBy .generations ↔ ∃ generation certificates,
      world.generations.get? generation = some certificates ∧
        ∃ key, certificates.get? key = some ref := by
  simp only [World.usedBy, List.mem_flatMap, OrderedMap.mem_values_iff]
  constructor
  · rintro ⟨certificates, ⟨generation, found⟩, key, here⟩
    exact ⟨generation, certificates, found, key, here⟩
  · rintro ⟨generation, certificates, found, key, here⟩
    exact ⟨certificates, ⟨generation, found⟩, key, here⟩

variable {action : Action}

/-- A changeset is written: what it proposes was proposed before or is referred to. -/
theorem beside_setChangeset {changeset : Changeset}
    (proposes : changeset.pending = true → ∀ ref ∈ changeset.refs,
      ref ∈ world.proposed ∨ none = action.source ∧ ref ∈ world.takes action) :
    Beside policy world action (world.setChangeset id changeset) := by
  refine ⟨Nat.le_refl _, rfl, fun _ _ same => .inl same, fun source ref used => ?_⟩
  cases source with
  | some source => exact .inl used
  | none =>
      rcases used with proposed | returned
      · obtain ⟨other, found, stored, pending, member⟩ := mem_proposed.mp proposed
        simp only [World.setChangeset, OrderedMap.get?_set] at stored
        split at stored
        · obtain rfl : changeset = found := Option.some.inj stored
          exact (proposes pending ref member).imp_left .inl
        · exact .inl (.inl (mem_proposed.mpr ⟨other, found, stored, pending, member⟩))
      · exact .inl (.inr returned)

theorem beside_setOrder {order : Order} (refers : order.state ≠ .abandoned → ∀ ref ∈ order.refs,
      ref ∈ world.usedBy .orders ∨ some .orders = action.source ∧ ref ∈ world.takes action) :
    Beside policy world action (world.setOrder id order) := by
  refine ⟨Nat.le_refl _, rfl, fun _ _ same => .inl same, fun source ref used => ?_⟩
  cases source with
  | none => exact .inl used
  | some source =>
      cases source with
      | revisions | generations | accounts => exact .inl used
      | orders =>
          obtain ⟨other, found, stored, live, member⟩ := mem_usedBy_orders.mp used
          simp only [World.setOrder, OrderedMap.get?_set] at stored
          split at stored
          · cases stored
            exact refers live ref member
          · exact .inl (mem_usedBy_orders.mpr ⟨other, found, stored, live, member⟩)

variable {certificates : Certificates}

theorem mem_values_applyOp {op : CertificateOp} (member : ref ∈ (applyOp certificates op).values) :
    ref ∈ certificates.values ∨ ref ∈ op.ref := by
  obtain ⟨key, found⟩ := OrderedMap.mem_values_iff.mp member
  cases op with
  | put written materialRef =>
      simp only [applyOp, OrderedMap.get?_set] at found
      split at found
      · exact .inr found
      · exact .inl (OrderedMap.mem_values_iff.mpr ⟨key, found⟩)
  | delete gone =>
      simp only [applyOp, OrderedMap.get?_erase] at found
      split at found
      · cases found
      · exact .inl (OrderedMap.mem_values_iff.mpr ⟨key, found⟩)

theorem mem_values_foldl {ops : List CertificateOp}
    (member : ref ∈ (ops.foldl applyOp certificates).values) :
    ref ∈ certificates.values ∨ ref ∈ ops.filterMap CertificateOp.ref := by
  induction ops generalizing certificates with
  | nil => exact .inl member
  | cons op rest induction =>
      rcases induction member with before | later
      · rcases mem_values_applyOp before with old | here
        · exact .inl old
        · exact .inr (List.mem_filterMap.mpr ⟨op, by simp, here⟩)
      · obtain ⟨written, inRest, taken⟩ := List.mem_filterMap.mp later
        exact .inr (List.mem_filterMap.mpr ⟨written, by simp [inRest], taken⟩)

theorem mem_head (member : ref ∈ world.head.values) : ref ∈ world.usedBy .revisions := by
  obtain ⟨key, found⟩ := OrderedMap.mem_values_iff.mp member
  cases newest : world.revisions with
  | nil => simp [World.head, newest] at found
  | cons certificates older =>
      refine mem_usedBy_revisions.mpr ⟨certificates, ?_, key, ?_⟩
      · simp [World.retained, newest, rollbackRevisions]
      · simpa [World.head, newest] using found

theorem beside_revision (refers : ∀ ref ∈ certificates.values, ref ∈ world.usedBy .revisions ∨
      some .revisions = action.source ∧ ref ∈ world.takes action) (clock : after.now = world.now)
    (sweeps : after.sweeps = world.sweeps) (stored : after.stored = world.stored)
    (revisions : after.revisions = certificates :: world.revisions)
    (generations : after.generations = world.generations)
    (accounts : after.accounts = world.accounts) (returned : after.returned = world.returned)
    (orders : ∀ id order, after.orders.get? id = some order → world.orders.get? id = some order)
    (proposed : ∀ ref ∈ after.proposed, ref ∈ world.proposed) :
    Beside policy world action after := by
  refine ⟨Nat.le_of_eq clock.symm, sweeps, fun _ _ same => .inl (stored ▸ same),
    fun source ref used => ?_⟩
  cases source with
  | none =>
      rcases used with member | ⟨put, member, same, recent⟩
      · exact .inl (.inl (proposed ref member))
      · exact .inl (.inr ⟨put, returned ▸ member, same, clock ▸ recent⟩)
  | some source =>
      cases source with
      | generations => exact .inl (by simpa [World.Uses, World.usedBy, generations] using used)
      | accounts => exact .inl (by simpa [World.Uses, World.usedBy, accounts] using used)
      | orders =>
          obtain ⟨id, order, found, live, member⟩ := mem_usedBy_orders.mp used
          exact .inl (mem_usedBy_orders.mpr ⟨id, order, orders id order found, live, member⟩)
      | revisions =>
          obtain ⟨model, kept, key, found⟩ := mem_usedBy_revisions.mp used
          rw [World.retained, revisions, rollbackRevisions, List.take_succ_cons,
            List.mem_cons] at kept
          rcases kept with rfl | older
          · exact refers ref (OrderedMap.mem_values_iff.mpr ⟨key, found⟩)
          · have retained : model ∈ world.retained := by
              rw [World.retained, rollbackRevisions]
              exact (List.take_subset_take_left world.revisions (by decide)) older
            exact .inl (mem_usedBy_revisions.mpr ⟨model, retained, key, found⟩)

theorem changeset_eq {allowed : Changeset → Bool} {next : Changeset → World}
    (moved : world.changeset id allowed next = some after) :
    ∃ changeset, world.changesets.get? id = some changeset ∧ allowed changeset = true ∧
      after = next changeset := by
  rw [World.changeset] at moved
  split at moved
  · rename_i changeset found
    split at moved
    · rename_i fits
      exact ⟨changeset, found, fits, (Option.some.inj moved).symm⟩
    · cases moved
  · cases moved

theorem order_eq {change : Order → Order} (moved : world.order id change = some after) :
    ∃ order, world.orders.get? id = some order ∧ after = world.setOrder id (change order) := by
  obtain ⟨order, found, rfl⟩ := Option.map_eq_some_iff.mp moved
  exact ⟨order, found, rfl⟩

theorem proposed_of_changeset {changeset : Changeset}
    (found : world.changesets.get? id = some changeset) (pending : changeset.pending = true)
    (member : ref ∈ changeset.refs) : ref ∈ world.proposed :=
  mem_proposed.mpr ⟨id, changeset, found, pending, member⟩

theorem refs_append (changeset : Changeset) (ops : List CertificateOp) (base : Nat)
    (state : ChangesetState) :
    ({ ops := changeset.ops ++ ops, base := base, state := state } : Changeset).refs =
      changeset.refs ++ ops.filterMap CertificateOp.ref := by
  simp [Changeset.refs]

theorem use_spec (policy : Policy) (used : world.use action = some after) :
    Beside policy world action after := by
  cases action with
  | tick milliseconds =>
      cases used
      refine ⟨Nat.le_add_right _ _, rfl, fun _ _ same => .inl same, fun source ref uses => .inl ?_⟩
      cases source with
      | some source => exact uses
      | none =>
          rcases uses with proposed | ⟨returned, member, same, recent⟩
          · exact .inl proposed
          · exact .inr ⟨returned, member, same, Nat.lt_of_le_of_lt (Nat.le_add_right _ _) recent⟩
  | put put =>
      cases used
      refine ⟨Nat.le_refl _, rfl, fun ref birth found => ?_, fun source ref uses => ?_⟩
      · simp only at found
        split at found
        · exact .inl found
        · rw [OrderedMap.get?_set] at found
          split at found
          · exact .inr (Nat.le_of_eq (Option.some.inj found))
          · exact .inl found
      · cases source with
        | some source => exact .inl uses
        | none =>
            rcases uses with proposed | ⟨returned, member, same, recent⟩
            · exact .inl (.inl proposed)
            · rcases List.mem_cons.mp member with rfl | earlier
              · exact .inr ⟨rfl, by simp [World.takes, ← same]⟩
              · exact .inl (.inr ⟨returned, earlier, same, recent⟩)
  | createChangeset id =>
      simp only [World.use] at used
      split at used
      · cases used
      · cases used
        exact beside_setChangeset fun _ ref member => by simp [Changeset.refs] at member
  | patchChangeset id ops =>
      obtain ⟨changeset, found, state, rfl⟩ := changeset_eq used
      have pending : changeset.pending = true := by
        simp only [decide_eq_true_eq] at state
        simp [Changeset.pending, state]
      refine beside_setChangeset fun _ ref member => ?_
      rw [refs_append, List.mem_append] at member
      exact member.imp (proposed_of_changeset found pending) fun patched => ⟨rfl, patched⟩
  | plan id | reopen id =>
      obtain ⟨changeset, found, state, rfl⟩ := changeset_eq used
      have pending : changeset.pending = true := by
        simp only [decide_eq_true_eq] at state
        simp [Changeset.pending, state]
      exact beside_setChangeset fun _ ref member =>
        .inl (proposed_of_changeset found pending member)
  | discard id =>
      obtain ⟨changeset, found, state, rfl⟩ := changeset_eq used
      exact beside_setChangeset fun pending => absurd pending (by simp [Changeset.pending])
  | commit id =>
      obtain ⟨changeset, found, state, rfl⟩ := changeset_eq used
      refine beside_revision (fun ref member => ?_) rfl rfl rfl rfl rfl rfl rfl ?_ ?_
      · rcases mem_values_foldl member with old | new
        · exact .inl (mem_head old)
        · exact .inr ⟨rfl, by simpa [World.takes, found, Changeset.refs] using new⟩
      · intro id order found
        have listed := OrderedMap.mem_entries_iff.mpr found
        exact OrderedMap.mem_entries_iff.mp (List.mem_filter.mp listed).1
      · intro ref proposed
        obtain ⟨other, stored, there, pending, member⟩ := mem_proposed.mp proposed
        simp only [World.push, World.setChangeset, OrderedMap.get?_set] at there
        split at there
        · cases there
          simp [Changeset.pending] at pending
        · exact mem_proposed.mpr ⟨other, stored, there, pending, member⟩
  | rollback revision =>
      obtain ⟨certificates, retained, rfl⟩ := Option.map_eq_some_iff.mp used
      refine beside_revision (fun ref member => .inl ?_) rfl rfl rfl rfl rfl rfl rfl ?_
        fun _ proposed => proposed
      · obtain ⟨key, found⟩ := OrderedMap.mem_values_iff.mp member
        exact mem_usedBy_revisions.mpr
          ⟨certificates, List.mem_of_getElem? retained, key, found⟩
      · intro id order found
        simp at found
  | build generation revision =>
      obtain ⟨certificates, there, rfl⟩ := Option.map_eq_some_iff.mp used
      refine ⟨Nat.le_refl _, rfl, fun _ _ same => .inl same, fun source ref uses => ?_⟩
      cases source with
      | none => exact .inl uses
      | some source =>
          cases source with
          | revisions | accounts | orders => exact .inl uses
          | generations =>
              obtain ⟨name, model, found, key, here⟩ := mem_usedBy_generations.mp uses
              simp only [OrderedMap.get?_set] at found
              split at found
              · cases found
                refine .inr ⟨rfl, ?_⟩
                simpa [World.takes, there] using OrderedMap.mem_values_iff.mpr ⟨key, here⟩
              · exact .inl (mem_usedBy_generations.mpr ⟨name, model, found, key, here⟩)
  | removeGeneration generation =>
      cases used
      refine ⟨Nat.le_refl _, rfl, fun _ _ same => .inl same, fun source ref uses => ?_⟩
      cases source with
      | none => exact .inl uses
      | some source =>
          cases source with
          | revisions | accounts | orders => exact .inl uses
          | generations =>
              obtain ⟨name, model, found, key, here⟩ := mem_usedBy_generations.mp uses
              simp only [OrderedMap.get?_erase] at found
              split at found
              · cases found
              · exact .inl (mem_usedBy_generations.mpr ⟨name, model, found, key, here⟩)
  | register accountKeyRef =>
      cases used
      refine ⟨Nat.le_refl _, rfl, fun _ _ same => .inl same, fun source ref uses => ?_⟩
      cases source with
      | none => exact .inl uses
      | some source =>
          cases source with
          | revisions | generations | orders => exact .inl uses
          | accounts =>
              rcases List.mem_cons.mp uses with rfl | old
              · exact .inr ⟨rfl, by simp [World.takes]⟩
              · exact .inl old
  | openOrder id certificateKey =>
      simp only [World.use] at used
      split at used
      · cases used
      · cases used
        exact beside_setOrder fun _ ref member => by simp [Order.refs] at member
  | setCertKeyRef id held =>
      obtain ⟨order, found, rfl⟩ := order_eq used
      refine beside_setOrder fun live ref member => ?_
      simp only [Order.refs, List.mem_append] at member
      rcases member with issued | taken
      · exact .inl (mem_usedBy_orders.mpr ⟨id, order, found, live, by simp [Order.refs, issued]⟩)
      · exact .inr ⟨rfl, by simpa [World.takes, eq_comm] using taken⟩
  | markIssued id issuedRef certKeyRef =>
      obtain ⟨order, found, rfl⟩ := order_eq used
      refine beside_setOrder fun live ref member => .inr ⟨rfl, ?_⟩
      simpa [Order.refs, World.takes, eq_comm] using member
  | advance id state =>
      obtain ⟨order, found, rfl⟩ := order_eq used
      refine beside_setOrder fun live ref member => .inr ⟨rfl, ?_⟩
      simpa [World.takes, found, Order.refs] using member
  | beginSweep _ | readSource _ | listRefs _ | judge _ | deleteNext _ => cases used

end

end Barycenter.Secrets
