import Barycenter.Control.AcmePublish

/-!
# Publication against later decisions

What a publisher saw when it looked may be decided otherwise before it reads the
head.  From then on the head guards it: a changeset over a head that has moved is
not committed.  So everything depends on the moment at which the head is read.
-/

namespace Barycenter.Control

open Config Store

/-- Made after the order was issued, about its certificate, by a user or for an
order that was not issued before it. -/
def Decision.Supersedes (decision : Decision) (publication : Publication) : Prop :=
  publication.head < decision.revision ∧ publication.certificateKey ∈ decision.keys ∧
    ∀ other ∈ decision.author.publication?, publication.turn ≤ other.turn

instance (decision : Decision) (publication : Publication) :
    Decidable (decision.Supersedes publication) :=
  inferInstanceAs (Decidable (_ ∧ _ ∧ _))

namespace PublishWorld

variable {ι : Type}

/-- No publication was made after a decision that supersedes its order, and no
order was published twice. -/
def Respected (world : PublishWorld ι) : Prop :=
  (∀ decision ∈ world.decisions, ∀ publication ∈ decision.author.publication?,
    ∀ earlier ∈ world.decisions, earlier.revision < decision.revision →
      ¬ earlier.Supersedes publication) ∧
  ∀ decision ∈ world.decisions, ∀ publication ∈ decision.author.publication?,
    ∀ other ∈ world.decisions, ∀ same ∈ other.author.publication?,
      same.orderId = publication.orderId → other = decision

instance (world : PublishWorld ι) : Decidable world.Respected :=
  inferInstanceAs (Decidable (_ ∧ _))

def Wanted (world : PublishWorld ι) (publication : Publication) : Prop :=
  ∀ decision ∈ world.decisions, ¬ decision.Supersedes publication

/-- The order for which a call is about to read the head. -/
def aboutToRead : PublishCall → Option Publication
  | .publishing publication _ (.heading _) => some publication
  | _ => none

/-- A publisher reads the head only for an order that no decision supersedes. -/
def Careful (event : Event (PublishWorld ι) (PublishAction ι)) : Prop :=
  match event.label with
  | .go publisher _ =>
      ∀ publication ∈ aboutToRead (event.before.calls publisher), event.before.Wanted publication
  | _ => True

instance (event : Event (PublishWorld ι) (PublishAction ι)) : Decidable (Careful event) :=
  match event with
  | ⟨before, .go publisher _, _⟩ =>
      inferInstanceAs (Decidable (∀ publication ∈ aboutToRead (before.calls publisher),
        ∀ decision ∈ before.decisions, ¬ decision.Supersedes publication))
  | ⟨_, .store _, _⟩ => isTrue trivial
  | ⟨_, .openOrder _ _ _, _⟩ => isTrue trivial
  | ⟨_, .issue _ _ _, _⟩ => isTrue trivial
  | ⟨_, .abandon _ _, _⟩ => isTrue trivial
  | ⟨_, .touch _ _, _⟩ => isTrue trivial
  | ⟨_, .throws _, _⟩ => isTrue trivial
  | ⟨_, .crash _, _⟩ => isTrue trivial

/-! ## Invariant -/

/-- The changeset is over a head at which the order was wanted. -/
def Based (world : PublishWorld ι) (publication : Publication) (changesetId : String) : Prop :=
  ∃ row, world.system.db.changesets.get? changesetId = some row ∧
    (row.baseRevision = world.head → world.Wanted publication)

def Carries (world : PublishWorld ι) (publication : Publication) (changesetId : String) : Prop :=
  publication.certificateKey ∈
    (patchOf world.system.db changesetId).filterMap certificateKey

def StageReady (world : PublishWorld ι) (publication : Publication) : PublishStage → Prop
  | .describing => True
  | .heading _ => True
  | .creating _ base => base ≤ world.head ∧ (base = world.head → world.Wanted publication)
  | .intending _ changesetId => world.Based publication changesetId
  | .patching certificate changesetId =>
      certificate.key = publication.certificateKey ∧ world.Based publication changesetId
  | .planning changesetId =>
      world.Based publication changesetId ∧ world.Carries publication changesetId
  | .trying changesetId _ =>
      world.Based publication changesetId ∧ world.Carries publication changesetId
  | .sealing changesetId _ =>
      world.Based publication changesetId ∧ world.Carries publication changesetId
  | .committing changesetId _ =>
      world.Based publication changesetId ∧ world.Carries publication changesetId

def Ready (world : PublishWorld ι) : PublishCall → Prop
  | .idle => True
  | .publishing publication rest stage =>
      publication ∈ world.issued ∧ (∀ other ∈ rest, other ∈ world.issued) ∧
        world.StageReady publication stage

structure Recorded (world : PublishWorld ι) : Prop where
  rowsOpened : ∀ entry ∈ world.orders, entry.id ∈ world.opened
  issuedOpened : ∀ publication ∈ world.issued, publication.orderId ∈ world.opened
  distinct : (world.orders.map OrderEntry.id).Nodup
  liveUnissued : ∀ entry ∈ world.orders, entry.progress = .live →
    ∀ publication ∈ world.issued, publication.orderId ≠ entry.id
  rowsIssued : ∀ entry ∈ world.orders, ∀ publication ∈ entry.publication?,
    publication ∈ world.issued
  once : (world.issued.map Publication.orderId).Nodup
  heads : ∀ publication ∈ world.issued, publication.head ≤ world.head

/-- The decisions are in the order of their revisions, and those of publishers
are about the certificates of their orders. -/
structure Decided (world : PublishWorld ι) : Prop where
  below : ∀ decision ∈ world.decisions, decision.revision ≤ world.head
  ordered : world.decisions.Pairwise fun first second => first.revision < second.revision
  published : ∀ decision ∈ world.decisions, ∀ publication ∈ decision.author.publication?,
    publication ∈ world.issued ∧ publication.head < decision.revision ∧
      publication.certificateKey ∈ decision.keys
  respected : ∀ decision ∈ world.decisions, ∀ publication ∈ decision.author.publication?,
    ∀ earlier ∈ world.decisions, earlier.revision < decision.revision →
      ¬ earlier.Supersedes publication

structure Sound (ctx : StoreContext) (world : PublishWorld ι) : Prop where
  store : Store.Sound ctx world.system
  recorded : world.Recorded
  decided : world.Decided
  ready : ∀ publisher, world.Ready (world.calls publisher)

section Store

variable {ctx : StoreContext} {world : PublishWorld ι} {author : Author} {input : StoreInput}
  {label : StoreLabel} {system : StoreSystem}

@[simp]
theorem settled_system (action : StoreAction) :
    (world.settled author action system).system = system := by
  unfold settled
  split <;> rfl

@[simp]
theorem settled_issued (action : StoreAction) :
    (world.settled author action system).issued = world.issued := by
  unfold settled
  split <;> rfl

@[simp]
theorem settled_opened (action : StoreAction) :
    (world.settled author action system).opened = world.opened := by
  unfold settled
  split <;> rfl

@[simp]
theorem settled_calls (action : StoreAction) :
    (world.settled author action system).calls = world.calls := by
  unfold settled
  split <;> rfl

theorem settled_orders (action : StoreAction) :
    (world.settled author action system).orders.Sublist world.orders := by
  unfold settled
  split
  · exact List.Sublist.refl _
  · unfold ordersLeft
    cases action with
    | commit changesetId planId now => exact List.filter_sublist
    | rollbackTo revision planId now => exact List.nil_sublist _
    | _ => exact List.Sublist.refl _

theorem settled_decisions_same {action : StoreAction} (same : system.db.head = world.head) :
    (world.settled author action system).decisions = world.decisions := by
  unfold settled
  rw [if_pos same]

theorem settled_decisions_moved {action : StoreAction} (moved : system.db.head ≠ world.head) :
    (world.settled author action system).decisions =
      world.decisions ++
        [{ revision := system.db.head
           author := author
           keys := world.keysWritten system action }] := by
  unfold settled
  rw [if_neg moved]

theorem storeStep_of_act (acted : Store.act ctx input world.system = some (label, system)) :
    StoreStep ctx world.system label system := by
  rw [StoreStep, (act_effect acted).1]
  exact acted

theorem head_of_act (sound : Store.Sound ctx world.system)
    (acted : Store.act ctx input world.system = some (label, system)) :
    system.db.head = world.head ∨ world.head < system.db.head := by
  rcases head_cases sound.linear (act_effect acted).2 with ⟨same, _⟩ | ⟨above, _⟩
  · exact .inl same
  · exact .inr above

variable {publication : Publication} {changesetId : String}

theorem Based.settled (sound : Store.Sound ctx world.system)
    (acted : Store.act ctx input world.system = some (label, system))
    (based : world.Based publication changesetId) :
    (world.settled author input.action system).Based publication changesetId := by
  obtain ⟨row, stored, wanted⟩ := based
  have below : row.baseRevision ≤ world.head := sound.planning.basesBelow changesetId row stored
  obtain ⟨after, kept, base, _⟩ := changeset_grows (act_effect acted).2 stored
  refine ⟨after, by rw [settled_system, kept], fun atHead => ?_⟩
  rw [PublishWorld.head, settled_system, base] at atHead
  rcases head_of_act sound acted with same | above
  · unfold Wanted
    rw [settled_decisions_same same]
    exact wanted (atHead.trans same)
  · omega

theorem Carries.settled (acted : Store.act ctx input world.system = some (label, system))
    (carries : world.Carries publication changesetId) :
    (world.settled author input.action system).Carries publication changesetId := by
  unfold Carries patchOf at carries ⊢
  rw [settled_system]
  cases stored : world.system.db.changesets.get? changesetId with
  | none => simp [stored] at carries
  | some row =>
      obtain ⟨after, kept, _, grown⟩ := changeset_grows (act_effect acted).2 stored
      rw [kept]
      rw [stored] at carries
      exact List.filterMap_subset certificateKey grown carries

theorem Ready.settled (sound : Store.Sound ctx world.system)
    (acted : Store.act ctx input world.system = some (label, system)) {call : PublishCall}
    (ready : world.Ready call) : (world.settled author input.action system).Ready call := by
  cases call with
  | idle => trivial
  | publishing publication rest stage =>
      obtain ⟨issued, queue, staged⟩ := ready
      refine ⟨by rw [settled_issued]; exact issued, by rw [settled_issued]; exact queue, ?_⟩
      have both {changesetId : String}
          (held : world.Based publication changesetId ∧ world.Carries publication changesetId) :
          (world.settled author input.action system).Based publication changesetId ∧
            (world.settled author input.action system).Carries publication changesetId :=
        ⟨held.1.settled sound acted, held.2.settled acted⟩
      cases stage with
      | describing | heading digests => trivial
      | creating digests base =>
          obtain ⟨below, wanted⟩ := staged
          unfold StageReady PublishWorld.head Wanted
          rw [settled_system]
          rcases head_of_act sound acted with same | above
          · rw [settled_decisions_same same, same]
            exact ⟨below, wanted⟩
          · exact ⟨by omega, fun atHead => by omega⟩
      | intending digests changesetId => exact Based.settled sound acted staged
      | patching certificate changesetId =>
          exact ⟨staged.1, staged.2.settled sound acted⟩
      | planning changesetId | trying changesetId call | sealing changesetId call
        | committing changesetId planId => exact both staged

theorem Recorded.sublist {after : PublishWorld ι} (recorded : world.Recorded)
    (orders : after.orders.Sublist world.orders) (opened : after.opened = world.opened)
    (issued : after.issued = world.issued) (raised : world.head ≤ after.head) :
    after.Recorded where
  rowsOpened entry member := by
    rw [opened]
    exact recorded.rowsOpened entry (orders.subset member)
  issuedOpened := by
    rw [opened, issued]
    exact recorded.issuedOpened
  distinct := recorded.distinct.sublist (orders.map _)
  liveUnissued entry member live := by
    rw [issued]
    exact recorded.liveUnissued entry (orders.subset member) live
  rowsIssued entry member publication named := by
    rw [issued]
    exact recorded.rowsIssued entry (orders.subset member) publication named
  once := by
    rw [issued]
    exact recorded.once
  heads publication member := by
    rw [issued] at member
    exact Nat.le_trans (recorded.heads publication member) raised

/-- What the author of a new revision has to have made sure of. -/
def Entitled (world : PublishWorld ι) (author : Author) (keys : List String) : Prop :=
  ∀ publication ∈ author.publication?, publication ∈ world.issued ∧
    publication.certificateKey ∈ keys ∧ world.Wanted publication

theorem Decided.settled (sound : Store.Sound ctx world.system) (recorded : world.Recorded)
    (decided : world.Decided)
    (acted : Store.act ctx input world.system = some (label, system))
    (entitled : system.db.head ≠ world.head →
      world.Entitled author (world.keysWritten system input.action)) :
    (world.settled author input.action system).Decided := by
  rcases head_of_act sound acted with same | above
  · have decisions := @settled_decisions_same _ world author system input.action same
    constructor
    case below =>
      rw [decisions, PublishWorld.head, settled_system, same]
      exact decided.below
    case ordered =>
      rw [decisions]
      exact decided.ordered
    case published =>
      rw [decisions, settled_issued]
      exact decided.published
    case respected =>
      rw [decisions]
      exact decided.respected
  · have moved : system.db.head ≠ world.head := by omega
    have decisions := @settled_decisions_moved _ world author system input.action moved
    have allowed := entitled moved
    constructor
    case below =>
      rw [decisions, PublishWorld.head, settled_system]
      intro decision member
      rcases List.mem_append.mp member with old | new
      · have := decided.below decision old
        omega
      · obtain rfl := List.mem_singleton.mp new
        exact Nat.le_refl _
    case ordered =>
      rw [decisions]
      refine List.pairwise_append.mpr ⟨decided.ordered, List.pairwise_singleton _ _, ?_⟩
      intro decision old new member
      obtain rfl := List.mem_singleton.mp member
      exact Nat.lt_of_le_of_lt (decided.below decision old) above
    case published =>
      rw [decisions, settled_issued]
      intro decision member publication named
      rcases List.mem_append.mp member with old | new
      · exact decided.published decision old publication named
      · obtain rfl := List.mem_singleton.mp new
        obtain ⟨issued, written, _⟩ := allowed publication named
        exact ⟨issued, Nat.lt_of_le_of_lt (recorded.heads publication issued) above, written⟩
    case respected =>
      rw [decisions]
      intro decision member publication named earlier earlierMember before
      rcases List.mem_append.mp member with old | new
      · rcases List.mem_append.mp earlierMember with earlierOld | earlierNew
        · exact decided.respected decision old publication named earlier earlierOld before
        · obtain rfl := List.mem_singleton.mp earlierNew
          have := decided.below decision old
          simp only at before
          omega
      · obtain rfl := List.mem_singleton.mp new
        rcases List.mem_append.mp earlierMember with earlierOld | earlierNew
        · exact (allowed publication named).2.2 earlier earlierOld
        · obtain rfl := List.mem_singleton.mp earlierNew
          exact (Nat.lt_irrefl _ before).elim

/-- A commit that moves the head is over the head, so what its publisher saw
there is still so. -/
theorem entitled_of_commit (sound : Store.Sound ctx world.system)
    {planId : String} {now : Nat} {audited : Bool}
    (acted : Store.act ctx ⟨.commit changesetId planId now, audited⟩ world.system =
      some (label, system))
    (moved : system.db.head ≠ world.head) (issued : publication ∈ world.issued)
    (based : world.Based publication changesetId)
    (carries : world.Carries publication changesetId) :
    world.Entitled (.publisher publication)
      (world.keysWritten system (.commit changesetId planId now)) := by
  intro other named
  cases named
  have named := (act_effect acted).1
  have commits : Commits ⟨world.system, label, system⟩ changesetId planId :=
    ⟨⟨now, by rw [named]⟩, .inr moved.symm⟩
  obtain ⟨plan, row, _, found, planned, owner, atHead, stored, _⟩ :=
    facts_of_commits (storeStep_of_act acted) commits
  obtain ⟨owned, closedRow, owner', closedStored, base, _⟩ :=
    sound.closed planId plan found planned
  cases owner.symm.trans owner'
  obtain ⟨basedRow, basedStored, wanted⟩ := based
  cases closedStored.symm.trans basedStored
  exact ⟨issued, carries, wanted (base.trans atHead)⟩

theorem Sound.settled (sound : world.Sound ctx)
    (acted : Store.act ctx input world.system = some (label, system))
    (entitled : system.db.head ≠ world.head →
      world.Entitled author (world.keysWritten system input.action)) :
    (world.settled author input.action system).Sound ctx where
  store := by
    rw [settled_system]
    exact sound.store.step (storeStep_of_act acted)
  recorded := by
    refine sound.recorded.sublist (settled_orders _) (settled_opened _) (settled_issued _) ?_
    rw [PublishWorld.head, PublishWorld.head, settled_system]
    rcases head_of_act sound.store acted with same | above
    · exact Nat.le_of_eq same.symm
    · exact Nat.le_of_lt above
  decided := sound.decided.settled sound.store sound.recorded acted entitled
  ready publisher := by
    rw [settled_calls]
    exact (sound.ready publisher).settled sound.store acted

end Store

/-! ## Steps -/

section Steps

variable {ctx : StoreContext} {world after : PublishWorld ι}

variable {id : String}

theorem Recorded.openOrder (recorded : world.Recorded) {certificateKey : String} {now : Nat}
    (opened : world.openOrder id certificateKey now = some after) : after.Recorded := by
  unfold PublishWorld.openOrder at opened
  split at opened
  · cases opened
  · rename_i free
    cases opened
    obtain ⟨fresh, _, _⟩ := not_or.mp free |>.imp_right not_or.mp
    have unused : ∀ entry ∈ world.orders, entry.id ≠ id := fun entry member same =>
      fresh (same ▸ recorded.rowsOpened entry member)
    constructor
    case rowsOpened =>
      intro entry member
      rcases List.mem_append.mp member with old | new
      · exact List.mem_cons_of_mem _ (recorded.rowsOpened entry old)
      · obtain rfl := List.mem_singleton.mp new
        exact List.mem_cons_self
    case issuedOpened =>
      exact fun publication member =>
        List.mem_cons_of_mem _ (recorded.issuedOpened publication member)
    case distinct =>
      rw [List.map_append, List.map_singleton]
      refine List.nodup_append.mpr ⟨recorded.distinct, List.nodup_singleton _, ?_⟩
      intro other member same sameMember
      obtain ⟨entry, old, rfl⟩ := List.mem_map.mp member
      obtain rfl := List.mem_singleton.mp sameMember
      exact unused entry old
    case liveUnissued =>
      intro entry member live publication issued
      rcases List.mem_append.mp member with old | new
      · exact recorded.liveUnissued entry old live publication issued
      · obtain rfl := List.mem_singleton.mp new
        intro same
        have known := recorded.issuedOpened publication issued
        rw [same] at known
        exact fresh known
    case rowsIssued =>
      intro entry member publication named
      rcases List.mem_append.mp member with old | new
      · exact recorded.rowsIssued entry old publication named
      · obtain rfl := List.mem_singleton.mp new
        cases named
    case once => exact recorded.once
    case heads => exact recorded.heads

variable {change : OrderEntry → OrderEntry}

theorem distinct_updateOrder (distinct : (world.orders.map OrderEntry.id).Nodup)
    (kept : ∀ entry, (change entry).id = entry.id) :
    ((world.updateOrder id change).map OrderEntry.id).Nodup := by
  have same : (world.updateOrder id change).map OrderEntry.id =
      world.orders.map OrderEntry.id := by
    unfold updateOrder
    rw [List.map_map]
    refine List.map_congr_left fun entry _ => ?_
    simp only [Function.comp_apply]
    split
    · exact kept entry
    · rfl
  rw [same]
  exact distinct

theorem mem_updateOrder {entry : OrderEntry} :
    entry ∈ world.updateOrder id change ↔
      ∃ old ∈ world.orders, (if old.id = id then change old else old) = entry := by
  unfold updateOrder
  exact List.mem_map

theorem liveOrder_spec {entry : OrderEntry}
    (found : world.liveOrder id = some entry) :
    entry ∈ world.orders ∧ entry.id = id ∧ entry.progress = .live := by
  have held := List.find?_some found
  simp only [Bool.and_eq_true, decide_eq_true_eq] at held
  exact ⟨List.mem_of_find?_eq_some found, held⟩

theorem Recorded.update (recorded : world.Recorded) (id : String)
    (kept : ∀ entry, (change entry).id = entry.id)
    (dead : ∀ entry, (change entry).progress = .live → entry.progress = .live)
    (issues : ∀ entry, ∀ publication ∈ (change entry).publication?,
      publication ∈ entry.publication?) :
    ({ world with orders := world.updateOrder id change } : PublishWorld ι).Recorded := by
  have origin : ∀ entry ∈ world.updateOrder id change, ∃ old ∈ world.orders,
      old.id = entry.id ∧ (entry.progress = .live → old.progress = .live) ∧
        ∀ publication ∈ entry.publication?, publication ∈ old.publication? := by
    intro entry member
    obtain ⟨old, there, made⟩ := mem_updateOrder.mp member
    refine ⟨old, there, ?_⟩
    split at made
    · subst made
      exact ⟨(kept old).symm, dead old, issues old⟩
    · subst made
      exact ⟨rfl, fun live => live, fun _ named => named⟩
  constructor
  case rowsOpened =>
    intro entry member
    obtain ⟨old, there, same, _⟩ := origin entry member
    exact same ▸ recorded.rowsOpened old there
  case issuedOpened => exact recorded.issuedOpened
  case distinct =>
    exact distinct_updateOrder recorded.distinct kept
  case liveUnissued =>
    intro entry member live
    obtain ⟨old, there, same, wasLive, _⟩ := origin entry member
    exact same ▸ recorded.liveUnissued old there (wasLive live)
  case rowsIssued =>
    intro entry member publication named
    obtain ⟨old, there, _, _, wasIssued⟩ := origin entry member
    exact recorded.rowsIssued old there publication (wasIssued publication named)
  case once => exact recorded.once
  case heads => exact recorded.heads

theorem Recorded.issue (recorded : world.Recorded) {issuedRef : String} {now : Nat}
    (issued : world.issue id issuedRef now = some after) :
    after.Recorded ∧ world.issued ⊆ after.issued := by
  obtain ⟨entry, found, rfl⟩ := Option.map_eq_some_iff.mp issued
  obtain ⟨there, named, live⟩ := liveOrder_spec found
  have unissued := recorded.liveUnissued entry there live
  rw [named] at unissued
  refine ⟨?_, List.subset_append_left _ _⟩
  constructor
  case rowsOpened =>
    intro other member
    obtain ⟨old, oldThere, rfl⟩ := mem_updateOrder.mp member
    split
    · exact recorded.rowsOpened old oldThere
    · exact recorded.rowsOpened old oldThere
  case issuedOpened =>
    intro publication member
    rcases List.mem_append.mp member with old | new
    · exact recorded.issuedOpened publication old
    · obtain rfl := List.mem_singleton.mp new
      exact named ▸ recorded.rowsOpened entry there
  case distinct => exact distinct_updateOrder recorded.distinct fun _ => rfl
  case liveUnissued =>
    intro other member stillLive publication publicationMember
    obtain ⟨old, oldThere, rfl⟩ := mem_updateOrder.mp member
    split at stillLive
    · cases stillLive
    · rename_i different
      rw [if_neg different]
      rcases List.mem_append.mp publicationMember with earlier | new
      · exact recorded.liveUnissued old oldThere stillLive publication earlier
      · obtain rfl := List.mem_singleton.mp new
        exact fun same => different same.symm
  case rowsIssued =>
    intro other member publication known
    obtain ⟨old, oldThere, rfl⟩ := mem_updateOrder.mp member
    split at known
    · cases known
      exact List.mem_append_right _ (List.mem_singleton_self _)
    · exact List.mem_append_left _ (recorded.rowsIssued old oldThere publication known)
  case once =>
    rw [List.map_append, List.map_singleton]
    refine List.nodup_append.mpr ⟨recorded.once, List.nodup_singleton _, ?_⟩
    intro other member same sameMember
    obtain ⟨publication, earlier, rfl⟩ := List.mem_map.mp member
    obtain rfl := List.mem_singleton.mp sameMember
    exact unissued publication earlier
  case heads =>
    intro publication member
    rcases List.mem_append.mp member with earlier | new
    · exact recorded.heads publication earlier
    · obtain rfl := List.mem_singleton.mp new
      exact Nat.le_refl _

theorem Decided.unique (decided : world.Decided) {first second : Decision}
    (firstMember : first ∈ world.decisions) (secondMember : second ∈ world.decisions)
    (same : first.revision = second.revision) : first = second := by
  have distinct : (world.decisions.map Decision.revision).Nodup :=
    List.pairwise_map.mpr (decided.ordered.imp fun before => Nat.ne_of_lt before)
  exact List.inj_on_of_nodup_map distinct firstMember secondMember same

/-- The store and the decisions stay, and orders are only added to the issued ones. -/
theorem Sound.beside (sound : world.Sound ctx) (system : after.system = world.system)
    (decisions : after.decisions = world.decisions) (calls : after.calls = world.calls)
    (issued : world.issued ⊆ after.issued) (recorded : after.Recorded) : after.Sound ctx where
  store := by
    rw [system]
    exact sound.store
  recorded := recorded
  decided := by
    constructor
    case below =>
      rw [decisions, PublishWorld.head, system]
      exact sound.decided.below
    case ordered =>
      rw [decisions]
      exact sound.decided.ordered
    case published =>
      rw [decisions]
      intro decision member publication named
      obtain ⟨known, above, written⟩ := sound.decided.published decision member publication named
      exact ⟨issued known, above, written⟩
    case respected =>
      rw [decisions]
      exact sound.decided.respected
  ready publisher := by
    rw [calls]
    have ready := sound.ready publisher
    cases called : world.calls publisher with
    | idle => trivial
    | publishing publication rest stage =>
        rw [called] at ready
        obtain ⟨known, queue, staged⟩ := ready
        refine ⟨issued known, fun other member => issued (queue other member), ?_⟩
        cases stage <;>
          simpa only [StageReady, Based, Carries, Wanted, PublishWorld.head, system, decisions]
            using staged

variable [DecidableEq ι]

theorem Sound.become (sound : world.Sound ctx) (publisher : ι) {call : PublishCall}
    (ready : world.Ready call) : (world.become publisher call).Sound ctx where
  store := sound.store
  recorded := { sound.recorded with }
  decided := { sound.decided with }
  ready other := by
    change world.Ready (Function.update world.calls publisher call other)
    by_cases same : other = publisher
    · subst same
      rw [Function.update_self]
      exact ready
    · rw [Function.update_of_ne same]
      exact sound.ready other

variable {rest : List Publication}

omit [DecidableEq ι] in
theorem ready_queued (known : ∀ other ∈ rest, other ∈ world.issued) :
    world.Ready (queued rest) := by
  cases rest with
  | nil => trivial
  | cons publication later =>
      exact ⟨known publication List.mem_cons_self,
        fun other member => known other (List.mem_cons_of_mem _ member), trivial⟩

omit [DecidableEq ι] in
theorem pending_issued (recorded : world.Recorded) :
    ∀ publication ∈ world.pendingPublications, publication ∈ world.issued := by
  intro publication member
  simp only [pendingPublications, List.mem_filter, List.mem_filterMap,
    List.mem_insertionSort] at member
  obtain ⟨⟨entry, ⟨⟨there, _⟩, _⟩, named⟩, _⟩ := member
  exact recorded.rowsIssued entry there publication named

variable {input : StoreInput} {system : StoreSystem} {label : StoreLabel}

theorem change_of_answered {α : Type} {script : StoreScript α} {reply : α → StoreReply}
    {next : StoreSystem}
    (performed : transacted ctx input system script reply = (label, next))
    (answered : label.2.isOk = true)
    (changes : ∀ value reached, script system.db = (.ok value, reached) →
      Change ctx system.db input.action reached) :
    Change ctx system.db input.action next.db := by
  rcases transacted_cases input system script reply with ⟨value, reached, succeeded, same⟩ | refused
  · obtain ⟨_, rfl⟩ := Prod.mk.inj (same.symm.trans performed)
    exact changes value reached succeeded
  · obtain ⟨refusal, revisionSeq, epochSeq, _, _, same⟩ := refused
    obtain ⟨rfl, _⟩ := Prod.mk.inj (same.symm.trans performed)
    cases answered

omit [DecidableEq ι] in
theorem stays_of_act (acted : Store.act ctx input world.system = some (label, system))
    (uncommitted : ∀ changesetId planId now, input.action ≠ .commit changesetId planId now)
    (unrolled : ∀ revision planId now, input.action ≠ .rollbackTo revision planId now) :
    system.db.head = world.head := by
  have effect := (act_effect acted).2
  generalize input.action = action at effect uncommitted unrolled
  cases effect with
  | changed change =>
      cases change with
      | committed => exact (uncommitted _ _ _ rfl).elim
      | rolledBack => exact (unrolled _ _ _ rfl).elim
      | _ => rfl
  | _ => rfl

variable {publication : Publication}

omit [DecidableEq ι] in
theorem based_of_created {changesetId : String} {base : Nat} {author : Author}
    (named : input.action = .createChangeset changesetId base)
    (acted : Store.act ctx input world.system = some (label, system))
    (answered : label.2.isOk = true)
    (wanted : base = world.head → world.Wanted publication) :
    (world.settled author input.action system).Based publication changesetId := by
  have stays := stays_of_act acted (by rw [named]; simp) (by rw [named]; simp)
  obtain ⟨_, audited⟩ := input
  obtain rfl := named
  have change := change_of_answered (Option.some.inj acted) answered
    fun _ _ => createChangeset_change
  obtain ⟨db, planning⟩ := system
  dsimp only at change
  cases change with
  | created known fresh =>
      refine ⟨{ baseRevision := base }, ?_, fun atHead => ?_⟩
      · rw [settled_system]
        exact OrderedMap.get?_set_same _ _ _
      · rw [PublishWorld.head, settled_system] at atHead
        unfold Wanted
        rw [settled_decisions_same stays]
        exact wanted atHead

omit [DecidableEq ι] in
theorem carries_of_patched {changesetId : String} {certificate : Certificate}
    {author : Author}
    (named : input.action = .patchChangeset changesetId [.put (.certificate certificate)])
    (acted : Store.act ctx input world.system = some (label, system))
    (answered : label.2.isOk = true)
    (about : certificate.key = publication.certificateKey) :
    (world.settled author input.action system).Carries publication changesetId := by
  obtain ⟨_, audited⟩ := input
  obtain rfl := named
  have change := change_of_answered (Option.some.inj acted) answered
    fun _ _ => patchChangeset_change
  obtain ⟨db, planning⟩ := system
  dsimp only at change
  cases change with
  | patched stored opened =>
      unfold Carries patchOf
      rw [settled_system]
      dsimp only
      rw [OrderedMap.get?_set_same]
      refine List.mem_filterMap.mpr ⟨_, List.mem_append_right _ (List.mem_singleton_self _), ?_⟩
      rw [certificateKey, about]

variable {publisher : ι} {answer : PublishAnswer}

theorem Sound.request (sound : world.Sound ctx) {action : StoreAction}
    {next : PublishCall} (known : ∀ other ∈ rest, other ∈ world.issued)
    (entitled : ∀ label system,
      Store.act ctx ⟨action, answer.audited⟩ world.system = some (label, system) →
      system.db.head ≠ world.head →
        world.Entitled (.publisher publication) (world.keysWritten system action))
    (continues : ∀ label system,
      Store.act ctx ⟨action, answer.audited⟩ world.system = some (label, system) →
      label.2.isOk = true →
        (world.settled (.publisher publication) action system).Ready next)
    (requested : world.request ctx publisher answer publication rest action next = some after) :
    after.Sound ctx := by
  obtain ⟨⟨label, system⟩, acted, rfl⟩ := Option.map_eq_some_iff.mp requested
  have settled := @Sound.settled _ ctx world (.publisher publication)
    ⟨action, answer.audited⟩ label system sound acted (entitled label system acted)
  refine settled.become publisher ?_
  split
  · exact continues label system acted ‹_›
  · refine ready_queued ?_
    rw [settled_issued]
    exact known

theorem Sound.requestBeside (sound : world.Sound ctx) {action : StoreAction}
    {next : PublishCall} (known : ∀ other ∈ rest, other ∈ world.issued)
    (uncommitted : ∀ changesetId planId now, action ≠ .commit changesetId planId now)
    (unrolled : ∀ revision planId now, action ≠ .rollbackTo revision planId now)
    (continues : ∀ label system,
      Store.act ctx ⟨action, answer.audited⟩ world.system = some (label, system) →
      label.2.isOk = true →
        (world.settled (.publisher publication) action system).Ready next)
    (requested : world.request ctx publisher answer publication rest action next = some after) :
    after.Sound ctx :=
  sound.request known
    (fun _ _ acted moved => (moved (stays_of_act acted uncommitted unrolled)).elim)
    continues requested

theorem Sound.publish (sound : world.Sound ctx) {stage : PublishStage}
    (called : world.calls publisher = .publishing publication rest stage)
    (careful : ∀ digests, stage = .heading digests → world.Wanted publication)
    (published : world.publish ctx publisher answer publication rest stage = some after) :
    after.Sound ctx := by
  have ready := sound.ready publisher
  rw [called] at ready
  obtain ⟨issued, known, staged⟩ := ready
  -- a statement keeps the call ready, so only what the stage adds is left to show
  have still (action : StoreAction) (next : PublishStage)
      (there : ∀ label system,
        Store.act ctx ⟨action, answer.audited⟩ world.system = some (label, system) →
        label.2.isOk = true →
          (world.settled (.publisher publication) action system).StageReady publication next) :
      ∀ label system,
        Store.act ctx ⟨action, answer.audited⟩ world.system = some (label, system) →
        label.2.isOk = true →
          (world.settled (.publisher publication) action system).Ready
            (.publishing publication rest next) := by
    intro label system acted answered
    refine ⟨?_, ?_, there label system acted answered⟩
    · rw [settled_issued]
      exact issued
    · rw [settled_issued]
      exact known
  cases stage with
  | describing =>
      cases published
      exact sound.become publisher ⟨issued, known, trivial⟩
  | heading digests =>
      cases published
      exact sound.become publisher
        ⟨issued, known, Nat.le_refl _, fun _ => careful digests rfl⟩
  | creating digests base =>
      refine sound.requestBeside known (by simp) (by simp) (still _ _ ?_) published
      exact fun label system acted answered =>
        based_of_created rfl acted answered staged.2
  | intending digests changesetId =>
      cases published
      exact sound.become publisher ⟨issued, known, rfl, staged⟩
  | patching certificate changesetId =>
      refine sound.requestBeside known (by simp) (by simp) (still _ _ ?_) published
      exact fun label system acted answered =>
        ⟨staged.2.settled sound.store acted, carries_of_patched rfl acted answered staged.1⟩
  | planning changesetId | trying changesetId call | sealing changesetId call =>
      refine sound.requestBeside known (by simp) (by simp) (still _ _ ?_) published
      exact fun label system acted _ =>
        ⟨staged.1.settled sound.store acted, staged.2.settled acted⟩
  | committing changesetId planId =>
      refine sound.request known ?_ ?_ published
      · exact fun label system acted moved =>
          entitled_of_commit sound.store acted moved issued staged.1 staged.2
      · intro label system acted answered
        refine ready_queued ?_
        rw [settled_issued]
        exact known

theorem sound_step {event : Event (PublishWorld ι) (PublishAction ι)}
    (step : Step ctx event.before event.label event.after) (sound : event.before.Sound ctx)
    (careful : Careful event) : event.after.Sound ctx := by
  obtain ⟨before, action, after⟩ := event
  unfold Step at step
  unfold Careful at careful
  dsimp only at step sound careful ⊢
  cases action with
  | store input =>
      obtain ⟨⟨label, system⟩, acted, rfl⟩ := Option.map_eq_some_iff.mp step
      exact sound.settled acted fun _ publication named => by cases named
  | openOrder id certificateKey now =>
      have recorded := sound.recorded.openOrder step
      simp only [PublishWorld.act, PublishWorld.openOrder] at step
      split at step
      · cases step
      · cases step
        exact sound.beside rfl rfl rfl (List.Subset.refl _) recorded
  | issue id issuedRef now =>
      obtain ⟨recorded, issued⟩ := sound.recorded.issue step
      obtain ⟨entry, found, rfl⟩ := Option.map_eq_some_iff.mp step
      exact sound.beside rfl rfl rfl issued recorded
  | abandon id now =>
      obtain ⟨entry, found, rfl⟩ := Option.map_eq_some_iff.mp step
      exact sound.beside rfl rfl rfl (List.Subset.refl _)
        (sound.recorded.update id (fun _ => rfl) (fun _ live => by cases live)
          fun _ _ named => by cases named)
  | touch id now =>
      cases step
      exact sound.beside rfl rfl rfl (List.Subset.refl _)
        (sound.recorded.update id (fun _ => rfl) (fun _ live => live) fun _ _ named => named)
  | go publisher answer =>
      simp only [PublishWorld.act] at step
      split at step
      · cases step
        exact sound.become publisher (ready_queued (pending_issued sound.recorded))
      · rename_i publication rest stage called
        refine sound.publish called ?_ step
        rintro digests rfl
        exact careful publication (by rw [called]; rfl)
  | throws publisher =>
      simp only [PublishWorld.act] at step
      split at step
      · cases step
        exact sound
      · rename_i publication rest stage called
        cases step
        have ready := sound.ready publisher
        rw [called] at ready
        exact sound.become publisher (ready_queued ready.2.1)
  | crash publisher =>
      cases step
      exact sound.become publisher trivial

omit [DecidableEq ι] in
theorem sound_initial : (initial : PublishWorld ι).Sound ctx where
  store := Store.sound_initial
  recorded := by constructor <;> simp [initial]
  decided := by constructor <;> simp [initial]
  ready publisher := trivial

omit [DecidableEq ι] in
/-- An order is issued once, so publications of one order are of one entry, and
the earlier of two would supersede the later. -/
theorem Sound.respected (sound : world.Sound ctx) : world.Respected := by
  refine ⟨sound.decided.respected, ?_⟩
  intro decision member publication named other otherMember same sameNamed sameOrder
  obtain ⟨issued, above, written⟩ := sound.decided.published decision member publication named
  obtain ⟨otherIssued, otherAbove, otherWritten⟩ :=
    sound.decided.published other otherMember same sameNamed
  obtain rfl : same = publication :=
    List.inj_on_of_nodup_map sound.recorded.once otherIssued issued sameOrder
  have supersedes {earlier : Decision} (by_it : same ∈ earlier.author.publication?)
      (later : same.head < earlier.revision) (keys : same.certificateKey ∈ earlier.keys) :
      earlier.Supersedes same := by
    refine ⟨later, keys, fun another anotherNamed => ?_⟩
    obtain rfl := Option.mem_unique by_it anotherNamed
    exact Nat.le_refl _
  by_contra different
  rcases Nat.lt_trichotomy other.revision decision.revision with before | equal | after
  · exact sound.decided.respected decision member same named other otherMember before
      (supersedes sameNamed otherAbove otherWritten)
  · exact different (sound.decided.unique otherMember member equal)
  · exact sound.decided.respected other otherMember same sameNamed decision member after
      (supersedes named above written)

end Steps

/-! ## Runs -/

section Runs

variable {ctx : StoreContext} [DecidableEq ι]

/-- As long as every publisher reads the head for an order that nothing
supersedes, no decision is undone and no order is published twice. -/
theorem publications_respect_decisions
    {history : List (Event (PublishWorld ι) (PublishAction ι))} {final : PublishWorld ι}
    (run : Follows (Step ctx) initial history final)
    (careful : ∀ event ∈ history, Careful event) :
    final.Respected ∧ ∀ event ∈ history, event.before.Respected := by
  have kept : ∀ event ∈ history, Step ctx event.before event.label event.after →
      event.before.Sound ctx → event.after.Sound ctx :=
    fun event member step sound => sound_step step sound (careful event member)
  have atEnd : final.Sound ctx := run.invariant_along _ sound_initial kept
  have before := run.throughout _ sound_initial kept
  exact ⟨atEnd.respected, fun event member => (before event member).respected⟩

end Runs

def webDigest : String :=
  "sha256:0123456789abcdef0123456789abcdef0123456789abcdef0123456789abcdef"

def webCertificate (materialRef : String) : Certificate :=
  { key := "web"
    materialRef := some materialRef
    chainDigest := some webDigest
    keyDigest := some webDigest }

def userCommits (changesetId planId : String) (base : Nat) (materialRef : String) :
    List (PublishAction Bool) :=
  [.createChangeset changesetId base,
    .patchChangeset changesetId [.put (.certificate (webCertificate materialRef))],
    .planRead 0 changesetId, .planDryRun 0 {}, .planSeal 0 planId 0,
    .commit changesetId planId 0].map fun action => .store ⟨action, true⟩

def goes (publisher : Bool) (changesetId planId : String) (steps : Nat) :
    List (PublishAction Bool) :=
  List.replicate steps
    (.go publisher
      { digests := ⟨webDigest, webDigest⟩, changesetId := changesetId, planId := planId })

def issuesOrder : List (PublishAction Bool) :=
  [.openOrder "order" "web" 0, .issue "order" "store://web@bbbbbbbbbbbbbbbb" 1]

theorem exists_disrespected (labels : List (PublishAction Bool))
    (attempted : (execute (fun label world => (act plainContext world label).map (label, ·))
      labels initial).any (fun (_, final) => decide (¬ final.Respected)) = true) :
    ∃ history final, Follows (Step plainContext) (initial : PublishWorld Bool) history final ∧
      history.map Event.label = labels ∧ ¬ final.Respected := by
  obtain ⟨history, final, run, named, checked⟩ := follows_of_attempt _ _ attempted
  exact ⟨history, final, run, named, of_decide_eq_true checked⟩

/-- The material that a user commits after an order was published is replaced by
that of the order, which is thus published twice; and two publishers that look
before either has committed publish an order twice by themselves. -/
theorem publication_undoes_decision :
    (∃ history final, Follows (Step plainContext) (initial : PublishWorld Bool) history final ∧
      history.map Event.label =
        userCommits "first" "first" 1 "store://web@aaaaaaaaaaaaaaaa" ++ issuesOrder ++
          goes true "order" "order" 10 ++
          userCommits "again" "again" 3 "store://web@aaaaaaaaaaaaaaaa" ++
          goes true "order again" "order again" 10 ∧
      ¬ final.Respected) ∧
    ∃ history final, Follows (Step plainContext) (initial : PublishWorld Bool) history final ∧
      history.map Event.label =
        userCommits "first" "first" 1 "store://web@aaaaaaaaaaaaaaaa" ++ issuesOrder ++
          goes false "other" "other" 2 ++ goes true "order" "order" 10 ++
          goes false "other" "other" 8 ∧
      ¬ final.Respected :=
  ⟨exists_disrespected _ (by decide +kernel), exists_disrespected _ (by decide +kernel)⟩

/-- Two publishers at work on one order, where both have read the head before
either has committed. -/
theorem publications_respect_decisions_raced :
    ∃ history final, Follows (Step plainContext) (initial : PublishWorld Bool) history final ∧
      final.decisions.length = 2 ∧ final.Respected := by
  obtain ⟨history, final, run, _, checked⟩ :=
    @follows_of_attempt _ _ (@act Bool _ plainContext) initial
      (userCommits "first" "first" 1 "store://web@aaaaaaaaaaaaaaaa" ++ issuesOrder ++
        goes false "other" "other" 3 ++ goes true "order" "order" 10 ++
        goes false "other" "other" 7)
      (fun (history, final) =>
        decide (∀ event ∈ history, Careful event) && decide (final.decisions.length = 2))
      (by decide +kernel)
  simp only [Bool.and_eq_true, decide_eq_true_eq] at checked
  exact ⟨history, final, run, checked.2, (publications_respect_decisions run checked.1).1⟩

end PublishWorld

end Barycenter.Control
