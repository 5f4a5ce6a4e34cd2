import Barycenter.Control.AcmeRunner

/-!
# Who writes the row of an order

The lease of an order is taken by one conditional update, and everything after
it is written by the identifier alone.  So a row belongs to the runner that has
claimed it only as long as no order is claimed out of a step that still goes on,
and as long as nothing is thrown once the claim has been given up.
-/

namespace Barycenter.Control

variable {ι : Type}

def AcmeOrder.HeldBy (order : AcmeOrder ι) (runner : ι) : Prop :=
  ∃ expiry, order.claim = some ⟨runner, expiry⟩

/-- Nobody has claimed the order, or only until a moment that has passed. -/
def AcmeOrder.Free (order : AcmeOrder ι) (now : Nat) : Prop :=
  ∀ lease ∈ order.claim, lease.expiry < now

def AcmeAction.actor : AcmeAction ι → Option ι
  | .claim runner _ _ => some runner
  | .go runner _ => some runner
  | _ => none

namespace AcmeWorld

/-- An order that has ended keeps its state, and a row is changed by the runner
that has claimed it, or claimed when it is free. -/
def Owned (event : Event (AcmeWorld ι) (AcmeAction ι)) : Prop :=
  ∀ id before after, event.before.order? id = some before → event.after.order? id = some after →
    (before.state.terminal = true → after.state = before.state) ∧
    (after ≠ before → ∃ runner, event.label.actor = some runner ∧
      (before.HeldBy runner ∨
        before.Free event.before.now ∧
          ∃ expiry, after = { before with claim := some ⟨runner, expiry⟩ }))

/-- What a call that gives up the claim must not do: throw afterwards. -/
def heard (call : RunnerCall ι) (fault : Fault) : Bool :=
  match call with
  | .driving _ (.issuing _ _) => decide (fault ≠ .unheard)
  | .releasing _ => decide (fault ≠ .unheard)
  | .listing _ issued => !issued || decide (fault = .answered)
  | _ => true

/-- No order is claimed out of a step that goes on, and nothing throws after the
claim has been given up. -/
def Exclusive (event : Event (AcmeWorld ι) (AcmeAction ι)) : Prop :=
  match event.label with
  | .claim _ orderId _ => ∀ runner, (event.before.calls runner).writes ≠ some orderId
  | .go runner answer => heard (event.before.calls runner) answer.fault = true
  | _ => True

/-! ## Rows -/

structure Rewrites (world after : AcmeWorld ι) (id : String)
    (change : AcmeOrder ι → AcmeOrder ι) : Prop where
  orders : after.orders = world.orders.map fun order =>
    if order.id = id then change order else order
  ids : ∀ order, (change order).id = order.id
  opened : after.opened = world.opened
  calls : after.calls = world.calls

variable {world : AcmeWorld ι} {id : String} {order : AcmeOrder ι}

theorem order?_id (found : world.order? id = some order) : order.id = id := by
  simpa using List.find?_some found

theorem find?_rewritten (orders : List (AcmeOrder ι)) (id other : String)
    {change : AcmeOrder ι → AcmeOrder ι} (ids : ∀ order, (change order).id = order.id) :
    ((orders.map fun order => if order.id = id then change order else order).find?
        fun order => decide (order.id = other)) =
      (orders.find? fun order => decide (order.id = other)).map fun order =>
        if order.id = id then change order else order := by
  induction orders with
  | nil => rfl
  | cons order rest induction =>
      have same : (if order.id = id then change order else order).id = order.id := by
        split
        · exact ids order
        · rfl
      simp only [List.map_cons, List.find?_cons, same]
      split
      · rfl
      · exact induction

namespace Rewrites

variable {world after : AcmeWorld ι} {id : String} {change : AcmeOrder ι → AcmeOrder ι}

theorem order? (rewrites : world.Rewrites after id change) (other : String) :
    after.order? other =
      (world.order? other).map fun order => if order.id = id then change order else order := by
  unfold AcmeWorld.order?
  rw [rewrites.orders]
  exact find?_rewritten _ _ _ rewrites.ids

theorem of_same (orders : after.orders = world.orders) (opened : after.opened = world.opened)
    (calls : after.calls = world.calls) (id : String) :
    world.Rewrites after id fun order => order where
  orders := by simp [orders]
  ids _ := rfl
  opened := opened
  calls := calls

end Rewrites

theorem rewrites_of_updateOrder {after : AcmeWorld ι} {change : AcmeOrder ι → AcmeOrder ι}
    (ids : ∀ order, (change order).id = order.id)
    (updated : world.updateOrder id change = some after) : world.Rewrites after id change := by
  unfold updateOrder at updated
  split at updated
  · cases updated
    exact ⟨rfl, ids, rfl, rfl⟩
  · cases updated

/-! ## Invariant -/

/-- An order that a call may still write has been claimed by its runner, and has
not ended. -/
structure Claimed (world : AcmeWorld ι) : Prop where
  distinct : (world.orders.map AcmeOrder.id).Nodup
  known : ∀ order ∈ world.orders, order.id ∈ world.opened
  writing : ∀ runner id, (world.calls runner).writes = some id → id ∈ world.opened
  held : ∀ runner id, (world.calls runner).writes = some id →
    ∀ order, world.order? id = some order →
      order.HeldBy runner ∧ order.state.terminal = false

theorem order?_of_mem (claimed : world.Claimed) (member : order ∈ world.orders) :
    world.order? order.id = some order := by
  cases found : world.order? order.id with
  | none => simpa using List.find?_eq_none.mp found order member
  | some other =>
      have there := List.mem_of_find?_eq_some found
      exact congrArg some
        (List.inj_on_of_nodup_map claimed.distinct there member (order?_id found))

section Steps

variable {world after next : AcmeWorld ι} {id : String} {change : AcmeOrder ι → AcmeOrder ι}
  {runner : ι}

theorem Claimed.rewritten [DecidableEq ι] (claimed : world.Claimed)
    (rewrites : world.Rewrites after id change)
    (alone : ∀ other order, other ≠ runner → (world.calls other).writes = some id →
      world.order? id ≠ some order) {call : RunnerCall ι}
    (goes : call.writes = none ∨ call.writes = some id ∧ id ∈ world.opened ∧
      ∀ order, world.order? id = some order →
        (change order).HeldBy runner ∧ (change order).state.terminal = false) :
    (after.become runner call).Claimed where
  distinct := by
    have same : after.orders.map AcmeOrder.id = world.orders.map AcmeOrder.id := by
      rw [rewrites.orders, List.map_map]
      refine List.map_congr_left fun order _ => ?_
      simp only [Function.comp_apply]
      split
      · exact rewrites.ids order
      · rfl
    exact same ▸ claimed.distinct
  known := by
    intro order member
    change order ∈ after.orders at member
    change order.id ∈ after.opened
    rw [rewrites.orders] at member
    rw [rewrites.opened]
    obtain ⟨old, there, rfl⟩ := List.mem_map.mp member
    split
    · rw [rewrites.ids]
      exact claimed.known old there
    · exact claimed.known old there
  writing := by
    intro other wanted written
    change wanted ∈ after.opened
    rw [rewrites.opened]
    change (Function.update after.calls runner call other).writes = some wanted at written
    rw [rewrites.calls] at written
    by_cases same : other = runner
    · subst same
      rw [Function.update_self] at written
      rcases goes with none | ⟨stays, known, _⟩
      · rw [none] at written
        cases written
      · cases stays.symm.trans written
        exact known
    · rw [Function.update_of_ne same] at written
      exact claimed.writing other wanted written
  held := by
    intro other wanted written order found
    change after.order? wanted = some order at found
    change (Function.update after.calls runner call other).writes = some wanted at written
    rw [rewrites.calls] at written
    rw [rewrites.order?] at found
    obtain ⟨old, stored, rfl⟩ := Option.map_eq_some_iff.mp found
    by_cases same : other = runner
    · subst same
      rw [Function.update_self] at written
      rcases goes with none | ⟨stays, _, holds⟩
      · rw [none] at written
        cases written
      · cases stays.symm.trans written
        rw [if_pos (order?_id stored)]
        exact holds old stored
    · rw [Function.update_of_ne same] at written
      split
      · rename_i mine
        have wantedMine := (order?_id stored).symm.trans mine
        subst wantedMine
        exact (alone other old same written stored).elim
      · exact claimed.held other wanted written old stored

theorem owned_of_rewrites [DecidableEq ι] (rewrites : world.Rewrites after id change)
    (call : RunnerCall ι) {action : AcmeAction ι} (acts : action.actor = some runner)
    (own : ∀ order, world.order? id = some order →
      order.state.terminal = false ∧
        (order.HeldBy runner ∨
          order.Free world.now ∧
            ∃ expiry, change order = { order with claim := some ⟨runner, expiry⟩ })) :
    Owned ⟨world, action, after.become runner call⟩ := by
  intro wanted before then_ found reached
  change after.order? wanted = some then_ at reached
  change world.order? wanted = some before at found
  rw [rewrites.order?, found] at reached
  have made : (if before.id = id then change before else before) = then_ :=
    Option.some.inj reached
  by_cases mine : before.id = id
  · have named := (order?_id found).symm.trans mine
    subst named
    rw [if_pos mine] at made
    obtain ⟨live, either⟩ := own before found
    refine ⟨fun ended => ?_, fun _ => ⟨runner, acts, ?_⟩⟩
    · rw [live] at ended
      cases ended
    · rcases either with held | ⟨free, expiry, taken⟩
      · exact .inl held
      · exact .inr ⟨free, expiry, made.symm.trans taken⟩
  · rw [if_neg mine] at made
    subst made
    exact ⟨fun _ => rfl, fun different => (different rfl).elim⟩

theorem owned_of_same {action : AcmeAction ι}
    (kept : ∀ id before then_, world.order? id = some before → after.order? id = some then_ →
      then_ = before) : Owned ⟨world, action, after⟩ := by
  intro wanted before then_ found reached
  have same := kept wanted before then_ found reached
  subst same
  exact ⟨fun _ => rfl, fun different => (different rfl).elim⟩

end Steps

/-! ## Steps -/

section Moves

variable {world after : AcmeWorld ι} {runner : ι} {id : String}

/-- A change that leaves the claim, and does not end the order. -/
def Keeps (change : AcmeOrder ι → AcmeOrder ι) : Prop :=
  ∀ order, (change order).claim = order.claim ∧
    (order.state.terminal = false → (change order).state.terminal = false)

def Goes (id : String) (change : AcmeOrder ι → AcmeOrder ι) (call : RunnerCall ι) : Prop :=
  call.writes = none ∨ call.writes = some id ∧ Keeps change

theorem keeps_same : Keeps fun order : AcmeOrder ι => order :=
  fun _ => ⟨rfl, fun live => live⟩

variable {change : AcmeOrder ι → AcmeOrder ι}

theorem goes_of_keeps (keeps : Keeps change)
    {call : RunnerCall ι} (either : call.writes = none ∨ call.writes = some id) :
    Goes id change call := by
  rcases either with none | stays
  · exact .inl none
  · exact .inr ⟨stays, keeps⟩

variable [DecidableEq ι]

/-- A step of a runner: one row at most is rewritten, and its call goes on. -/
def Moves (world : AcmeWorld ι) (runner : ι) (id : String) (moved : AcmeWorld ι) : Prop :=
  ∃ after change call, moved = after.become runner call ∧ world.Rewrites after id change ∧
    Goes id change call

theorem Moves.safe {moved : AcmeWorld ι} (moves : world.Moves runner id moved)
    (claimed : world.Claimed) (writes : (world.calls runner).writes = some id)
    {action : AcmeAction ι} (acts : action.actor = some runner) :
    moved.Claimed ∧ Owned ⟨world, action, moved⟩ := by
  obtain ⟨after, change, call, rfl, rewrites, goes⟩ := moves
  refine ⟨claimed.rewritten rewrites ?_ ?_, owned_of_rewrites rewrites call acts ?_⟩
  · -- two runners cannot both have claimed the row
    intro other order different written found
    obtain ⟨⟨expiry, lease⟩, _⟩ := claimed.held other id written order found
    obtain ⟨⟨ownExpiry, ownLease⟩, _⟩ := claimed.held runner id writes order found
    rw [lease] at ownLease
    cases ownLease
    exact different rfl
  · rcases goes with none | ⟨stays, keeps⟩
    · exact .inl none
    · refine .inr ⟨stays, claimed.writing runner id writes, fun order found => ?_⟩
      obtain ⟨⟨expiry, lease⟩, live⟩ := claimed.held runner id writes order found
      obtain ⟨claim, still⟩ := keeps order
      exact ⟨⟨expiry, claim.trans lease⟩, still live⟩
  · intro order found
    obtain ⟨held, live⟩ := claimed.held runner id writes order found
    exact ⟨live, .inl held⟩

theorem moves_become {call : RunnerCall ι} (goes : call.writes = none ∨ call.writes = some id) :
    world.Moves runner id (world.become runner call) :=
  ⟨world, fun order => order, call, rfl, .of_same rfl rfl rfl id, goes_of_keeps keeps_same goes⟩

variable {fault : Fault} {next thrown : RunnerCall ι}

theorem moves_attempt {effect : Option (AcmeWorld ι)}
    (effects : ∀ after, effect = some after → world.Rewrites after id change)
    (answered : Goes id change next) (unheard : fault = .unheard → Goes id change thrown)
    (refused : thrown.writes = none ∨ thrown.writes = some id) :
    world.Moves runner id (world.attempt runner fault effect next thrown) := by
  unfold attempt
  split
  · exact ⟨_, change, next, rfl, effects _ rfl, answered⟩
  · exact ⟨_, change, thrown, rfl, effects _ rfl, unheard rfl⟩
  · exact moves_become refused

theorem moves_wait (orders : after.orders = world.orders) (opened : after.opened = world.opened)
    (calls : after.calls = world.calls)
    (answered : next.writes = none ∨ next.writes = some id)
    (refused : thrown.writes = none ∨ thrown.writes = some id) :
    world.Moves runner id (world.attempt runner fault (some after) next thrown) := by
  refine moves_attempt (fun made same => ?_) (goes_of_keeps keeps_same answered)
    (fun _ => goes_of_keeps keeps_same refused) refused
  cases same
  exact .of_same orders opened calls id

theorem moves_update (ids : ∀ order, (change order).id = order.id)
    (keeps : Keeps change) (answered : next.writes = none ∨ next.writes = some id)
    (refused : thrown.writes = none ∨ thrown.writes = some id) :
    world.Moves runner id
      (world.attempt runner fault (world.updateOrder id change) next thrown) :=
  moves_attempt (fun _ same => rewrites_of_updateOrder ids same) (goes_of_keeps keeps answered)
    (fun _ => goes_of_keeps keeps refused) refused

theorem moves_ending (ids : ∀ order, (change order).id = order.id)
    (answered : next.writes = none) (unheard : fault = .unheard → thrown.writes = none)
    (refused : thrown.writes = none ∨ thrown.writes = some id) :
    world.Moves runner id
      (world.attempt runner fault (world.updateOrder id change) next thrown) :=
  moves_attempt (fun _ same => rewrites_of_updateOrder ids same) (.inl answered)
    (fun lost => .inl (unheard lost)) refused

theorem writes_firstStage (order : AcmeOrder ι) :
    (firstStage order).writes = none ∨ (firstStage order).writes = some order.id := by
  unfold firstStage
  split <;> simp [RunnerCall.writes]

theorem moves_drive {placers : Placers} {answer : AcmeAnswer} {stage : DriveStage}
    (nothing : heard (.driving order stage) answer.fault = true) :
    world.Moves runner order.id (world.drive placers runner answer order stage) := by
  have thrown : (RunnerCall.failing order.id : RunnerCall ι).writes = none ∨
      (RunnerCall.failing order.id : RunnerCall ι).writes = some order.id := .inr rfl
  cases stage with simp only [drive]
  | account => exact moves_wait rfl rfl rfl (writes_firstStage order) thrown
  | ordering =>
      split
      · exact moves_become thrown
      · exact moves_wait rfl rfl rfl (.inr rfl) thrown
  | recording url authorizations | settingKey certKeyRef =>
      exact moves_update (fun _ => rfl) (fun _ => ⟨rfl, fun live => live⟩) (.inr rfl) thrown
  | fetching left =>
      cases left with
      | nil => exact moves_become (.inr rfl)
      | cons url left =>
          simp only [drive]
          split
          · exact moves_become thrown
          · exact moves_wait rfl rfl rfl (.inr rfl) thrown
  | putting authzUrl material challengeUrl left =>
      split
      · exact moves_become thrown
      · rename_i challengeId stored put
        rw [putChallenge_spec put]
        exact moves_wait rfl rfl rfl (.inr rfl) thrown
  | placing authzUrl challengeId material challengeUrl left
    | marking authzUrl challengeId challengeUrl left | accepting authzUrl challengeUrl left =>
      exact moves_wait rfl rfl rfl (.inr rfl) thrown
  | validating | readying =>
      exact moves_update (fun _ => rfl) (fun _ => ⟨rfl, fun _ => rfl⟩) (.inr rfl) thrown
  | polling url =>
      split
      · exact moves_become thrown
      · split
        · split
          · have same := @Rewrites.of_same _ world (world.reject order.id url) rfl rfl rfl order.id
            exact ⟨_, fun order => order, _, rfl, same, .inr ⟨rfl, keeps_same⟩⟩
          · exact moves_become thrown
        · exact moves_wait rfl rfl rfl (.inr rfl) thrown
        · exact moves_wait rfl rfl rfl (.inr rfl) thrown
        · exact moves_wait rfl rfl rfl (.inr rfl) thrown
        · exact moves_wait rfl rfl rfl (.inr rfl) thrown
  | keying =>
      split
      · exact moves_wait rfl rfl rfl (.inr rfl) thrown
      · exact moves_wait rfl rfl rfl (.inr rfl) thrown
  | finalizing certKeyRef => exact moves_wait rfl rfl rfl (.inr rfl) thrown
  | issuing certKeyRef issuedRef =>
      refine moves_ending (fun _ => rfl) rfl (fun unheard => ?_) thrown
      simp [heard, unheard] at nothing

end Moves

section Runs

variable {placers : Placers} [DecidableEq ι]

variable {world : AcmeWorld ι} {runner : ι}

theorem moves_proceed {answer : AcmeAnswer} (writes : (world.calls runner).writes = some id)
    (nothing : heard (world.calls runner) answer.fault = true) :
    world.Moves runner id (world.proceed placers runner answer) := by
  unfold proceed
  cases called : world.calls runner with
  | idle | listing orderId issued | cleaning challenges =>
      rw [called] at writes
      cases writes
  | driving order stage =>
      rw [called] at writes nothing
      cases writes
      exact moves_drive nothing
  | releasing orderId =>
      rw [called] at writes nothing
      cases writes
      refine moves_ending (fun _ => rfl) rfl (fun unheard => ?_) (.inr rfl)
      simp [heard, unheard] at nothing
  | failing orderId =>
      rw [called] at writes
      cases writes
      exact moves_ending (fun _ => rfl) rfl (fun _ => rfl) (.inl rfl)

variable {after : AcmeWorld ι}

theorem Claimed.beside (claimed : world.Claimed)
    (orders : after.orders = world.orders) (opened : after.opened = world.opened)
    (calls : ∀ runner id, (after.calls runner).writes = some id →
      (world.calls runner).writes = some id) : after.Claimed where
  distinct := orders ▸ claimed.distinct
  known := orders ▸ opened ▸ claimed.known
  writing runner id writes := opened ▸ claimed.writing runner id (calls runner id writes)
  held runner id writes order found := by
    unfold order? at found
    rw [orders] at found
    exact claimed.held runner id (calls runner id writes) order found

variable {action : AcmeAction ι}

theorem owned_of_orders (orders : after.orders = world.orders) : Owned ⟨world, action, after⟩ := by
  refine owned_of_same fun id before then_ found reached => ?_
  unfold order? at found reached
  rw [orders, found] at reached
  exact (Option.some.inj reached).symm

theorem clean_beside (world : AcmeWorld ι) (challenge : AcmeChallenge) (fault : Fault) :
    (world.clean challenge fault).orders = world.orders ∧
      (world.clean challenge fault).opened = world.opened ∧
      (world.clean challenge fault).calls = world.calls := by
  cases fault <;> exact ⟨rfl, rfl, rfl⟩

theorem Claimed.become_beside (claimed : world.Claimed)
    (orders : after.orders = world.orders) (opened : after.opened = world.opened)
    (calls : after.calls = world.calls) (runner : ι) {call : RunnerCall ι}
    (nothing : call.writes = none) :
    (after.become runner call).Claimed ∧ Owned ⟨world, action, after.become runner call⟩ := by
  refine ⟨claimed.beside orders opened fun other id writes => ?_, owned_of_orders orders⟩
  change (Function.update after.calls runner call other).writes = some id at writes
  rw [calls] at writes
  by_cases same : other = runner
  · subst same
    rw [Function.update_self, nothing] at writes
    cases writes
  · rwa [Function.update_of_ne same] at writes

theorem Claimed.proceed_beside (claimed : world.Claimed)
    {answer : AcmeAnswer} (writes : (world.calls runner).writes = none)
    (nothing : heard (world.calls runner) answer.fault = true) :
    (world.proceed placers runner answer).Claimed ∧
      Owned ⟨world, action, world.proceed placers runner answer⟩ := by
  unfold proceed
  cases called : world.calls runner with
  | idle => exact ⟨claimed, owned_of_orders rfl⟩
  | driving order stage | releasing orderId | failing orderId =>
      rw [called] at writes
      cases writes
  | listing orderId issued =>
      rw [called] at nothing
      cases issued with
      | false =>
          cases answer.fault with
          | answered | lost | unheard => exact claimed.become_beside rfl rfl rfl runner rfl
      | true =>
          have answered : answer.fault = .answered := by simpa [heard] using nothing
          rw [answered]
          exact claimed.become_beside rfl rfl rfl runner rfl
  | cleaning challenges =>
      cases challenges with
      | nil => exact claimed.become_beside rfl rfl rfl runner rfl
      | cons challenge rest =>
          obtain ⟨orders, opened, calls⟩ := clean_beside world challenge answer.fault
          exact claimed.become_beside orders opened calls runner rfl

theorem Claimed.openOrder (claimed : world.Claimed)
    {id certificateKey : String} {domains : List String}
    (opened : world.openOrder id certificateKey domains = some after) :
    after.Claimed ∧ Owned ⟨world, action, after⟩ := by
  unfold AcmeWorld.openOrder at opened
  split at opened
  · cases opened
  · rename_i free
    cases opened
    have fresh := (not_or.mp free).1
    refine ⟨?_, owned_of_same fun other before then_ found reached => ?_⟩
    · constructor
      case distinct =>
        rw [List.map_append, List.map_singleton]
        refine List.nodup_append.mpr ⟨claimed.distinct, List.nodup_singleton _, ?_⟩
        intro other member same sameMember
        obtain ⟨order, there, rfl⟩ := List.mem_map.mp member
        obtain rfl := List.mem_singleton.mp sameMember
        intro equal
        have known := claimed.known order there
        rw [equal] at known
        exact fresh known
      case known =>
        intro order member
        rcases List.mem_append.mp member with old | new
        · exact List.mem_cons_of_mem _ (claimed.known order old)
        · obtain rfl := List.mem_singleton.mp new
          exact List.mem_cons_self
      case writing =>
        exact fun runner wanted writes =>
          List.mem_cons_of_mem _ (claimed.writing runner wanted writes)
      case held =>
        intro runner wanted writes order found
        have different : id ≠ wanted := by
          rintro rfl
          exact fresh (claimed.writing runner _ writes)
        unfold order? at found
        rw [List.find?_append] at found
        rcases Option.or_eq_some_iff.mp found with old | ⟨_, new⟩
        · exact claimed.held runner wanted writes order old
        · simp [different] at new
    · unfold order? at found reached
      rw [List.find?_append, found] at reached
      exact (Option.some.inj reached).symm

theorem Claimed.deleteCertificate (claimed : world.Claimed) (key : String)
 :
    (world.deleteCertificate key).Claimed ∧
      Owned ⟨world, action, world.deleteCertificate key⟩ := by
  have before : ∀ id order, (world.deleteCertificate key).order? id = some order →
      world.order? id = some order := by
    intro id order found
    have there := List.mem_of_find?_eq_some found
    rw [← order?_id found]
    exact order?_of_mem claimed (List.mem_of_mem_filter there)
  refine ⟨?_, owned_of_same fun id row then_ found reached => ?_⟩
  · constructor
    case distinct => exact claimed.distinct.sublist (List.filter_sublist.map _)
    case known => exact fun order member => claimed.known order (List.mem_of_mem_filter member)
    case writing => exact claimed.writing
    case held =>
      exact fun runner id writes order found =>
        claimed.held runner id writes order (before id order found)
  · exact Option.some.inj ((before id then_ reached).symm.trans found)

theorem Claimed.claim (claimed : world.Claimed)
    {orderId : String} {fault : Fault}
    (nobody : ∀ other, (world.calls other).writes ≠ some orderId)
    (taken : world.claim runner orderId fault = some after) :
    after.Claimed ∧ Owned ⟨world, .claim runner orderId fault, after⟩ := by
  unfold AcmeWorld.claim at taken
  split at taken
  · rename_i order called found
    split at taken
    · rename_i due
      cases taken
      simp only [AcmeWorld.due, Bool.and_eq_true, Bool.not_eq_true', decide_eq_true_eq] at due
      obtain ⟨⟨live, _⟩, free⟩ := due
      have idle : (RunnerCall.idle : RunnerCall ι).writes = none := rfl
      have stored : ∀ other : AcmeOrder ι, world.order? orderId = some other → other = order :=
        fun other there => Option.some.inj (there.symm.trans found)
      have own : ∀ other, world.order? orderId = some other →
          other.state.terminal = false ∧
            (other.HeldBy runner ∨ other.Free world.now ∧
              ∃ expiry, takeClaim ⟨runner, world.now + leaseSeconds⟩ other =
                { other with claim := some ⟨runner, expiry⟩ }) := by
        intro other there
        obtain rfl := stored other there
        refine ⟨live, .inr ⟨fun lease claimedBy => ?_, _, rfl⟩⟩
        rw [Option.mem_def] at claimedBy
        simpa [claimedBy] using free
      have alone : ∀ other row, other ≠ runner → (world.calls other).writes = some orderId →
          world.order? orderId ≠ some row :=
        fun other _ _ writes => (nobody other writes).elim
      have rewrites {after : AcmeWorld ι}
          (updated : world.updateOrder orderId
            (takeClaim ⟨runner, world.now + leaseSeconds⟩) = some after) :=
        rewrites_of_updateOrder (by exact fun _ => rfl) updated
      unfold attempt
      split
      · rename_i updated
        have rewrites := rewrites updated
        refine ⟨claimed.rewritten rewrites alone (.inr ⟨?_, ?_, ?_⟩),
          owned_of_rewrites rewrites _ rfl own⟩
        · have named := order?_id found
          exact congrArg some named
        · have known := claimed.known order (List.mem_of_find?_eq_some found)
          rwa [order?_id found] at known
        · intro other there
          obtain rfl := stored other there
          exact ⟨⟨_, rfl⟩, live⟩
      · rename_i updated
        have rewrites := rewrites updated
        exact ⟨claimed.rewritten rewrites alone (.inl idle),
          owned_of_rewrites rewrites _ rfl own⟩
      · exact ⟨claimed.rewritten (.of_same rfl rfl rfl orderId) alone (.inl idle),
          owned_of_orders rfl⟩
    · cases taken
  · cases taken

theorem claimed_step {event : Event (AcmeWorld ι) (AcmeAction ι)}
    (step : Step placers event.before event.label event.after)
    (claimed : event.before.Claimed) (exclusive : Exclusive event) :
    event.after.Claimed ∧ Owned event := by
  obtain ⟨before, action, after⟩ := event
  unfold Step at step
  unfold Exclusive at exclusive
  dsimp only at step claimed exclusive ⊢
  have beside {after : AcmeWorld ι} (orders : after.orders = before.orders)
      (opened : after.opened = before.opened) (calls : after.calls = before.calls) :
      after.Claimed ∧ Owned ⟨before, action, after⟩ :=
    ⟨claimed.beside orders opened fun _ _ writes => calls ▸ writes, owned_of_orders orders⟩
  cases action with simp only [act] at step
  | wait seconds | vanish material | scanOrphans olderThanSeconds =>
      cases step
      exact beside rfl rfl rfl
  | openOrder id certificateKey domains => exact claimed.openOrder step
  | deleteCertificate key =>
      cases step
      exact claimed.deleteCertificate key
  | caOrder url order | caAuthorization url authorization =>
      split at step
      · cases step
      · cases step
        exact beside rfl rfl rfl
  | caDecides url =>
      obtain ⟨authorization, _, rfl⟩ := Option.map_eq_some_iff.mp step
      exact beside rfl rfl rfl
  | caStatus url status =>
      obtain ⟨order, _, rfl⟩ := Option.map_eq_some_iff.mp step
      exact beside rfl rfl rfl
  | claim runner orderId fault => exact claimed.claim exclusive step
  | go runner answer =>
      cases step
      cases writes : (before.calls runner).writes with
      | some id => exact (moves_proceed writes exclusive).safe claimed writes rfl
      | none => exact claimed.proceed_beside writes exclusive
  | crash runner =>
      cases step
      refine ⟨claimed.beside rfl rfl fun other id writes => ?_, owned_of_orders rfl⟩
      change (Function.update before.calls runner .idle other).writes = some id at writes
      by_cases same : other = runner
      · subst same
        rw [Function.update_self] at writes
        cases writes
      · rwa [Function.update_of_ne same] at writes
  | sweepOrphan challenge fault =>
      split at step
      · cases step
        obtain ⟨orders, opened, calls⟩ := clean_beside before challenge fault
        exact beside orders opened calls
      · cases step

theorem claimed_initial : (initial : AcmeWorld ι).Claimed where
  distinct := List.nodup_nil
  known _ member := by cases member
  writing _ _ writes := by cases writes
  held _ _ writes := by cases writes

/-- As long as no order is claimed out of a step that goes on, and nothing is
thrown after a claim has been given up, every row is written by the runner that
has claimed it, and an order that has ended keeps its state. -/
theorem orders_owned {history : List (Event (AcmeWorld ι) (AcmeAction ι))} {final : AcmeWorld ι}
    (run : Follows (Step placers) initial history final)
    (exclusive : ∀ event ∈ history, Exclusive event) : ∀ event ∈ history, Owned event := by
  have throughout := run.throughout _ claimed_initial fun event member step claimed =>
    (claimed_step step claimed (exclusive event member)).1
  have steps := run.at_events trivial fun _ _ _ _ _ => trivial
  intro event member
  exact (claimed_step (steps event member).1 (throughout event member) (exclusive event member)).2

end Runs

/-! ## Concrete runs -/

def oneAuthorization : List (AcmeAction Bool) :=
  [.caAuthorization "authz"
      { domain := "a.test", challenges := [⟨.http01, "token", "challenge"⟩] },
    .caOrder "order" { authorizations := ["authz"] },
    .openOrder "o" "web" ["a.test"]]

def goes (runner : Bool) (steps : Nat) : List (AcmeAction Bool) :=
  List.replicate steps
    (.go runner { url := "order", challengeId := "c", ref := "store://web@0123456789abcdef" })

def starts (runner : Bool) : List (AcmeAction Bool) :=
  .claim runner "o" .answered :: goes runner 11

/-- A runner polls an order that is ready, and then takes steps to finalize it. -/
def issues (runner : Bool) (steps : Nat) : List (AcmeAction Bool) :=
  [.caDecides "authz", .caStatus "order" .ready, .claim runner "o" .answered] ++
    goes runner 4 ++ [.claim runner "o" .answered] ++ goes runner steps

/-- The poll of one runner outlasts its lease, and fails after another runner has
issued the order. -/
def lateFailure : List (AcmeAction Bool) :=
  oneAuthorization ++ starts true ++ [.claim true "o" .answered] ++ goes true 1 ++
    [.wait 121] ++ issues false 8 ++ [.go true { fault := .lost }] ++ goes true 1

/-- A runner cannot list the challenges of the order that it has just issued. -/
def failureAfterIssue : List (AcmeAction Bool) :=
  oneAuthorization ++ starts true ++ issues true 5 ++
    [.go true { fault := .lost }] ++ goes true 1

theorem exists_issued_fails (labels : List (AcmeAction Bool))
    (attempted : (execute (fun label world => (act ({} : Placers) world label).map (label, ·))
      labels initial).any (fun (history, _) => history.any fun event =>
        (event.before.order? "o").any (fun order => decide (order.state = .issued)) &&
          (event.after.order? "o").any fun order => decide (order.state = .failed)) = true) :
    ∃ history final, Follows (Step {}) (initial : AcmeWorld Bool) history final ∧
      history.map Event.label = labels ∧ ¬ ∀ event ∈ history, Owned event := by
  obtain ⟨history, final, run, named, checked⟩ := follows_of_attempt _ _ attempted
  refine ⟨history, final, run, named, fun owned => ?_⟩
  obtain ⟨event, member, both⟩ := List.any_eq_true.mp checked
  obtain ⟨wasIssued, isFailed⟩ := Bool.and_eq_true_iff.mp both
  obtain ⟨before, found, issued⟩ := (Option.any_eq_true _ _).mp wasIssued
  obtain ⟨after, reached, failed⟩ := (Option.any_eq_true _ _).mp isFailed
  have kept := (owned event member "o" before after found reached).1
    (by rw [of_decide_eq_true issued]; rfl)
  rw [of_decide_eq_true issued, of_decide_eq_true failed] at kept
  cases kept

theorem issued_order_fails :
    (∃ history final, Follows (Step {}) (initial : AcmeWorld Bool) history final ∧
      history.map Event.label = lateFailure ∧ ¬ ∀ event ∈ history, Owned event) ∧
    ∃ history final, Follows (Step {}) (initial : AcmeWorld Bool) history final ∧
      history.map Event.label = failureAfterIssue ∧ ¬ ∀ event ∈ history, Owned event :=
  ⟨exists_issued_fails _ (by decide +kernel), exists_issued_fails _ (by decide +kernel)⟩

instance (event : Event (AcmeWorld Bool) (AcmeAction Bool)) : Decidable (Exclusive event) :=
  match event with
  | ⟨before, .claim _ orderId _, _⟩ =>
      inferInstanceAs (Decidable (∀ runner, (before.calls runner).writes ≠ some orderId))
  | ⟨before, .go runner answer, _⟩ =>
      inferInstanceAs (Decidable (heard (before.calls runner) answer.fault = true))
  | ⟨_, .wait _, _⟩ => isTrue trivial
  | ⟨_, .openOrder _ _ _, _⟩ => isTrue trivial
  | ⟨_, .deleteCertificate _, _⟩ => isTrue trivial
  | ⟨_, .caOrder _ _, _⟩ => isTrue trivial
  | ⟨_, .caAuthorization _ _, _⟩ => isTrue trivial
  | ⟨_, .caDecides _, _⟩ => isTrue trivial
  | ⟨_, .caStatus _ _, _⟩ => isTrue trivial
  | ⟨_, .vanish _, _⟩ => isTrue trivial
  | ⟨_, .crash _, _⟩ => isTrue trivial
  | ⟨_, .scanOrphans _, _⟩ => isTrue trivial
  | ⟨_, .sweepOrphan _ _, _⟩ => isTrue trivial

/-- One runner starts an order and crashes in the next step, and another issues it. -/
theorem orders_owned_taken_over :
    ∃ history final, Follows (Step {}) (initial : AcmeWorld Bool) history final ∧
      (final.order? "o").map AcmeOrder.state = some .issued ∧
      ∀ event ∈ history, Owned event := by
  obtain ⟨history, final, run, _, checked⟩ :=
    @follows_of_attempt _ _ (@act Bool _ {}) initial
      (oneAuthorization ++ starts true ++ [.claim true "o" .answered] ++ goes true 1 ++
        [.crash true, .wait 121] ++ issues false 8)
      (fun (history, final) =>
        decide (∀ event ∈ history, Exclusive event) &&
          decide ((final.order? "o").map AcmeOrder.state = some .issued))
      (by decide +kernel)
  simp only [Bool.and_eq_true, decide_eq_true_eq] at checked
  exact ⟨history, final, run, checked.2, orders_owned run checked.1⟩

end AcmeWorld

end Barycenter.Control
