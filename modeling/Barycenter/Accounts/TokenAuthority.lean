import Barycenter.Accounts.Tokens
import Mathlib.Data.List.Nodup

/-!
# A token never exceeds its owner

Over every history of the accounts and of the tokens, what a value authenticates
as may do exactly what the token's own role, the owner's role and the owner's
scopes allow at that moment.  The row that is read is the one that was issued:
lookups are distinct, and no request changes the role or the owner of a token.
-/

namespace Barycenter.Accounts

/-- What a value whose lookup is the issued token's comes to. -/
structure WithinOwner (username : String → String) (store : AccountStore) (issued : TokenRow)
    (value : String) (now : Nat) : Prop where
  scopes : ∀ principal ∈ (store.authenticateToken username value now).1,
    ∀ owner ∈ store.tables.users issued.user, ∀ scope,
      scope ∈ principal.scopes ↔
        scope ∈ scopesOfRole issued.role ∧ scope ∈ scopesOfRole owner.role ∧
          scope ∈ scopesOfAuthority (authorityOfRow owner)
  removed : ∀ principal ∈ (store.authenticateToken username value now).1,
    ∀ owner ∈ store.tables.users issued.user, ∀ scope,
      scope ∉ scopesOfAuthority (authorityOfRow owner) → scope ∉ principal.scopes
  inactive : (∀ owner ∈ store.tables.users issued.user, owner.status ≠ .active) →
    (store.authenticateToken username value now).1 = none
  expired : issued.expiresAt ≤ now → (store.authenticateToken username value now).1 = none

/-- After any history since a token was issued its value stays within the owner, and
is worth nothing once the token was taken back; what authenticates was issued. -/
structure TokensWithinOwners (username : String → String) (idpMfa : Option String)
    (history : List (Event AccountStore Request)) (final : AccountStore) : Prop where
  within : ∀ earlier event later issued, history = earlier ++ event :: later →
    event.before.issued event.label = some issued →
    ∀ value, PERSONAL_TOKEN value = some issued.lookup → ∀ now,
      WithinOwner username final issued value now
  revoked : ∀ earlier event later issued, history = earlier ++ event :: later →
    event.before.issued event.label = some issued →
    (∃ other ∈ later, other.before.takesBack idpMfa issued other.label = true) →
    ∀ value, PERSONAL_TOKEN value = some issued.lookup → ∀ now,
      (final.authenticateToken username value now).1 = none
  wasIssued : ∀ value now, ∀ principal ∈ (final.authenticateToken username value now).1,
    ∃ event ∈ history, ∃ issued, event.before.issued event.label = some issued ∧
      PERSONAL_TOKEN value = some issued.lookup ∧ issued.tokenHash = sha value ∧
        principal.id = issued.id ∧ principal.userId = issued.user

variable {username : String → String} {idpMfa : Option String} {store final : AccountStore}
  {history : List (Event AccountStore Request)} {value : String} {now : Nat}
  {principal : TokenPrincipal} {token issued : TokenRow} {owner : UserRow} {request : Request}

/-! ## One row -/

theorem mem_scopesOfRole_minRole {first second : Role} {scope : Scope} :
    scope ∈ scopesOfRole (minRole first second) ↔
      scope ∈ scopesOfRole first ∧ scope ∈ scopesOfRole second := by
  unfold minRole
  split
  · rename_i below
    exact ⟨fun member => ⟨member, scopesOfRole_mono below member⟩, And.left⟩
  · rename_i above
    exact ⟨fun member => ⟨scopesOfRole_mono (by omega) member, member⟩, And.right⟩

theorem mem_principalOf {scope : Scope} :
    scope ∈ (principalOf username token owner).scopes ↔
      scope ∈ scopesOfRole token.role ∧ scope ∈ scopesOfRole owner.role ∧
        scope ∈ scopesOfAuthority (authorityOfRow owner) := by
  simp [principalOf, mem_scopesOfRole_minRole, and_assoc]

theorem tokenOf_eq_some (found : store.tokenOf value now = some (token, owner)) :
    PERSONAL_TOKEN value = some token.lookup ∧ token ∈ store.tokens ∧
      store.tables.users token.user = some owner ∧ token.tokenHash = sha value ∧
      token.revokedAt = none ∧ now < token.expiresAt ∧ owner.status = .active := by
  simp only [AccountStore.tokenOf, Option.bind_eq_bind, Option.bind_eq_some_iff] at found
  obtain ⟨lookup, named, ⟨candidate, row⟩, joined, passed⟩ := found
  obtain ⟨member, there, matching⟩ := List.exists_of_findSome?_eq_some joined
  split at passed
  · cases passed
  rename_i hashed
  split at passed
  · cases passed
  rename_i live
  split at passed
  · cases passed
  rename_i active
  cases passed
  split at matching
  · rename_i same
    obtain ⟨_, known, pair⟩ := Option.map_eq_some_iff.mp matching
    cases pair
    rw [beq_iff_eq] at same
    rw [not_or, Option.not_isSome_iff_eq_none, Nat.not_le] at live
    exact ⟨by rw [named, same], there, known, not_not.mp hashed, live.1, live.2, not_not.mp active⟩
  · cases matching

theorem authenticateToken_eq_some
    (authenticated : (store.authenticateToken username value now).1 = some principal) :
    ∃ token owner, store.tokenOf value now = some (token, owner) ∧
      principal = principalOf username token owner := by
  unfold AccountStore.authenticateToken at authenticated
  split at authenticated
  · cases authenticated
  · rename_i token owner found
    cases authenticated
    exact ⟨token, owner, found, rfl⟩

/-! ## The tokens over a run -/

def AccountStore.Distinct (store : AccountStore) : Prop :=
  (store.tokens.map TokenRow.lookup).Nodup

theorem AccountStore.Distinct.same (distinct : store.Distinct) {other : TokenRow}
    (there : token ∈ store.tokens) (here : other ∈ store.tokens)
    (lookups : token.lookup = other.lookup) : token = other :=
  List.inj_on_of_nodup_map distinct there here lookups

theorem AccountStore.Distinct.serve (distinct : store.Distinct) (request : Request) :
    (store.serve idpMfa request).Distinct := by
  unfold AccountStore.Distinct at distinct ⊢
  rcases tokens_serve idpMfa store request with
    ⟨change, becomes, tokens, _⟩ | ⟨row, _, tokens, free, _⟩
  · rw [tokens, List.map_map]
    have lookups : TokenRow.lookup ∘ change = TokenRow.lookup :=
      funext fun token => (becomes token).fields.2.2.2.1
    rw [lookups]
    exact distinct
  · rw [tokens, List.map_append, List.map_singleton]
    refine List.nodup_append.mpr ⟨distinct, List.nodup_singleton _, ?_⟩
    intro lookup member other last
    obtain ⟨token, there, rfl⟩ := List.mem_map.mp member
    rw [List.mem_singleton.mp last]
    exact free token there

theorem distinct_run (run : Follows (Serves idpMfa) .empty history final) : final.Distinct := by
  refine run.invariant AccountStore.Distinct List.nodup_nil ?_
  intro before label after served distinct
  cases served
  exact distinct.serve label

theorem kept_serve (idpMfa : Option String) (there : token ∈ store.tokens) (request : Request) :
    ∃ later ∈ (store.serve idpMfa request).tokens, token.Becomes later ∧
      (store.takesBack idpMfa token request = true → later.revokedAt.isSome = true) := by
  rcases tokens_serve idpMfa store request with
    ⟨change, becomes, tokens, taken, _⟩ | ⟨row, _, tokens, _, spared⟩
  · refine ⟨change token, ?_, becomes token, taken token⟩
    rw [tokens]
    exact List.mem_map_of_mem there
  · refine ⟨token, ?_, .refl token, ?_⟩
    · rw [tokens]
      exact List.mem_append_left _ there
    · intro taken
      rw [spared token] at taken
      cases taken

theorem kept_run (run : Follows (Serves idpMfa) store history final)
    (there : token ∈ store.tokens) :
    ∃ later ∈ final.tokens, token.Becomes later ∧
      ∀ event ∈ history, event.before.takesBack idpMfa token event.label = true →
        later.revokedAt.isSome = true := by
  induction run generalizing token with
  | nil => exact ⟨token, there, .refl token, by simp⟩
  | @cons start middle final label history served rest induction =>
      cases served
      obtain ⟨next, member, becomes, taken⟩ := kept_serve idpMfa there label
      obtain ⟨later, reached, onward, takenLater⟩ := induction member
      refine ⟨later, reached, becomes.trans onward, ?_⟩
      intro event among takes
      rcases List.mem_cons.mp among with rfl | old
      · have revoked := taken takes
        rw [onward.revoked revoked]
        exact revoked
      · exact takenLater event old (by rw [takesBack_of_becomes becomes]; exact takes)

theorem issued_mem (added : store.issued request = some issued) :
    issued ∈ (store.serve idpMfa request).tokens := by
  rcases tokens_serve idpMfa store request with
    ⟨_, _, _, _, nothing⟩ | ⟨row, added', tokens, _⟩
  · rw [nothing] at added
    cases added
  · rw [added] at added'
    cases added'
    rw [tokens]
    exact List.mem_append_right _ List.mem_cons_self

theorem issued_run (run : Follows (Serves idpMfa) .empty history final) :
    ∀ token ∈ final.tokens, ∃ event ∈ history, ∃ issued,
      event.before.issued event.label = some issued ∧ issued.Becomes token := by
  refine run.with_past (fun past state => ∀ token ∈ state.tokens, ∃ event ∈ past, ∃ issued,
    event.before.issued event.label = some issued ∧ issued.Becomes token)
    (by simp [AccountStore.empty]) ?_
  intro past event _ served known
  obtain ⟨before, label, after⟩ := event
  have reached : before.serve idpMfa label = after := Option.some.inj served
  subst reached
  intro token member
  rcases tokens_serve idpMfa before label with
    ⟨change, becomes, tokens, _⟩ | ⟨row, added, tokens, _⟩
  · rw [tokens] at member
    obtain ⟨earlier, there, rfl⟩ := List.mem_map.mp member
    obtain ⟨issuing, among, issued, adds, onward⟩ := known earlier there
    exact ⟨issuing, List.mem_append_left _ among, issued, adds, onward.trans (becomes earlier)⟩
  · rw [tokens] at member
    rcases List.mem_append.mp member with old | new
    · obtain ⟨issuing, among, issued, adds, onward⟩ := known token old
      exact ⟨issuing, List.mem_append_left _ among, issued, adds, onward⟩
    · rw [List.mem_singleton.mp new]
      exact ⟨_, List.mem_append_right _ List.mem_cons_self, row, added, .refl row⟩

/-! ## What a value comes to -/

theorem authenticated_issued (distinct : final.Distinct) {later : TokenRow}
    (there : later ∈ final.tokens) (becomes : issued.Becomes later)
    (named : PERSONAL_TOKEN value = some issued.lookup)
    (authenticated : (final.authenticateToken username value now).1 = some principal) :
    later.revokedAt = none ∧ now < issued.expiresAt ∧ ∃ owner,
      final.tables.users issued.user = some owner ∧ owner.status = .active ∧
        principal = principalOf username later owner := by
  obtain ⟨token, owner, found, rfl⟩ := authenticateToken_eq_some authenticated
  obtain ⟨read, member, known, _, live, unexpired, active⟩ := tokenOf_eq_some found
  obtain ⟨_, users, _, lookups, _, expires⟩ := becomes.fields
  have same : token = later := by
    refine distinct.same member there ?_
    rw [lookups]
    exact Option.some.inj (read.symm.trans named)
  subst same
  rw [users] at known
  rw [expires] at unexpired
  exact ⟨live, unexpired, owner, known, active, rfl⟩

theorem withinOwner (distinct : final.Distinct) {later : TokenRow}
    (there : later ∈ final.tokens) (becomes : issued.Becomes later)
    (named : PERSONAL_TOKEN value = some issued.lookup) (now : Nat) :
    WithinOwner username final issued value now := by
  have scopes : ∀ principal ∈ (final.authenticateToken username value now).1,
      ∀ owner ∈ final.tables.users issued.user, ∀ scope,
        scope ∈ principal.scopes ↔
          scope ∈ scopesOfRole issued.role ∧ scope ∈ scopesOfRole owner.role ∧
            scope ∈ scopesOfAuthority (authorityOfRow owner) := by
    intro principal authenticated owner known scope
    obtain ⟨_, _, row, found, _, rfl⟩ :=
      authenticated_issued distinct there becomes named authenticated
    cases found.symm.trans known
    rw [mem_principalOf, becomes.fields.2.2.1]
  constructor
  · exact scopes
  · intro principal authenticated owner known scope absent member
    exact absent ((scopes principal authenticated owner known scope).mp member).2.2
  · intro inactive
    refine Option.eq_none_iff_forall_ne_some.mpr fun principal authenticated => ?_
    obtain ⟨_, _, owner, known, active, _⟩ :=
      authenticated_issued distinct there becomes named authenticated
    exact inactive owner known active
  · intro expired
    refine Option.eq_none_iff_forall_ne_some.mpr fun principal authenticated => ?_
    obtain ⟨_, unexpired, _⟩ := authenticated_issued distinct there becomes named authenticated
    omega

theorem issued_kept (run : Follows (Serves idpMfa) .empty history final)
    {earlier later : List (Event AccountStore Request)} {event : Event AccountStore Request}
    (split : history = earlier ++ event :: later)
    (added : event.before.issued event.label = some issued) :
    ∃ row ∈ final.tokens, issued.Becomes row ∧
      ∀ other ∈ later, other.before.takesBack idpMfa issued other.label = true →
        row.revokedAt.isSome = true := by
  subst split
  obtain ⟨middle, _, rest⟩ := run.split
  cases rest with
  | cons served onward =>
      cases served
      exact kept_run onward (issued_mem added)

theorem token_within_owner (run : Follows (Serves idpMfa) .empty history final) :
    TokensWithinOwners username idpMfa history final := by
  have distinct := distinct_run run
  constructor
  · intro earlier event later issued split added value named now
    obtain ⟨row, there, becomes, _⟩ := issued_kept run split added
    exact withinOwner distinct there becomes named now
  · rintro earlier event later issued split added ⟨other, among, takes⟩ value named now
    obtain ⟨row, there, becomes, taken⟩ := issued_kept run split added
    refine Option.eq_none_iff_forall_ne_some.mpr fun principal authenticated => ?_
    have live := (authenticated_issued distinct there becomes named authenticated).1
    have revoked := taken other among takes
    rw [live] at revoked
    cases revoked
  · intro value now principal authenticated
    obtain ⟨token, owner, found, rfl⟩ := authenticateToken_eq_some authenticated
    obtain ⟨read, member, _, hashed, _⟩ := tokenOf_eq_some found
    obtain ⟨event, among, issued, added, becomes⟩ := issued_run run token member
    obtain ⟨ids, users, _, lookups, hashes, _⟩ := becomes.fields
    refine ⟨event, among, issued, added, ?_, ?_, ids, users⟩
    · rw [read, lookups]
    · rw [← hashes, hashed]

/-! ## A run of one token -/

def root : String := "00000000-0000-4000-8000-000000000001"

def ann : String := "00000000-0000-4000-8000-000000000002"

def drawnForAnn : Drawn :=
  { id := "00000000-0000-4000-8000-00000000000a", lookup := "0123456789abcdef"
    secret := "abcdefghijklmnopqrstuvwxyzABCDEFGHIJKLMNOPQ" }

/-- An operator is issued a token and becomes an auditor. -/
def issuedThenLowered : List Request :=
  [.account (.bootstrap "t0" 0) 0, .account (.acceptLink ⟨"t0", root, some true⟩ 1) 1,
    .account (.invite "t1" .operator 2) 2, .account (.acceptLink ⟨"t1", ann, none⟩ 3) 3,
    .issueToken ann ⟨some " ci-bot ", some .operator, .unsaid⟩ drawnForAnn 4,
    .account (.updateUser ann ⟨some .auditor, none, none⟩) 5]

theorem lowered_token_within_owner :
    ∃ history final, Follows (Serves none) .empty history final ∧
      history.map Event.label = issuedThenLowered ∧
      (final.authenticateToken id drawnForAnn.value 6).1.map TokenPrincipal.scopes =
        some [.read] ∧
      TokensWithinOwners id none history final := by
  obtain ⟨history, final, run, labels, reads⟩ := @follows_of_attempt _ _
    (fun (before : AccountStore) request => some (before.serve none request)) .empty
    issuedThenLowered
    (fun (_, final) => decide ((final.authenticateToken id drawnForAnn.value 6).1.map
      TokenPrincipal.scopes = some [.read]))
    (by decide +kernel)
  exact ⟨history, final, run, labels, of_decide_eq_true reads, token_within_owner run⟩

end Barycenter.Accounts
