import Barycenter.Accounts.AdminFactor
import Barycenter.Conf.Ast
import Barycenter.Foundation.Sha256

/-!
# Personal tokens

A token belongs to one account.  Its role is at most its owner's when it is
issued, and whenever it is used it is cut down again to what its owner may do
then; what the identity provider grants to the owner does not pass to the token,
what it denies does.  Of the value only the digest is stored.  A token is taken
back by its owner or an administrator, and with the suspension, the deletion or
the recovery of its owner.
-/

namespace Barycenter.Accounts

/-! ## Roles -/

def roleRank : Role → Nat
  | .auditor => 0
  | .operator => 1
  | .admin => 2

def minRole (first second : Role) : Role :=
  if roleRank first ≤ roleRank second then first else second

theorem scopesOfRole_mono {lower upper : Role} (below : roleRank lower ≤ roleRank upper)
    {scope : Scope} (member : scope ∈ scopesOfRole lower) : scope ∈ scopesOfRole upper := by
  revert below member
  cases lower <;> cases upper <;> cases scope <;> decide

/-! ## Texts -/

def hexDigit (char : Char) : Bool := char.isDigit || ('a' ≤ char && char ≤ 'f')

def letterOrDigit (char : Char) : Bool :=
  char.isDigit || ('a' ≤ char && char ≤ 'z') || ('A' ≤ char && char ≤ 'Z')

/-- `trim` -/
def trimmed (text : String) : String :=
  String.ofList ((text.toList.dropWhile Conf.isSpace).rdropWhile Conf.isSpace)

/-- `UUID`, in letters of either case. -/
def UUID (text : String) : Bool :=
  let parts := text.toList.splitOn '-'
  decide (parts.map List.length = [8, 4, 4, 4, 12]) &&
    parts.all fun part => part.all fun char => hexDigit char.toLower

/-- `TOKEN_NAME` -/
def TOKEN_NAME (name : String) : Bool :=
  match name.toList with
  | [] => false
  | first :: rest =>
      letterOrDigit first && decide (rest.length ≤ 62) &&
        rest.all fun char => letterOrDigit char || char = '.' || char = '_' || char = '-'

/-- The part of a value that finds the row, `PERSONAL_TOKEN`. -/
def PERSONAL_TOKEN (value : String) : Option String :=
  let chars := value.toList
  let lookup := (chars.drop 5).take 16
  let secret := chars.drop 22
  if chars.take 5 = "bary_".toList ∧ lookup.length = 16 ∧ lookup.all hexDigit = true ∧
      (chars.drop 21).take 1 = ['_'] ∧ secret.length = 43 ∧
      (secret.all fun char => letterOrDigit char || char = '_' || char = '-') = true then
    some (String.ofList lookup)
  else none

def sha (text : String) : String := Sha256.hex text

/-! ## Rows -/

/-- A row of `api_tokens`. -/
structure TokenRow where
  id : String
  user : String
  name : String
  role : Role
  lookup : String
  tokenHash : String
  createdAt : Nat
  expiresAt : Nat
  lastUsedAt : Option Nat
  revokedAt : Option Nat
deriving DecidableEq, Repr

structure AccountStore where
  tables : Tables
  tokens : List TokenRow

def AccountStore.empty : AccountStore := { tables := Tables.empty, tokens := [] }

/-- The statements that take tokens back touch only those that are not yet. -/
def TokenRow.revokedIf (chosen : TokenRow → Bool) (now : Nat) (token : TokenRow) : TokenRow :=
  if chosen token && token.revokedAt.isNone then { token with revokedAt := some now } else token

def AccountStore.revokeAllTokens (store : AccountStore) (user : String) (now : Nat) :
    AccountStore :=
  { store with tokens := store.tokens.map (TokenRow.revokedIf (·.user == user) now) }

/-! ## Issuing -/

def TOKEN_DEFAULT_DAYS : Nat := 90
def TOKEN_MAX_DAYS : Nat := 365
def TOKEN_MAX_PER_USER : Nat := 50
def DAY_MS : Nat := 24 * 60 * 60 * 1000
def TOUCH_EVERY_MS : Nat := 60000

/-- What a request says about the days until the token expires. -/
inductive Days where
  | unsaid
  | noInteger
  | integer (count : Int)
deriving DecidableEq, Repr

/-- What a request says; a name that is no text and a role that is none are left
out. -/
structure TokenInput where
  name : Option String
  role : Option Role
  expiresInDays : Days
deriving DecidableEq, Repr

structure Drawn where
  id : String
  lookup : String
  secret : String
deriving DecidableEq, Repr

def Drawn.value (drawn : Drawn) : String := s!"bary_{drawn.lookup}_{drawn.secret}"

def badExpiry : AccountError :=
  ⟨400, "bad_expiry", s!"만료는 1–{TOKEN_MAX_DAYS}일(정수)이다 — 만료 없는 토큰은 없다"⟩

def tokenDays : Days → Except AccountError Nat
  | .unsaid => .ok TOKEN_DEFAULT_DAYS
  | .noInteger => .error badExpiry
  | .integer count =>
      if count < 1 ∨ (TOKEN_MAX_DAYS : Int) < count then .error badExpiry
      else .ok count.toNat

def tokenRole : Option Role → Except AccountError Role
  | none => .error ⟨400, "malformed", "역할은 auditor | operator | admin 이다"⟩
  | some role => .ok role

def tokenName (name : Option String) : Except AccountError String :=
  let name := trimmed (name.getD "")
  if TOKEN_NAME name then .ok name
  else
    .error ⟨400, "bad_token_name",
      "이름은 영문·숫자로 시작하고 영문, 숫자, 점(.), 밑줄(_), 하이픈(-)만 쓸 수 있다. 63자까지다"⟩

def roleText : Role → String
  | .auditor => "auditor"
  | .operator => "operator"
  | .admin => "admin"

/-- What the owner's row and the other tokens say against a token of this role. -/
def AccountStore.mayIssue (store : AccountStore) (userId : String) (role : Role) :
    Except AccountError Unit :=
  match store.tables.users userId with
  | none => .error ⟨404, "no_user", "쓸 수 있는 계정이 아니다"⟩
  | some owner =>
      if owner.status ≠ .active then .error ⟨404, "no_user", "쓸 수 있는 계정이 아니다"⟩
      else if roleRank owner.role < roleRank role then
        .error ⟨403, "role_exceeds_owner",
          s!"토큰 역할은 내 역할({roleText owner.role}) 이하로만 고른다"⟩
      else if TOKEN_MAX_PER_USER ≤
          store.tokens.countP (fun token => token.user == userId && token.revokedAt.isNone) then
        .error ⟨409, "too_many_tokens",
          s!"토큰은 {TOKEN_MAX_PER_USER}개까지다 — 안 쓰는 것을 먼저 폐기한다"⟩
      else .ok ()

/-- The row is added where neither its id nor its lookup is there already. -/
def AccountStore.insertToken (store : AccountStore) (row : TokenRow) :
    Except AccountError AccountStore :=
  if store.tokens.any fun token => token.id == row.id || token.lookup == row.lookup then
    .error ⟨409, "conflict", "이미 쓰이는 이름이나 이메일이다"⟩
  else .ok { store with tokens := store.tokens ++ [row] }

def AccountStore.issueToken (store : AccountStore) (userId : String)
    (input : TokenInput) (drawn : Drawn) (now : Nat) :
    Except AccountError (TokenRow × AccountStore) := do
  let name ← tokenName input.name
  let role ← tokenRole input.role
  let days ← tokenDays input.expiresInDays
  if !UUID userId then throw ⟨404, "no_user", "계정이 없다"⟩
  store.mayIssue userId role
  let row : TokenRow :=
    { id := drawn.id, user := userId, name := name, role := role, lookup := drawn.lookup
      tokenHash := sha drawn.value, createdAt := now, expiresAt := now + days * DAY_MS
      lastUsedAt := none, revokedAt := none }
  let stored ← store.insertToken row
  return (row, stored)

/-! ## Taking back -/

def noToken : AccountError := ⟨404, "no_token", "그런 토큰이 없다"⟩

def AccountStore.revokeToken (store : AccountStore) (ownerId tokenId : String) (now : Nat) :
    Except AccountError AccountStore :=
  let named (token : TokenRow) : Bool := token.id == tokenId && token.user == ownerId
  if !UUID ownerId || !UUID tokenId then .error noToken
  else if store.tokens.any fun token => named token && token.revokedAt.isNone then
    .ok { store with tokens := store.tokens.map (TokenRow.revokedIf named now) }
  else .error noToken

/-- The account whose tokens an operation on the accounts takes back. -/
def Tables.withdrawing (idpMfa : Option String) (tables : Tables) : Operation → Option String
  | .updateUser user patch =>
      match tables.updateUser idpMfa user patch with
      | .error _ => none
      | .ok _ =>
          if (tables.users user).any fun row => patch.statusAfter row == .suspended then some user
          else none
  | .deleteUser user =>
      match tables.deleteUser user with
      | .error _ => none
      | .ok _ => some user
  | .acceptLink input now =>
      match tables.acceptLink input now with
      | .error _ => none
      | .ok (_, user) =>
          if (tables.usableLink input.token now).toOption.any (·.kind == .recovery) then some user
          else none
  | _ => none

def AccountStore.operate (idpMfa : Option String) (store : AccountStore) (operation : Operation)
    (now : Nat) : AccountStore :=
  let after : AccountStore := { store with tables := store.tables.run idpMfa operation }
  match store.tables.withdrawing idpMfa operation with
  | none => after
  | some user => after.revokeAllTokens user now

/-! ## Authenticating -/

structure TokenPrincipal where
  name : String
  role : Role
  scopes : List Scope
  id : String
  userId : String
deriving DecidableEq, Repr

def AccountStore.tokenWithOwner (store : AccountStore) (lookup : String) :
    Option (TokenRow × UserRow) :=
  store.tokens.findSome? fun token =>
    if token.lookup == lookup then (store.tables.users token.user).map (token, ·) else none

def AccountStore.tokenOf (store : AccountStore) (value : String)
    (now : Nat) : Option (TokenRow × UserRow) := do
  let lookup ← PERSONAL_TOKEN value
  let (token, owner) ← store.tokenWithOwner lookup
  if token.tokenHash ≠ sha value then none
  else if token.revokedAt.isSome ∨ token.expiresAt ≤ now then none
  else if owner.status ≠ .active then none
  else some (token, owner)

def principalOf (username : String → String) (token : TokenRow) (owner : UserRow) :
    TokenPrincipal :=
  let role := minRole token.role owner.role
  let owned := scopesOfAuthority (authorityOfRow owner)
  { name := s!"user:{username token.user}/token:{token.name}", role := role
    scopes := (scopesOfRole role).filter fun scope => owned.contains scope
    id := token.id, userId := token.user }

def TokenRow.touched (id : String) (now : Nat) (token : TokenRow) : TokenRow :=
  if token.id == id && token.lastUsedAt.all (fun last => last + TOUCH_EVERY_MS ≤ now) then
    { token with lastUsedAt := some now }
  else token

def AccountStore.noteUse (store : AccountStore) (id : String) (now : Nat) : AccountStore :=
  { store with tokens := store.tokens.map (TokenRow.touched id now) }

def AccountStore.authenticateToken (username : String → String) (store : AccountStore)
    (value : String) (now : Nat) : Option TokenPrincipal × AccountStore :=
  match store.tokenOf value now with
  | none => (none, store)
  | some (token, owner) => (some (principalOf username token owner), store.noteUse token.id now)

/-! ## The service -/

/-- The statements that write.  The note of a use is one of its own, so others may
come between it and the reading of the row. -/
inductive Request where
  | account (operation : Operation) (now : Nat)
  | issueToken (userId : String) (input : TokenInput) (drawn : Drawn) (now : Nat)
  | revokeToken (ownerId tokenId : String) (now : Nat)
  | noteUse (id : String) (now : Nat)
deriving DecidableEq, Repr

def AccountStore.after {ε : Type} (store : AccountStore) : Except ε AccountStore → AccountStore
  | .ok changed => changed
  | .error _ => store

def AccountStore.serve (idpMfa : Option String) (store : AccountStore) :
    Request → AccountStore
  | .account operation now => store.operate idpMfa operation now
  | .issueToken userId input drawn now =>
      store.after ((store.issueToken userId input drawn now).map Prod.snd)
  | .revokeToken ownerId tokenId now => store.after (store.revokeToken ownerId tokenId now)
  | .noteUse id now => store.noteUse id now

def Serves (idpMfa : Option String) (before : AccountStore)
    (request : Request) (after : AccountStore) : Prop :=
  some (before.serve idpMfa request) = some after

def AccountStore.issued (store : AccountStore) : Request → Option TokenRow
  | .issueToken userId input drawn now =>
      (store.issueToken userId input drawn now).toOption.map Prod.fst
  | _ => none

/-- A request takes the token back by its id, or with the suspension, the deletion
or the recovery of its owner. -/
def AccountStore.takesBack (idpMfa : Option String) (store : AccountStore) (token : TokenRow) :
    Request → Bool
  | .account operation _ => store.tables.withdrawing idpMfa operation == some token.user
  | .revokeToken ownerId tokenId now =>
      ownerId == token.user && tokenId == token.id &&
        (store.revokeToken ownerId tokenId now).toOption.isSome
  | _ => false

/-! ## What a request does to the tokens -/

/-- Only the last use and the taking back of a token change, and what was taken
back stays so. -/
structure TokenRow.Becomes (earlier later : TokenRow) : Prop where
  same : { later with lastUsedAt := earlier.lastUsedAt, revokedAt := earlier.revokedAt } = earlier
  revoked : earlier.revokedAt.isSome = true → later.revokedAt = earlier.revokedAt

section

variable {idpMfa : Option String} {store after : AccountStore}
  {request : Request} {token row : TokenRow}

theorem TokenRow.Becomes.refl (token : TokenRow) : token.Becomes token := ⟨rfl, fun _ => rfl⟩

theorem TokenRow.Becomes.trans {first second third : TokenRow} (early : first.Becomes second)
    (late : second.Becomes third) : first.Becomes third := by
  constructor
  · have onward := late.same
    rw [← early.same, ← onward]
  · intro revoked
    have kept := early.revoked revoked
    rw [← kept]
    exact late.revoked (by rw [kept]; exact revoked)

theorem TokenRow.Becomes.fields {earlier later : TokenRow} (becomes : earlier.Becomes later) :
    later.id = earlier.id ∧ later.user = earlier.user ∧ later.role = earlier.role ∧
      later.lookup = earlier.lookup ∧ later.tokenHash = earlier.tokenHash ∧
      later.expiresAt = earlier.expiresAt := by
  rw [← becomes.same]
  exact ⟨rfl, rfl, rfl, rfl, rfl, rfl⟩

theorem TokenRow.becomes_revokedIf (chosen : TokenRow → Bool) (now : Nat) (token : TokenRow) :
    token.Becomes (token.revokedIf chosen now) := by
  unfold TokenRow.revokedIf
  split
  · rename_i live
    refine ⟨rfl, fun revoked => ?_⟩
    rw [Bool.and_eq_true, Option.isNone_iff_eq_none] at live
    rw [live.2] at revoked
    cases revoked
  · exact .refl token

theorem TokenRow.revoked_revokedIf {chosen : TokenRow → Bool} (now : Nat)
    (picked : chosen token = true) : (token.revokedIf chosen now).revokedAt.isSome = true := by
  unfold TokenRow.revokedIf
  split
  · rfl
  · rename_i spared
    rw [picked, Bool.true_and, Option.isNone_iff_eq_none] at spared
    exact Option.isSome_iff_ne_none.mpr spared

theorem TokenRow.becomes_touched (id : String) (now : Nat) (token : TokenRow) :
    token.Becomes (token.touched id now) := by
  unfold TokenRow.touched
  split
  · exact ⟨rfl, fun _ => rfl⟩
  · exact .refl token

theorem takesBack_of_becomes {later : TokenRow} (becomes : token.Becomes later)
    (request : Request) :
    store.takesBack idpMfa later request = store.takesBack idpMfa token request := by
  obtain ⟨ids, users, _⟩ := becomes.fields
  cases request <;> simp [AccountStore.takesBack, ids, users]

theorem insertToken_ok (inserted : store.insertToken row = .ok after) :
    after = { store with tokens := store.tokens ++ [row] } ∧
      ∀ token ∈ store.tokens, token.lookup ≠ row.lookup := by
  unfold AccountStore.insertToken at inserted
  split at inserted
  · cases inserted
  · rename_i free
    cases inserted
    refine ⟨rfl, fun token member same => free ?_⟩
    exact List.any_eq_true.mpr ⟨token, member, by simp [same]⟩

theorem issueToken_ok {userId : String} {input : TokenInput} {drawn : Drawn} {now : Nat}
    (accepted : store.issueToken userId input drawn now = .ok (row, after)) :
    store.insertToken row = .ok after ∧ row.revokedAt = none := by
  simp only [AccountStore.issueToken, bind, Except.bind, pure, Except.pure, throw, throwThe,
    MonadExceptOf.throw] at accepted
  split at accepted
  · cases accepted
  split at accepted
  · cases accepted
  split at accepted
  · cases accepted
  split at accepted
  · cases accepted
  split at accepted
  · cases accepted
  split at accepted
  · cases accepted
  · rename_i stored inserted
    cases accepted
    exact ⟨inserted, rfl⟩

theorem revokeToken_ok {ownerId tokenId : String} {now : Nat}
    (revoked : store.revokeToken ownerId tokenId now = .ok after) :
    after = { store with
      tokens := store.tokens.map
        (TokenRow.revokedIf (fun token => token.id == tokenId && token.user == ownerId) now) } := by
  simp only [AccountStore.revokeToken] at revoked
  split at revoked
  · cases revoked
  · split at revoked
    · cases revoked
      rfl
    · cases revoked

theorem tokens_serve (idpMfa : Option String) (store : AccountStore) (request : Request) :
    (∃ change : TokenRow → TokenRow, (∀ token : TokenRow, token.Becomes (change token)) ∧
      (store.serve idpMfa request).tokens = store.tokens.map change ∧
      (∀ token, store.takesBack idpMfa token request = true →
        (change token).revokedAt.isSome = true) ∧ store.issued request = none) ∨
    ∃ row, store.issued request = some row ∧
      (store.serve idpMfa request).tokens = store.tokens ++ [row] ∧
      (∀ token ∈ store.tokens, token.lookup ≠ row.lookup) ∧
      ∀ token, store.takesBack idpMfa token request = false := by
  have unchanged : ∀ tokens : List TokenRow, tokens = store.tokens →
      tokens = store.tokens.map id := by simp
  cases request with
  | account operation now =>
      left
      simp only [AccountStore.serve, AccountStore.operate, AccountStore.takesBack, beq_iff_eq]
      cases withdrawn : store.tables.withdrawing idpMfa operation with
      | none => exact ⟨id, TokenRow.Becomes.refl, unchanged _ rfl, by simp, rfl⟩
      | some user =>
          refine ⟨TokenRow.revokedIf (·.user == user) now,
            TokenRow.becomes_revokedIf _ now, rfl, fun token owned => ?_, rfl⟩
          cases owned
          exact TokenRow.revoked_revokedIf now (beq_self_eq_true _)
  | issueToken userId input drawn now =>
      cases accepted : store.issueToken userId input drawn now with
      | error refusal =>
          left
          refine ⟨id, TokenRow.Becomes.refl, unchanged _ ?_, ?_, ?_⟩
          · simp [AccountStore.serve, accepted, Except.map, AccountStore.after]
          · simp [AccountStore.takesBack]
          · simp [AccountStore.issued, accepted, Except.toOption]
      | ok result =>
          obtain ⟨row, stored⟩ := result
          obtain ⟨rfl, free⟩ := insertToken_ok (issueToken_ok accepted).1
          right
          refine ⟨row, ?_, ?_, free, fun token => rfl⟩
          · simp [AccountStore.issued, accepted, Except.toOption]
          · simp [AccountStore.serve, accepted, Except.map, AccountStore.after]
  | revokeToken ownerId tokenId now =>
      left
      cases revoked : store.revokeToken ownerId tokenId now with
      | error refusal =>
          refine ⟨id, TokenRow.Becomes.refl, unchanged _ ?_, ?_, rfl⟩
          · simp [AccountStore.serve, revoked, AccountStore.after]
          · simp [AccountStore.takesBack, revoked, Except.toOption]
      | ok stored =>
          refine ⟨TokenRow.revokedIf (fun token => token.id == tokenId && token.user == ownerId) now,
            TokenRow.becomes_revokedIf _ now, ?_, fun token taken => ?_, rfl⟩
          · simp [AccountStore.serve, revoked, AccountStore.after, revokeToken_ok revoked]
          · simp only [AccountStore.takesBack, Bool.and_eq_true, beq_iff_eq] at taken
            obtain ⟨⟨rfl, rfl⟩, accepted⟩ := taken
            exact TokenRow.revoked_revokedIf now (by simp)
  | noteUse tokenId now =>
      left
      exact ⟨TokenRow.touched tokenId now, TokenRow.becomes_touched tokenId now, rfl,
        by simp [AccountStore.takesBack], rfl⟩

end

end Barycenter.Accounts
