import Barycenter.Cli.ResourceEdits
import Barycenter.Validate.AddressTexts

/-!
# The address of the sender behind proxies

Behind a proxy every request comes from the proxy's address, so the proxies that
are trusted say in a header for whom they ask: each one appends the address that
it was asked from.  What the client wrote into the header itself stands to the
left of that.  The header is therefore read from the right, as long as what
stands there is a trusted proxy.
-/

namespace Barycenter.Api

open Validate (Family ipVersion isIPv4 isIPv6)

/-! ## Texts of addresses -/

/-- `\d+\.\d+\.\d+\.\d+` -/
def dottedDigits (text : List Char) : Bool :=
  let parts := text.splitOn '.'
  parts.length = 4 && parts.all fun part => part ≠ [] && part.all Char.isDigit

/-- The IPv4 address that an IPv6 text is made of, `^::ffff:(\d+\.\d+\.\d+\.\d+)$`. -/
def mappedPart : List Char → Option (List Char)
  | ':' :: ':' :: first :: second :: third :: fourth :: ':' :: rest =>
      if [first, second, third, fourth].all (fun char => char = 'f' || char = 'F') &&
          dottedDigits rest then some rest
      else none
  | _ => none

/-- The address without blanks and without a zone; one form for an IPv4 address. -/
def normalize (addr : String) : String :=
  let text := (Cli.trim addr).toList.takeWhile (· ≠ '%')
  String.ofList ((mappedPart text).getD text)

example : ["::ffff:10.0.0.1", " fd00::1%eth0 ", "::FFFF:1.2.3", "unknown"].map normalize =
    ["10.0.0.1", "fd00::1", "::FFFF:1.2.3", "unknown"] := by
  decide +kernel

/-! ## Walking the header -/

/-- Whether a list of addresses and ranges has an address, as the platform's
`BlockList` tells it. -/
abbrev TrustedProxies := String → Family → Bool

def trusts (list : TrustedProxies) (addr : String) : Bool :=
  match ipVersion addr with
  | none => false
  | some version => list addr version

/-- The items of the header; repeated headers are joined. -/
def hopsOf (forwarded : List String) : List String :=
  ((((",".intercalate forwarded).toList.splitOn ',').map String.ofList).map normalize).filter
    (· ≠ "")

/-- From the right, as long as a trusted proxy stands there. -/
def walk (trusted : TrustedProxies) (addr : String) : List String → String
  | [] => addr
  | hop :: rest =>
      if ipVersion hop = none then addr
      else if trusts trusted hop then walk trusted hop rest
      else hop

def clientAddress (remoteAddress : Option String) (forwarded : List String)
    (trusted : Option TrustedProxies) : Option String :=
  match remoteAddress with
  | none => none
  | some peer =>
      match trusted with
      | none => some (normalize peer)
      | some list =>
          if trusts list (normalize peer) then
            some (walk list (normalize peer) (hopsOf forwarded).reverse)
          else some (normalize peer)

/-! ## Chains of proxies -/

/-- A proxy appends the address that it was asked from. -/
def forwardedFor (forwarded : List String) (peer : String) : List String :=
  if forwarded = [] then [peer] else [",".intercalate forwarded ++ ", " ++ peer]

/-- The peer and the header that the server sees when a request passes the proxies. -/
def throughProxies (peer : String) (forwarded : List String) : List String → String × List String
  | [] => (peer, forwarded)
  | proxy :: rest => throughProxies proxy (forwardedFor forwarded peer) rest

/-- A text that stands for one address in a list with commas. -/
def IsAddress (text : String) : Prop := ipVersion text ≠ none ∧ ',' ∉ text.toList

/-- The address that the server takes for the sender of a request. -/
def seenAddress (trusted : TrustedProxies) (client : String) (proxies : List String)
    (forwarded : List String) : Option String :=
  let (peer, header) := throughProxies client forwarded proxies
  clientAddress (some peer) header (some trusted)

/-! ## What normalizing keeps -/

theorem normalize_space (text : String) : normalize (" " ++ text) = normalize text := by
  have trimmed : Cli.trim (" " ++ text) = Cli.trim text := by
    apply String.toList_inj.mp
    rw [Cli.trim_toList, Cli.trim_toList, String.toList_append]
    rfl
  rw [normalize, normalize, trimmed]

variable {text : String}

theorem unzoned {addr rest : List Char} (spelled : text.toList = addr ++ rest)
    (visible : ∀ char ∈ addr, Cli.isBlank char = false) (unmarked : '%' ∉ addr)
    (filled : addr ≠ []) (behind : rest = [] ∨ rest.head? = some '%') :
    (Cli.trim text).toList.takeWhile (· ≠ '%') = addr := by
  have started : (addr ++ rest).dropWhile Cli.isBlank = addr ++ rest := by
    cases addr with
    | nil => exact absurd rfl filled
    | cons first others =>
        exact List.dropWhile_cons_of_neg (by simp [visible first List.mem_cons_self])
  rw [Cli.trim_toList, spelled, started]
  have passes : ∀ char ∈ addr, decide (char ≠ '%') = true :=
    fun char member => decide_eq_true fun same => unmarked (same ▸ member)
  have joined : (addr ++ rest).rdropWhile Cli.isBlank ++ (addr ++ rest).rtakeWhile Cli.isBlank =
      addr ++ rest := List.rdropWhile_append_rtakeWhile
  have blanks : ∀ char ∈ (addr ++ rest).rtakeWhile Cli.isBlank, Cli.isBlank char = true :=
    fun char member => List.mem_rtakeWhile_imp member
  rcases List.append_eq_append_iff.mp joined.symm with ⟨more, kept, tail⟩ | ⟨more, front, tail⟩
  · rw [kept, List.takeWhile_append_of_pos passes]
    have stops : more.takeWhile (· ≠ '%') = [] := by
      rcases behind with none | marked
      · rw [none] at tail
        rw [(List.append_eq_nil_iff.mp tail.symm).1]
        rfl
      · cases more with
        | nil => rfl
        | cons first others =>
            rw [tail] at marked
            cases marked
            rfl
    rw [stops, List.append_nil]
  · have none : more = [] := by
      refine List.eq_nil_iff_forall_not_mem.mpr fun char member => ?_
      have blank := blanks char (tail ▸ List.mem_append_left _ member)
      have plain := visible char (front ▸ List.mem_append_right _ member)
      rw [plain] at blank
      cases blank
    rw [none, List.append_nil] at front
    rw [← front]
    exact List.takeWhile_eq_self_iff.mpr passes

/-! ## Addresses have no blanks -/

variable {blank : Char}

theorem blank_notMem_hexGroup (isBlank : Cli.isBlank blank = true) {group : List Char}
    (shaped : Validate.HexGroup group) : blank ∉ group := by
  intro member
  have plain : "0123456789abcdefABCDEF".toList.all (fun char => !Cli.isBlank char) = true := by
    decide
  have visible := List.all_eq_true.mp plain blank (shaped.2.2 blank member)
  rw [isBlank] at visible
  cases visible

theorem blank_notMem_quad (isBlank : Cli.isBlank blank = true) {text : List Char}
    (valid : isIPv4 text = true) : blank ∉ text := by
  intro member
  rcases Validate.isIPv4_chars valid member with rfl | digit
  · exact absurd isBlank (by decide)
  · have shaped : Validate.isHextet [blank] = true := by simp [Validate.isHextet, digit]
    exact blank_notMem_hexGroup isBlank (Validate.hexGroup_iff.mpr shaped) List.mem_cons_self

theorem blank_notMem_side (isBlank : Cli.isBlank blank = true) {groups : List (List Char)}
    {pieces : List Nat} (side : Validate.Side groups pieces) : ∀ group ∈ groups, blank ∉ group := by
  cases side with
  | hexadecimal shaped =>
      exact fun group member => blank_notMem_hexGroup isBlank (shaped group member)
  | dotted shaped quad =>
      intro group member
      rcases List.mem_append.mp member with front | last
      · exact blank_notMem_hexGroup isBlank (shaped group front)
      · rw [List.mem_singleton.mp last]
        exact blank_notMem_quad isBlank (Validate.isIPv4_iff.mpr ⟨_, quad⟩)

theorem blank_notMem_spelling (isBlank : Cli.isBlank blank = true) {text : List Char}
    {pieces : List Nat} (spelling : Validate.Spelling text pieces) : blank ∉ text := by
  have different : blank ≠ ':' := by
    rintro rfl
    exact absurd isBlank (by decide)
  cases spelling with
  | full side eight =>
      exact Scanning.notMem_intercalate different (blank_notMem_side isBlank side)
  | shortened shaped side short =>
      have front := Scanning.notMem_intercalate different fun group member =>
        blank_notMem_hexGroup isBlank (shaped group member)
      have back := Scanning.notMem_intercalate different (blank_notMem_side isBlank side)
      simp only [List.mem_append, List.mem_cons, not_or]
      exact ⟨front, different, different, back⟩

/-! ## The normalized address is an address -/

theorem dotted_of_dottedDigits {text : List Char} (dotted : dottedDigits text = true) :
    '.' ∈ text ∧ ':' ∉ text := by
  simp only [dottedDigits, Bool.and_eq_true, decide_eq_true_eq, List.all_eq_true] at dotted
  constructor
  · by_contra undotted
    rw [List.splitOn_eq_singleton undotted] at dotted
    exact absurd dotted.1 (by simp)
  · intro colon
    rcases Route.mem_label colon with dot | ⟨part, isPart, inside⟩
    · cases dot
    · exact absurd ((dotted.2 part isPart).2 ':' inside) (by decide)

theorem mappedPart_eq_some {text rest : List Char} (mapped : mappedPart text = some rest) :
    ∃ group, text = ':' :: ':' :: (group ++ ':' :: rest) ∧ group.length = 4 ∧ ':' ∉ group ∧
      dottedDigits rest = true := by
  unfold mappedPart at mapped
  split at mapped
  · rename_i first second third fourth rest
    split at mapped
    · rename_i shaped
      cases mapped
      simp only [Bool.and_eq_true, List.all_eq_true] at shaped
      refine ⟨[first, second, third, fourth], rfl, rfl, fun colon => ?_, shaped.2⟩
      exact absurd (shaped.1 ':' colon) (by decide)
    · cases mapped
  · cases mapped

theorem isIPv4_of_mappedPart {text rest : List Char} (zoneless : '%' ∉ text)
    (valid : isIPv6 text = true) (mapped : mappedPart text = some rest) : isIPv4 rest = true := by
  obtain ⟨group, rfl, four, noColon, dotted⟩ := mappedPart_eq_some mapped
  obtain ⟨dot, restNoColon⟩ := dotted_of_dottedDigits dotted
  have groups : Validate.Groups [group, rest] := by
    intro part member
    rcases List.mem_pair.mp member with rfl | rfl
    · exact ⟨List.length_pos_iff.mp (by omega), noColon⟩
    · exact ⟨List.ne_nil_of_mem dot, restNoColon⟩
  have tail : [':'].intercalate [group, rest] = group ++ ':' :: rest := by
    simp [List.intercalate_cons_cons]
  have doubled := @Validate.doubleColons_shortened [] _ (by simp [Validate.Groups]) groups
  rw [tail] at doubled
  change Validate.doubleColons (':' :: ':' :: (group ++ ':' :: rest)) 0 = [0] at doubled
  simp only [isIPv6, Validate.withoutZone, if_neg zoneless, doubled] at valid
  split at valid
  · cases valid
  · change Validate.groupsFit true [] (Validate.colonGroups (group ++ ':' :: rest)) = true at valid
    rw [← tail, Validate.colonGroups_joined groups] at valid
    obtain ⟨-, pieces, side, -⟩ := Validate.groupsFit_doubled.mp valid
    rcases Validate.side_iff.mp ⟨pieces, side⟩ with hextets | ⟨front, last, split, -, quad, -⟩
    · exact absurd (hextets rest (by simp)) (Validate.not_dotted_hextet dot)
    · have same : rest = last := by
        have lasts := congrArg List.getLast? split
        simpa using lasts
      rw [same]
      exact quad

theorem ipVersion_ne_none_iff :
    ipVersion text ≠ none ↔ isIPv4 text.toList = true ∨ isIPv6 text.toList = true := by
  unfold ipVersion
  split
  · simp_all
  · split <;> simp_all

theorem address_split (address : ipVersion text ≠ none) :
    ∃ addr rest, text.toList = addr ++ rest ∧ (rest = [] ∨ rest.head? = some '%') ∧
      '%' ∉ addr ∧ addr ≠ [] ∧ (∀ char ∈ addr, Cli.isBlank char = false) ∧
      (isIPv4 addr = true ∨ isIPv6 addr = true) := by
  rcases ipVersion_ne_none_iff.mp address with quad | colons
  · obtain ⟨octets, spelled⟩ := Validate.isIPv4_iff.mp quad
    obtain ⟨-, zoneless, -, filled⟩ := spelled.separators
    refine ⟨text.toList, [], (List.append_nil _).symm, .inl rfl, zoneless, filled, ?_, .inl quad⟩
    intro char member
    by_contra blank
    exact blank_notMem_quad (by simpa using blank) quad member
  · obtain ⟨pieces, addr, spelling, zoned⟩ := Validate.isIPv6_iff.mp colons
    have visible : ∀ char ∈ addr, Cli.isBlank char = false := by
      intro char member
      by_contra blank
      exact blank_notMem_spelling (by simpa using blank) spelling member
    have valid := (Validate.isIPv6_plain spelling.zoneless).mpr ⟨pieces, spelling⟩
    have filled : addr ≠ [] := List.ne_nil_of_mem spelling.colon
    rcases zoned with same | ⟨zone, -, -, same⟩
    · exact ⟨addr, [], by rw [same, List.append_nil], .inl rfl, spelling.zoneless, filled, visible,
        .inr valid⟩
    · exact ⟨addr, '%' :: zone, same, .inr rfl, spelling.zoneless, filled, visible, .inr valid⟩

theorem ipVersion_normalize (address : ipVersion text ≠ none) :
    ipVersion (normalize text) ≠ none := by
  obtain ⟨addr, rest, spelled, behind, zoneless, filled, visible, valid⟩ := address_split address
  rw [ipVersion_ne_none_iff, normalize, unzoned spelled visible zoneless filled behind,
    String.toList_ofList]
  cases mapped : mappedPart addr with
  | none => exact valid
  | some inner =>
      refine .inl ?_
      rcases valid with quad | colons
      · obtain ⟨group, same, -⟩ := mappedPart_eq_some mapped
        have noColon := (Validate.isIPv4_separators quad).1
        exact absurd (by simp [same]) noColon
      · exact isIPv4_of_mappedPart zoneless colons mapped

/-! ## What the server sees -/

section

variable {trusted : TrustedProxies} {forwarded : List String} {client peer proxy : String}
  {proxies : List String}

theorem ipVersion_of_trusts {addr : String} (trusting : trusts trusted addr = true) :
    ipVersion addr ≠ none := by
  intro none
  rw [trusts, none] at trusting
  cases trusting

theorem filled_of_ipVersion {addr : String} (address : ipVersion addr ≠ none) : addr ≠ "" := by
  rintro rfl
  exact address (by decide)

/-- The last item of the header is the address that the last proxy was asked from. -/
theorem hopsOf_forwardedFor (commaless : ',' ∉ peer.toList)
    (address : ipVersion (normalize peer) ≠ none) :
    hopsOf (forwardedFor forwarded peer) = hopsOf forwarded ++ [normalize peer] := by
  have filled := filled_of_ipVersion address
  unfold forwardedFor
  split
  · rename_i none
    have nothing : hopsOf ([] : List String) = [] := by decide
    rw [none, nothing, hopsOf, String.intercalate_singleton,
      List.splitOn_eq_singleton commaless]
    simp [filled]
  · rename_i some
    have items : (",".intercalate forwarded ++ ", " ++ peer).toList.splitOn ',' =
        (",".intercalate forwarded).toList.splitOn ',' ++ [(" " ++ peer).toList] := by
      have spaced : ',' ∉ (" " ++ peer).toList := by
        rw [String.toList_append, List.mem_append, not_or]
        exact ⟨by decide, commaless⟩
      have joined : (",".intercalate forwarded ++ ", " ++ peer).toList =
          (",".intercalate forwarded).toList ++ ',' :: (" " ++ peer).toList := by
        simp [String.toList_append]
      rw [joined, List.splitOn_append_cons_self, List.splitOn_eq_singleton spaced]
    rw [hopsOf, String.intercalate_singleton, items]
    simp [hopsOf, normalize_space, filled]

theorem clientAddress_forwardedFor (trusting : trusts trusted (normalize proxy) = true)
    (commaless : ',' ∉ peer.toList) (address : ipVersion (normalize peer) ≠ none) :
    clientAddress (some proxy) (forwardedFor forwarded peer) (some trusted) =
      clientAddress (some peer) forwarded (some trusted) := by
  simp only [clientAddress, if_pos trusting, hopsOf_forwardedFor commaless address,
    List.reverse_append, List.reverse_singleton, List.singleton_append, walk, if_neg address]
  split <;> rfl

theorem seenAddress_eq (commaless : ',' ∉ client.toList)
    (address : ipVersion (normalize client) ≠ none)
    (chain : ∀ proxy ∈ proxies,
      trusts trusted (normalize proxy) = true ∧ ',' ∉ proxy.toList) :
    seenAddress trusted client proxies forwarded =
      clientAddress (some client) forwarded (some trusted) := by
  induction proxies generalizing client forwarded with
  | nil => rfl
  | cons proxy rest induction =>
      obtain ⟨⟨trusting, proxyCommaless⟩, later⟩ := List.forall_mem_cons.mp chain
      have onward : seenAddress trusted proxy rest (forwardedFor forwarded client) =
          clientAddress (some proxy) (forwardedFor forwarded client) (some trusted) :=
        induction proxyCommaless (ipVersion_of_trusts trusting) later
      rw [← clientAddress_forwardedFor trusting commaless address]
      exact onward

/-- Behind trusted proxies the server sees the client's own address, whatever the
client wrote into the header; from a peer that is not trusted the header is not read. -/
theorem client_address_unspoofed (address : IsAddress client)
    (outside : trusts trusted (normalize client) = false)
    (chain : ∀ proxy ∈ proxies, IsAddress proxy ∧ trusts trusted (normalize proxy) = true) :
    (∀ first second, seenAddress trusted client proxies first =
        seenAddress trusted client proxies second ∧
      seenAddress trusted client proxies first = some (normalize client)) ∧
      ∀ (list : Option TrustedProxies) (peer : String),
        (∀ trusted ∈ list, trusts trusted (normalize peer) = false) → ∀ first second,
          clientAddress (some peer) first list = clientAddress (some peer) second list := by
  have handed : ∀ proxy ∈ proxies,
      trusts trusted (normalize proxy) = true ∧ ',' ∉ proxy.toList :=
    fun proxy member => ⟨(chain proxy member).2, (chain proxy member).1.2⟩
  have seen (forwarded : List String) :
      seenAddress trusted client proxies forwarded = some (normalize client) := by
    rw [seenAddress_eq address.2 (ipVersion_normalize address.1) handed]
    simp [clientAddress, outside]
  refine ⟨fun first second => ⟨by rw [seen, seen], seen first⟩, ?_⟩
  intro list peer untrusted first second
  cases list with
  | none => rfl
  | some trusted => simp [clientAddress, untrusted trusted rfl]

end

def listed : TrustedProxies := fun addr _ => addr ∈ ["10.253.65.250", "fd00::1"]

theorem spoofed_header_ignored :
    seenAddress listed "::ffff:198.51.100.9" ["10.253.65.250", "fd00::1%eth0"]
        ["1.1.1.1, unknown", "10.253.65.250"] = some (normalize "::ffff:198.51.100.9") := by
  have address : IsAddress "::ffff:198.51.100.9" := ⟨by decide +kernel, by decide +kernel⟩
  have chain : ∀ proxy ∈ ["10.253.65.250", "fd00::1%eth0"],
      IsAddress proxy ∧ trusts listed (normalize proxy) = true := by
    intro proxy member
    rcases List.mem_pair.mp member with rfl | rfl
    · exact ⟨⟨by decide +kernel, by decide +kernel⟩, by decide +kernel⟩
    · exact ⟨⟨by decide +kernel, by decide +kernel⟩, by decide +kernel⟩
  exact ((client_address_unspoofed address (by decide +kernel) chain).1 _ []).2

end Barycenter.Api
