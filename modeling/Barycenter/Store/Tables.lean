import Barycenter.Foundation.OrderedMap
import Barycenter.Model.Provisional

/-!
# The working tables of the configuration store

A table is a map from keys to rows.  A column that refers to another table
holds the key of the row it refers to, together with the protocol class of that
row where the foreign key is composite.  The constraints are those of the
database schema: a statement that would break one fails and changes nothing.

A text column holds any text but the one with a zero character, and an integer
column holds a number of four bytes.
-/

namespace Barycenter

namespace Store

open Config

structure StoreError where
  status : Nat
  code : String
  message : String
deriving DecidableEq, Repr

/-! ## Rows -/

structure PoolRef where
  key : String
  protocolClass : ProtocolClass
deriving DecidableEq, Repr

inductive ListenerProtocol where
  | http
  | https
  | tlsPassthrough
  | tcp
  | udp
deriving DecidableEq, Repr

structure ListenerRef where
  key : String
  protocol : ListenerProtocol
deriving DecidableEq, Repr

structure PoolRow where
  protocolClass : ProtocolClass
  algorithm : Algorithm
  hashKey : Option String
  sendProxyProtocol : Option Unit
  healthCheck : Option HealthCheck
  upstreamTls : Option UpstreamTls
  discovery : Option PoolDiscovery
deriving DecidableEq, Repr

structure BackendRow where
  pool : String
  host : String
  port : Nat
  weight : Nat
  enabled : Bool
deriving DecidableEq, Repr

structure CertificateRow where
  materialRef : Option String
  chainDigest : Option String
  keyDigest : Option String
  acmeAccount : Option String
  acmeDomains : Option (List String)
deriving DecidableEq, Repr

structure TlsPolicyRow where
  minVersion : TlsVersion
  maxVersion : Option TlsVersion
  sniHostMismatch : Option SniHostMismatch
  cipherPolicy : Option CipherPolicyRef
  hsts : Option HstsPolicy
deriving DecidableEq, Repr

structure AddressSetRow where
  cidrs : List String
  source : Option AddressSourceKind
  sourceOptions : Option AddressSourceOptions
deriving DecidableEq, Repr

structure ListenerRow where
  protocol : ListenerProtocol
  bind : String
  port : Nat
  enabled : Bool
  acceptProxyCidrs : Option (List String) := none
  udpPreset : Option UdpPreset := none
  httpDefaultPool : Option PoolRef := none
  httpDefaultReject : Option Bool := none
  onUnmatchedSniPool : Option PoolRef := none
  onUnmatchedSniReject : Option Bool := none
  onNoSniPool : Option PoolRef := none
  onNoSniReject : Option Bool := none
  prereadTimeoutS : Option Nat := none
  defaultPool : Option PoolRef := none
  tlsPolicy : Option String := none
  tlsDefaultCert : Option String := none
  http2 : Option Bool := none
  proxyLimits : Option ProxyLimits := none
  headerRules : Option HeaderRules := none
  rateLimit : Option RateLimit := none
  httpStrictPriority : Option Bool := none
  realIpHeader : Option RealIpHeaderName := none
  realIpHeaderCidrs : Option (List String) := none
  sourceAllow : Option (List String) := none
  hosts : Option (List String) := none
  httpRedirectPort : Option Nat := none
deriving DecidableEq, Repr

inductive ActionKind where
  | proxy
  | redirect
  | reject
deriving DecidableEq, Repr

structure HttpRouteRow where
  listener : ListenerRef
  hosts : List String
  priority : Nat
  pathPrefix : Option String
  pathPrefixes : Option (List String)
  sourceRules : Option (List HttpSourceRule)
  actionKind : ActionKind
  pool : Option PoolRef := none
  websocket : Option Bool := none
  redirectTo : Option String := none
  status : Option Nat := none
  requestHeaders : Option (List HeaderRule) := none
  rewritePrefix : Option String := none
deriving DecidableEq, Repr

structure PassthroughRouteRow where
  listener : ListenerRef
  snis : List String
  priority : Nat
  actionKind : ActionKind
  pool : Option PoolRef
deriving DecidableEq, Repr

structure SniBindingRow where
  listener : ListenerRef
  certificate : String
  hosts : List String
  ovrMinVersion : Option TlsVersion
  ovrMaxVersion : Option TlsVersion
deriving DecidableEq, Repr

structure Tables where
  engine : Option EngineSettings := none
  pools : OrderedMap String PoolRow := OrderedMap.empty
  backends : OrderedMap String BackendRow := OrderedMap.empty
  certificates : OrderedMap String CertificateRow := OrderedMap.empty
  tlsPolicies : OrderedMap String TlsPolicyRow := OrderedMap.empty
  addressSets : OrderedMap String AddressSetRow := OrderedMap.empty
  listeners : OrderedMap String ListenerRow := OrderedMap.empty
  httpRoutes : OrderedMap String HttpRouteRow := OrderedMap.empty
  passthroughRoutes : OrderedMap String PassthroughRouteRow := OrderedMap.empty
  sniBindings : OrderedMap String SniBindingRow := OrderedMap.empty
deriving DecidableEq, Repr

/-! ## Text shapes that the schema asks for -/

def nameCharacter (character : Char) : Bool :=
  character.isAlphanum || character == '.' || character == '_' || character == '-'

def hexCharacter (character : Char) : Bool :=
  character.isDigit || ('a' ≤ character && character ≤ 'f')

/-- `^[A-Za-z0-9][A-Za-z0-9._-]{0,62}$` -/
def keySyntax (key : String) : Bool :=
  match key.toList with
  | [] => false
  | first :: rest =>
      first.isAlphanum && rest.all nameCharacter && decide (rest.length ≤ 62)

def stripStart (start : String) (text : String) : Option (List Char) :=
  if start.toList.isPrefixOf text.toList then
    some (text.toList.drop start.toList.length)
  else none

/-- `^store://[A-Za-z0-9._-]+@[a-f0-9]{16,64}$` -/
def materialRefSyntax (text : String) : Bool :=
  match stripStart "store://" text with
  | none => false
  | some rest =>
      let name := rest.takeWhile nameCharacter
      match rest.dropWhile nameCharacter with
      | '@' :: version =>
          !name.isEmpty && version.all hexCharacter &&
            decide (16 ≤ version.length ∧ version.length ≤ 64)
      | _ => false

/-- `^sha256:[a-f0-9]{64}$` -/
def digestSyntax (text : String) : Bool :=
  match stripStart "sha256:" text with
  | none => false
  | some rest => rest.all hexCharacter && decide (rest.length = 64)

/-- `^/[A-Za-z0-9._~/%-]*$` -/
def rewriteSyntax (text : String) : Bool :=
  match text.toList with
  | '/' :: rest =>
      rest.all fun character =>
        nameCharacter character || character == '~' || character == '/' ||
          character == '%'
  | _ => false

def integerColumn (number : Nat) : Bool := decide (number < 2147483648)

def portColumn (number : Nat) : Bool := decide (1 ≤ number ∧ number ≤ 65535)

def filled {α : Type} : Option (List α) → Bool
  | none => true
  | some items => !items.isEmpty

/-! ## Constraints of a row -/

/-- The constraints of a row by name; the database reports a broken one.  A
constraint on an absent value is not broken. -/
abbrev Checks := List (String × Bool)

def constraintViolation (constraint : String) : StoreError :=
  { status := 422
    code := "constraint_violation"
    message := s!"DB 제약을 위반한다 ({constraint}) — 그 프로토콜에 없는 필드 조합이다" }

def referenceViolation (constraint : String) : StoreError :=
  { status := 422
    code := "reference_violation"
    message :=
      s!"참조가 성립하지 않는다 ({constraint}) — 대상이 없거나 프로토콜 계열이 어긋난다" }

def enforce (checks : Checks) : Except StoreError Unit :=
  match checks.find? fun check => !check.2 with
  | none => .ok ()
  | some (constraint, _) => .error (constraintViolation constraint)

theorem enforce_eq_ok {checks : Checks} :
    enforce checks = .ok () ↔ ∀ check ∈ checks, check.2 = true := by
  unfold enforce
  cases broken : checks.find? fun check => !check.2 with
  | none =>
      have sound := List.find?_eq_none.mp broken
      simpa using sound
  | some check =>
      have member := List.mem_of_find?_eq_some broken
      have bad := List.find?_some broken
      simp only [reduceCtorEq, false_iff, not_forall]
      exact ⟨check, member, by simpa using bad⟩

def poolChecks (key : String) (row : PoolRow) : Checks :=
  [("pools_key_syntax", keySyntax key),
    ("pool_hash_key_iff", decide (row.algorithm = .hash) == row.hashKey.isSome),
    ("pool_send_pp_tcp_only",
      row.sendProxyProtocol.isNone || decide (row.protocolClass = .tcp)),
    ("pool_healthcheck_http_only",
      row.healthCheck.isNone || decide (row.protocolClass = .http)),
    ("pool_upstream_tls_not_udp",
      row.upstreamTls.isNone || decide (row.protocolClass ≠ .udp))]

def backendChecks (key : String) (row : BackendRow) : Checks :=
  [("backends_key_syntax", keySyntax key),
    ("backends_host_check", decide (row.host ≠ "")),
    ("backends_port_check", portColumn row.port),
    ("backends_weight", integerColumn row.weight)]

def certificateChecks (key : String) (row : CertificateRow) : Checks :=
  [("certificates_key_syntax", keySyntax key),
    ("certificates_material_ref_check", row.materialRef.all materialRefSyntax),
    ("certificates_chain_digest_check", row.chainDigest.all digestSyntax),
    ("certificates_key_digest_check", row.keyDigest.all digestSyntax),
    ("certificate_material_together",
      row.materialRef.isSome == row.chainDigest.isSome &&
        row.chainDigest.isSome == row.keyDigest.isSome),
    ("certificate_acme_together",
      row.acmeAccount.isSome == row.acmeDomains.isSome && filled row.acmeDomains),
    ("certificate_useful", row.materialRef.isSome || row.acmeAccount.isSome)]

def versionRank : TlsVersion → Nat
  | .tls12 => 2
  | .tls13 => 3

/-- `low ≤ high` where both are given. -/
def versionsInOrder (low high : Option TlsVersion) : Bool :=
  match low, high with
  | some low, some high => decide (versionRank low ≤ versionRank high)
  | _, _ => true

def tlsPolicyChecks (key : String) (row : TlsPolicyRow) : Checks :=
  [("tls_policies_key_syntax", keySyntax key),
    ("tls_policy_range", versionsInOrder (some row.minVersion) row.maxVersion)]

def addressSetChecks (key : String) (row : AddressSetRow) : Checks :=
  [("address_sets_key_syntax", keySyntax key),
    ("address_set_nonempty", !row.cidrs.isEmpty),
    ("address_set_source_options", row.sourceOptions.isNone || row.source.isSome)]

def engineChecks (row : EngineSettings) : Checks :=
  [("engine_settings_worker_shutdown_timeout_s_check",
      row.workerShutdownTimeoutS.all fun number =>
        decide (1 ≤ number ∧ number ≤ 86400)),
    ("engine_settings_membership_dict_kb_check",
      row.membershipDictKb.all fun number =>
        decide (64 ≤ number ∧ number ≤ 1048576)),
    ("engine_settings_acme_dict_kb_check",
      row.acmeDictKb.all fun number => decide (32 ≤ number ∧ number ≤ 1048576))]

namespace ListenerProtocol

def httpFamily (protocol : ListenerProtocol) : Bool :=
  decide (protocol = .http) || decide (protocol = .https)

end ListenerProtocol

def PoolRef.isClass (wanted : ProtocolClass) (ref : PoolRef) : Bool :=
  decide (ref.protocolClass = wanted)

def flagColumn : Option Bool → Bool
  | some false => false
  | _ => true

def ListenerRow.noSni (row : ListenerRow) : Bool :=
  row.onUnmatchedSniPool.isNone && row.onUnmatchedSniReject.isNone

def ListenerRow.noHttpDefault (row : ListenerRow) : Bool :=
  row.httpDefaultPool.isNone && row.httpDefaultReject.isNone

def listenerChecks (key : String) (row : ListenerRow) : Checks :=
  let httpOnly := fun present : Bool => !present || row.protocol.httpFamily
  let only := fun (protocol : ListenerProtocol) (present : Bool) =>
    !present || decide (row.protocol = protocol)
  let shape := fun (protocol : ListenerProtocol) (holds : Bool) =>
    decide (row.protocol ≠ protocol) || holds
  [("listeners_key_syntax", keySyntax key),
    ("listeners_bind_check", decide (row.bind ≠ "")),
    ("listeners_port_check", portColumn row.port),
    ("listeners_preread_timeout_s_check",
      row.prereadTimeoutS.all fun number => decide (0 < number) && integerColumn number),
    ("listener_http_shape", shape .http
      (row.udpPreset.isNone && row.defaultPool.isNone && row.noSni &&
        row.prereadTimeoutS.isNone)),
    ("listener_passthrough_shape", shape .tlsPassthrough
      (row.udpPreset.isNone && row.defaultPool.isNone && row.noHttpDefault)),
    ("listener_tcp_shape", shape .tcp
      (row.udpPreset.isNone && row.defaultPool.isSome && row.noHttpDefault &&
        row.noSni && row.prereadTimeoutS.isNone)),
    ("listener_udp_shape", shape .udp
      (row.udpPreset.isSome && row.defaultPool.isSome && row.acceptProxyCidrs.isNone &&
        row.noHttpDefault && row.noSni && row.prereadTimeoutS.isNone)),
    ("listener_https_shape", shape .https
      (row.udpPreset.isNone && row.defaultPool.isNone && row.noSni &&
        row.prereadTimeoutS.isNone && row.tlsPolicy.isSome && row.tlsDefaultCert.isSome)),
    ("listener_tls_only_https",
      only .https (row.tlsPolicy.isSome || row.tlsDefaultCert.isSome)),
    ("listener_default_pool_class", row.defaultPool.all fun ref =>
      (decide (row.protocol = .udp) && ref.isClass .udp) ||
        (decide (row.protocol = .tcp) && ref.isClass .tcp)),
    ("listener_http_pool_class", row.httpDefaultPool.all (PoolRef.isClass .http)),
    ("listener_sni_pool_class", row.onUnmatchedSniPool.all (PoolRef.isClass .tcp)),
    ("listener_no_sni_pool_class", row.onNoSniPool.all (PoolRef.isClass .tcp)),
    ("listener_http_action_xor",
      !(decide (row.httpDefaultReject = some true) && row.httpDefaultPool.isSome)),
    ("listener_sni_action_xor",
      !(decide (row.onUnmatchedSniReject = some true) && row.onUnmatchedSniPool.isSome)),
    ("listener_no_sni_action_xor",
      !(decide (row.onNoSniReject = some true) && row.onNoSniPool.isSome)),
    ("listener_reject_flags",
      flagColumn row.httpDefaultReject && flagColumn row.onUnmatchedSniReject),
    ("listener_no_sni_reject_flag", flagColumn row.onNoSniReject),
    ("listener_no_sni_passthrough_only",
      only .tlsPassthrough (row.onNoSniPool.isSome || row.onNoSniReject.isSome)),
    ("listener_proxy_cidrs_nonempty", filled row.acceptProxyCidrs),
    ("listener_http2_only_https", only .https row.http2.isSome),
    ("listener_proxy_limits_http_only", httpOnly row.proxyLimits.isSome),
    ("listener_header_rules_http_only", httpOnly row.headerRules.isSome),
    ("listener_rate_limit_http_only", httpOnly row.rateLimit.isSome),
    ("listener_strict_priority_http_only", httpOnly row.httpStrictPriority.isSome),
    ("listener_strict_priority_flag", flagColumn row.httpStrictPriority),
    ("listener_real_ip_header_pair",
      row.realIpHeader.isSome == row.realIpHeaderCidrs.isSome &&
        filled row.realIpHeaderCidrs),
    ("listener_real_ip_header_http_only", httpOnly row.realIpHeader.isSome),
    ("listener_real_ip_single_source",
      row.realIpHeader.isNone || row.acceptProxyCidrs.isNone),
    ("listener_source_allow_nonempty", filled row.sourceAllow),
    ("listener_source_allow_stream_proxy",
      row.sourceAllow.isNone || row.acceptProxyCidrs.isNone || row.protocol.httpFamily),
    ("listener_hosts_nonempty", filled row.hosts),
    ("listener_hosts_http_only", httpOnly row.hosts.isSome),
    ("listener_http_redirect_port_range", row.httpRedirectPort.all portColumn),
    ("listener_http_redirect_https_only", only .https row.httpRedirectPort.isSome)]

def httpRouteChecks (key : String) (row : HttpRouteRow) : Checks :=
  let shape := fun (kind : ActionKind) (holds : Bool) =>
    decide (row.actionKind ≠ kind) || holds
  [("http_routes_key_syntax", keySyntax key),
    ("http_routes_priority", integerColumn row.priority),
    ("http_route_listener_is_http", row.listener.protocol.httpFamily),
    ("http_route_pool_is_http", row.pool.all (PoolRef.isClass .http)),
    ("http_route_proxy_shape", shape .proxy
      (row.pool.isSome && row.websocket.isSome && row.redirectTo.isNone &&
        row.status.isNone)),
    ("http_route_redirect_shape", shape .redirect
      (row.redirectTo.isSome && row.status.all (· ∈ [301, 302, 307, 308]) &&
        row.pool.isNone && row.websocket.isNone)),
    ("http_route_reject_shape", shape .reject
      (row.status.all (· ∈ [403, 404, 444]) && row.pool.isNone &&
        row.websocket.isNone && row.redirectTo.isNone)),
    ("http_route_proxy_options_proxy_only",
      decide (row.actionKind = .proxy) ||
        (row.requestHeaders.isNone && row.rewritePrefix.isNone)),
    ("http_route_rewrite_prefix_shape", row.rewritePrefix.all rewriteSyntax),
    ("http_route_path_one_or_many", row.pathPrefixes.isNone || row.pathPrefix.isNone),
    ("http_route_path_prefixes_nonempty", filled row.pathPrefixes),
    ("http_route_source_rules_array", row.sourceRules.all fun rules =>
      decide (1 ≤ rules.length ∧ rules.length ≤ 20))]

def passthroughRouteChecks (key : String) (row : PassthroughRouteRow) : Checks :=
  [("passthrough_routes_key_syntax", keySyntax key),
    ("passthrough_routes_priority", integerColumn row.priority),
    ("pt_route_listener_is_pt", decide (row.listener.protocol = .tlsPassthrough)),
    ("pt_route_pool_is_tcp", row.pool.all (PoolRef.isClass .tcp)),
    ("pt_route_proxy_shape", decide (row.actionKind = .proxy) == row.pool.isSome)]

def sniBindingChecks (key : String) (row : SniBindingRow) : Checks :=
  [("sni_certificate_bindings_key_syntax", keySyntax key),
    ("sni_certificate_bindings_hosts_check", !row.hosts.isEmpty),
    ("sni_binding_is_https", decide (row.listener.protocol = .https)),
    ("sni_binding_range", versionsInOrder row.ovrMinVersion row.ovrMaxVersion)]

end Store

end Barycenter
