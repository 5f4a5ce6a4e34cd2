import Barycenter.Store.RowFits

/-!
# Which listeners keep to their rows

A listener refers to pools, and over TLS to a policy and a certificate.  The
constraints decide the class of every pool it refers to, so the row of a
listener is fixed once its references stand, and the rest is about its own
columns.
-/

namespace Barycenter

namespace Store

open Config

/-! ## Outcomes -/

/-- The reference of an outcome when the constraints hold. -/
def classRef (protocolClass : ProtocolClass) (outcome : Option SniOutcome) : Option PoolRef :=
  (outcomePool outcome).map fun key => { key := key, protocolClass := protocolClass }

variable {protocolClass : ProtocolClass} {outcome : Option SniOutcome}

theorem classRef_isClass {ref : PoolRef} (refers : classRef protocolClass outcome = some ref) :
    ref.protocolClass = protocolClass := by
  obtain ⟨key, _, rfl⟩ := Option.map_eq_some_iff.mp refers
  rfl

theorem classRef_of_reject (rejects : outcomeReject outcome = some true) :
    classRef protocolClass outcome = none := by
  match outcome with
  | none | some .reject => rfl
  | some (.pool key) => simp [outcomeReject] at rejects

@[simp]
theorem flagColumn_none : flagColumn none = true := rfl

@[simp]
theorem flagColumn_outcomeReject (outcome : Option SniOutcome) :
    flagColumn (outcomeReject outcome) = true := by
  match outcome with
  | none | some .reject | some (.pool key) => rfl

@[simp]
theorem flagColumn_switched (switched : Prop) [Decidable switched] :
    flagColumn (if switched then some true else none) = true := by
  split <;> rfl

@[simp]
theorem outcomeOf_columns (protocolClass : ProtocolClass) (outcome : Option SniOutcome) :
    outcomeOf (classRef protocolClass outcome) (outcomeReject outcome) = outcome := by
  match outcome with
  | none | some .reject | some (.pool key) => rfl

theorem optionalPoolRef_ok {tables : Tables} {model : Model} {subject : String}
    {ref : Option PoolRef} (pools : poolFamily.Holds {} model.pools tables.pools) :
    (optionalPoolRef tables (outcomePool outcome) subject = .ok ref ∧
        ∀ pool, ref = some pool → pool.protocolClass = protocolClass) ↔
      OutcomeFits model protocolClass outcome ∧ ref = classRef protocolClass outcome := by
  match outcome with
  | none | some .reject =>
      simp only [outcomePool, optionalPoolRef, Except.ok.injEq, OutcomeFits, true_and,
        classRef, Option.map_none]
      constructor
      · rintro ⟨rfl, _⟩
        rfl
      · rintro rfl
        exact ⟨rfl, by simp⟩
  | some (.pool key) =>
      simp only [outcomePool, optionalPoolRef, OutcomeFits, classRef, Option.map_some,
        Outcome.map_ok, poolRef_ok pools]
      constructor
      · rintro ⟨⟨pool, ⟨rfl, stands⟩, rfl⟩, classed⟩
        obtain rfl := classed pool rfl
        exact ⟨stands, rfl⟩
      · rintro ⟨stands, rfl⟩
        refine ⟨⟨_, ⟨rfl, stands⟩, rfl⟩, ?_⟩
        rintro pool same
        rw [← Option.some.inj same]

theorem optionalPoolRef_resolves {tables : Tables} {model : Model} {subject : String}
    (pools : poolFamily.Holds {} model.pools tables.pools)
    (stands : OutcomeFits model protocolClass outcome) :
    optionalPoolRef tables (outcomePool outcome) subject =
      .ok (classRef protocolClass outcome) :=
  ((optionalPoolRef_ok pools).mpr ⟨stands, rfl⟩).1

/-! ## Trusted addresses and profiles -/

theorem trusted_ne_empty {accept : Option InboundProxyProtocol} :
    trusted accept ≠ some [] ↔ TrustFits accept := by
  cases accept <;> simp [trusted, TrustFits]

@[simp]
theorem trusted_eq_none {accept : Option InboundProxyProtocol} :
    trusted accept = none ↔ accept = none := by
  simp [trusted]

variable {row : ListenerRow}

theorem acceptOf_trusted {accept : Option InboundProxyProtocol}
    (column : row.acceptProxyCidrs = trusted accept) :
    acceptOf row = accept ↔ TrustFits accept := by
  unfold acceptOf
  rw [column]
  match accept with
  | none | some ⟨[]⟩ | some ⟨_ :: _⟩ => simp [trusted, TrustFits, listColumn]

theorem realIpOf_columns {realIp : Option InboundRealIpHeader}
    (header : row.realIpHeader = realIp.map InboundRealIpHeader.header)
    (cidrs : row.realIpHeaderCidrs = realIp.map InboundRealIpHeader.trustedCidrs) :
    realIpOf row = realIp ↔ ∀ header ∈ realIp, header.trustedCidrs ≠ [] := by
  unfold realIpOf
  rw [header, cidrs]
  match realIp with
  | none => simp
  | some ⟨_, []⟩ | some ⟨_, _ :: _⟩ => simp [listColumn, Option.filter]

theorem httpProfileOf_columns {profile : Option HttpProfile}
    (action : outcomeOf row.httpDefaultPool row.httpDefaultReject =
      profile.bind HttpProfile.defaultAction)
    (limits : row.proxyLimits = profile.bind HttpProfile.limits)
    (headers : row.headerRules = profile.bind HttpProfile.headers)
    (rateLimit : row.rateLimit = profile.bind HttpProfile.rateLimit)
    (priority : row.httpStrictPriority =
      if profile.bind HttpProfile.strictPriority = some true then some true else none) :
    httpProfileOf row = profile ↔ ProfileFits profile := by
  simp only [httpProfileOf, action, limits, headers, rateLimit, priority]
  cases profile with
  | none => simp [ProfileFits]
  | some fields =>
      obtain ⟨defaultAction, limits, headers, rateLimit, strictPriority⟩ := fields
      simp only [Option.bind_some, ProfileFits, Option.mem_def, Option.some.injEq]
      match strictPriority with
      | none | some true | some false => simp

/-! ## Listeners -/

def standingRow (listener : Listener) : ListenerRow :=
  match listener.body with
  | .http body =>
      { withRealIp (withProfile (baseRow listener .http) body.http) body.realIpFromHeader with
        acceptProxyCidrs := trusted body.acceptProxyProtocol
        httpDefaultPool := classRef .http (body.http.bind HttpProfile.defaultAction)
        hosts := body.hosts }
  | .https body =>
      { withRealIp (withProfile (baseRow listener .https) body.http) body.realIpFromHeader with
        acceptProxyCidrs := trusted body.acceptProxyProtocol
        httpDefaultPool := classRef .http (body.http.bind HttpProfile.defaultAction)
        tlsPolicy := some body.tls.policy
        tlsDefaultCert := some body.tls.defaultCertificate
        http2 := body.http2
        hosts := body.hosts
        httpRedirectPort := body.httpRedirect }
  | .tlsPassthrough body =>
      { baseRow listener .tlsPassthrough with
        acceptProxyCidrs := trusted body.acceptProxyProtocol
        onUnmatchedSniPool := classRef .tcp body.onUnmatchedSni
        onUnmatchedSniReject := outcomeReject body.onUnmatchedSni
        onNoSniPool := classRef .tcp body.onNoSni
        onNoSniReject := outcomeReject body.onNoSni
        prereadTimeoutS := body.prereadTimeoutS }
  | .tcp body =>
      { baseRow listener .tcp with
        acceptProxyCidrs := trusted body.acceptProxyProtocol
        defaultPool := some { key := body.defaultPool, protocolClass := .tcp } }
  | .udp body =>
      { baseRow listener .udp with
        udpPreset := some body.preset
        defaultPool := some { key := body.defaultPool, protocolClass := .udp } }

theorem standingRow_protocol (listener : Listener) :
    (standingRow listener).protocol = protocolOf listener.body := by
  unfold standingRow
  cases listener.body <;> rfl

theorem none_or_iff {α β : Type} {left : Option α} {right : Option β} :
    (left = none ∨ right = none) ↔ (left.isSome → right = none) := by
  cases left <;> simp

variable {listener : Listener}

/-- The constraints and the reading together ask of the columns of a listener
exactly what fits. -/
theorem standingRow_fits :
    ((∀ check ∈ listenerChecks listener.key (standingRow listener), check.2 = true) ∧
        listenerOf listener.key (standingRow listener) = listener) ↔
      ListenerColumnsFit listener := by
  -- The constraints become propositions before the row is computed.
  simp only [listenerChecks, List.forall_mem_cons, List.not_mem_nil, false_implies,
    implies_true, and_true, Bool.or_eq_true, Bool.and_eq_true, Bool.not_eq_true',
    decide_eq_true_eq, Option.isSome_eq_false_iff, Option.isNone_iff_eq_none, portColumn,
    filled_iff, ListenerRow.noSni, ListenerRow.noHttpDefault, beq_iff_eq,
    ListenerProtocol.httpFamily, Bool.or_eq_false_iff, Bool.and_eq_false_imp,
    integerColumn, Option.all_eq_true, PoolRef.isClass]
  obtain ⟨key, bind, port, enabled, sourceAllow, body⟩ := listener
  cases body with
  | http body =>
      obtain ⟨accept, realIp, profile, hosts⟩ := body
      let row := standingRow
        ⟨key, bind, port, enabled, sourceAllow, .http ⟨accept, realIp, profile, hosts⟩⟩
      have classed := @classRef_isClass .http (profile.bind HttpProfile.defaultAction)
      have rejected := @classRef_of_reject .http (profile.bind HttpProfile.defaultAction)
      have accepts := @acceptOf_trusted row accept rfl
      have reals := @realIpOf_columns row realIp rfl rfl
      have profiles :=
        @httpProfileOf_columns row profile (outcomeOf_columns _ _) rfl rfl rfl rfl
      simp [row, standingRow, withRealIp, withProfile, baseRow, ListenerColumnsFit,
        BodyColumnsFit, HttpColumnsFit, trusted_ne_empty, listenerOf, listenerBodyOf,
        none_or_iff] at accepts reals profiles ⊢
      tauto
  | https body =>
      obtain ⟨accept, realIp, profile, hosts, tls, http2, redirect⟩ := body
      let row := standingRow
        ⟨key, bind, port, enabled, sourceAllow,
          .https ⟨accept, realIp, profile, hosts, tls, http2, redirect⟩⟩
      have classed := @classRef_isClass .http (profile.bind HttpProfile.defaultAction)
      have rejected := @classRef_of_reject .http (profile.bind HttpProfile.defaultAction)
      have accepts := @acceptOf_trusted row accept rfl
      have reals := @realIpOf_columns row realIp rfl rfl
      have profiles :=
        @httpProfileOf_columns row profile (outcomeOf_columns _ _) rfl rfl rfl rfl
      simp [row, standingRow, withRealIp, withProfile, baseRow, ListenerColumnsFit,
        BodyColumnsFit, HttpColumnsFit, trusted_ne_empty, listenerOf, listenerBodyOf,
        none_or_iff] at accepts reals profiles ⊢
      tauto
  | tlsPassthrough body =>
      obtain ⟨accept, unmatched, absent, seconds⟩ := body
      let row := standingRow
        ⟨key, bind, port, enabled, sourceAllow,
          .tlsPassthrough ⟨accept, unmatched, absent, seconds⟩⟩
      have unmatchedClassed := @classRef_isClass .tcp unmatched
      have unmatchedRejected := @classRef_of_reject .tcp unmatched
      have absentClassed := @classRef_isClass .tcp absent
      have absentRejected := @classRef_of_reject .tcp absent
      have accepts := @acceptOf_trusted row accept rfl
      simp [row, standingRow, baseRow, ListenerColumnsFit, BodyColumnsFit,
        trusted_ne_empty, listenerOf, listenerBodyOf, none_or_iff] at accepts ⊢
      tauto
  | tcp body =>
      obtain ⟨pool, accept⟩ := body
      let row := standingRow ⟨key, bind, port, enabled, sourceAllow, .tcp ⟨pool, accept⟩⟩
      have accepts := @acceptOf_trusted row accept rfl
      simp [row, standingRow, baseRow, ListenerColumnsFit, BodyColumnsFit,
        trusted_ne_empty, listenerOf, listenerBodyOf, none_or_iff] at accepts ⊢
      tauto
  | udp body =>
      simp [standingRow, baseRow, ListenerColumnsFit, BodyColumnsFit, listenerOf,
        listenerBodyOf]

theorem pool_classes {key : String} (allowed : ∀ check ∈ listenerChecks key row, check.2 = true) :
    (∀ pool, row.httpDefaultPool = some pool → pool.protocolClass = .http) ∧
      (∀ pool, row.onUnmatchedSniPool = some pool → pool.protocolClass = .tcp) ∧
      (∀ pool, row.onNoSniPool = some pool → pool.protocolClass = .tcp) ∧
      ∀ pool, row.defaultPool = some pool →
        (row.protocol = .udp ∧ pool.protocolClass = .udp) ∨
          (row.protocol = .tcp ∧ pool.protocolClass = .tcp) := by
  have httpClass := allowed
    ("listener_http_pool_class", row.httpDefaultPool.all (PoolRef.isClass .http))
    (by simp [listenerChecks])
  have unmatchedClass := allowed
    ("listener_sni_pool_class", row.onUnmatchedSniPool.all (PoolRef.isClass .tcp))
    (by simp [listenerChecks])
  have absentClass := allowed
    ("listener_no_sni_pool_class", row.onNoSniPool.all (PoolRef.isClass .tcp))
    (by simp [listenerChecks])
  have defaultClass := allowed
    ("listener_default_pool_class", row.defaultPool.all fun ref =>
      (decide (row.protocol = .udp) && ref.isClass .udp) ||
        (decide (row.protocol = .tcp) && ref.isClass .tcp))
    (by simp [listenerChecks])
  simp only [Option.all_eq_true, PoolRef.isClass, decide_eq_true_eq, Bool.or_eq_true,
    Bool.and_eq_true] at httpClass unmatchedClass absentClass defaultClass
  exact ⟨httpClass, unmatchedClass, absentClass, defaultClass⟩

section References

variable {tables : Tables} {model : Model}

theorem listenerRow_stands (pools : poolFamily.Holds {} model.pools tables.pools)
    (policies : tlsPolicyFamily.Holds {} model.tlsPolicies tables.tlsPolicies)
    (certificates : certificateFamily.Holds {} model.certificates tables.certificates) :
    (listenerRow tables listener = .ok row ∧
        ∀ check ∈ listenerChecks listener.key row, check.2 = true) ↔
      (BodyRefersFit model listener.body ∧
          ∀ check ∈ listenerChecks listener.key (standingRow listener), check.2 = true) ∧
        standingRow listener = row := by
  have policyRefers (key : String) :=
    @Family.Holds.isSome _ _ tlsPolicyFamily {} _ _ key policies fun policy => ⟨_, rfl⟩
  have certificateRefers (key : String) :=
    @Family.Holds.isSome _ _ certificateFamily {} _ _ key certificates fun item => ⟨_, rfl⟩
  obtain ⟨key, bind, port, enabled, sourceAllow, body⟩ := listener
  cases body with
  | http body =>
      simp only [listenerRow, Outcome.bind_ok, pure, Except.pure, Except.ok.injEq]
      constructor
      · rintro ⟨⟨pool, resolved, rfl⟩, allowed⟩
        obtain ⟨stands, rfl⟩ :=
          (optionalPoolRef_ok pools).mp ⟨resolved, (pool_classes allowed).1⟩
        exact ⟨⟨stands, allowed⟩, rfl⟩
      · rintro ⟨⟨stands, allowed⟩, rfl⟩
        exact ⟨⟨_, optionalPoolRef_resolves pools stands, rfl⟩, allowed⟩
  | https body =>
      simp only [listenerRow, Outcome.bind_ok, idOf_ok, pure, Except.pure, Except.ok.injEq]
      constructor
      · rintro ⟨⟨pool, resolved, _, ⟨policy, rfl⟩, _, ⟨certificate, rfl⟩, rfl⟩, allowed⟩
        obtain ⟨stands, rfl⟩ :=
          (optionalPoolRef_ok pools).mp ⟨resolved, (pool_classes allowed).1⟩
        exact ⟨⟨⟨stands, (policyRefers _).mp policy, (certificateRefers _).mp certificate⟩,
          allowed⟩, rfl⟩
      · rintro ⟨⟨⟨stands, policy, certificate⟩, allowed⟩, rfl⟩
        exact ⟨⟨_, optionalPoolRef_resolves pools stands, _,
          ⟨(policyRefers _).mpr policy, rfl⟩, _,
          ⟨(certificateRefers _).mpr certificate, rfl⟩, rfl⟩, allowed⟩
  | tlsPassthrough body =>
      simp only [listenerRow, Outcome.bind_ok, pure, Except.pure, Except.ok.injEq]
      constructor
      · rintro ⟨⟨unmatched, unmatchedResolved, absent, absentResolved, rfl⟩, allowed⟩
        obtain ⟨unmatchedStands, rfl⟩ := (optionalPoolRef_ok pools).mp
          ⟨unmatchedResolved, (pool_classes allowed).2.1⟩
        obtain ⟨absentStands, rfl⟩ := (optionalPoolRef_ok pools).mp
          ⟨absentResolved, (pool_classes allowed).2.2.1⟩
        exact ⟨⟨⟨unmatchedStands, absentStands⟩, allowed⟩, rfl⟩
      · rintro ⟨⟨⟨unmatchedStands, absentStands⟩, allowed⟩, rfl⟩
        exact ⟨⟨_, optionalPoolRef_resolves pools unmatchedStands, _,
          optionalPoolRef_resolves pools absentStands, rfl⟩, allowed⟩
  | tcp body =>
      simp only [listenerRow, Outcome.bind_ok, poolRef_ok pools, pure, Except.pure,
        Except.ok.injEq]
      constructor
      · rintro ⟨⟨⟨_, _⟩, ⟨rfl, stands⟩, rfl⟩, allowed⟩
        obtain ⟨wrong, _⟩ | ⟨_, rfl⟩ := (pool_classes allowed).2.2.2 _ rfl
        · cases wrong
        · exact ⟨⟨stands, allowed⟩, rfl⟩
      · rintro ⟨⟨stands, allowed⟩, rfl⟩
        exact ⟨⟨⟨_, .tcp⟩, ⟨rfl, stands⟩, rfl⟩, allowed⟩
  | udp body =>
      simp only [listenerRow, Outcome.bind_ok, poolRef_ok pools, pure, Except.pure,
        Except.ok.injEq]
      constructor
      · rintro ⟨⟨⟨_, _⟩, ⟨rfl, stands⟩, rfl⟩, allowed⟩
        obtain ⟨_, rfl⟩ | ⟨wrong, _⟩ := (pool_classes allowed).2.2.2 _ rfl
        · exact ⟨⟨stands, allowed⟩, rfl⟩
        · cases wrong
      · rintro ⟨⟨stands, allowed⟩, rfl⟩
        exact ⟨⟨⟨_, .udp⟩, ⟨rfl, stands⟩, rfl⟩, allowed⟩

theorem listener_keeps (pools : poolFamily.Holds {} model.pools tables.pools)
    (policies : tlsPolicyFamily.Holds {} model.tlsPolicies tables.tlsPolicies)
    (certificates : certificateFamily.Holds {} model.certificates tables.certificates) :
    listenerFamily.Keeps tables listener ↔ ListenerFits model listener := by
  have stores (row : ListenerRow) :
      listenerFamily.Stores tables listener row ↔ _ :=
    listenerRow_stands pools policies certificates
  simp only [Family.Keeps, stores, ListenerFits, ← standingRow_fits]
  constructor
  · rintro ⟨_, ⟨⟨refers, allowed⟩, rfl⟩, same⟩
    exact ⟨refers, allowed, same⟩
  · rintro ⟨refers, allowed, same⟩
    exact ⟨_, ⟨⟨refers, allowed⟩, rfl⟩, same⟩

end References

end Store

end Barycenter
