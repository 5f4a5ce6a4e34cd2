import Barycenter.Cli.ResourceEdits
import Barycenter.Store.ResourcePuts

/-!
# The revision that an edited resource makes

A listener that is read from its row and spread over a row again is the same
listener, and its hosts are a column of their own.  So a put of a resource that
agrees with the one in the tables, the edited field apart, makes a model that
differs in that field only.
-/

namespace Barycenter

namespace OrderedMap

variable {κ α : Type} [DecidableEq κ]

theorem entries_set_stored {map : OrderedMap κ α} {key : κ} {old value : α}
    (stored : map.get? key = some old) :
    (map.set key value).entries =
      map.entries.map fun entry => if entry.1 = key then (key, value) else entry := by
  suffices listed : ∀ entries : List (κ × α), (entries.map Prod.fst).Nodup →
      key ∈ entries.map Prod.fst →
      overwrite entries key value =
        entries.map fun entry => if entry.1 = key then (key, value) else entry from
    listed map.entries map.distinct
      (List.mem_map_of_mem (mem_entries_iff.mpr stored))
  intro entries distinct member
  induction entries with
  | nil => cases member
  | cons entry rest induction =>
      obtain ⟨first, present⟩ := entry
      obtain ⟨fresh, restDistinct⟩ := List.nodup_cons.mp distinct
      by_cases same : first = key
      · subst same
        have others : rest.map (fun entry => if entry.1 = first then (first, value) else entry) =
            rest := by
          refine (List.map_congr_left fun entry among => if_neg fun again => ?_).trans
            (List.map_id' rest)
          have listed : entry.1 ∈ rest.map Prod.fst := List.mem_map_of_mem among
          exact fresh (again ▸ listed)
        simp only [overwrite, if_true, List.map_cons, others]
      · have later : key ∈ rest.map Prod.fst := by
          rcases List.mem_cons.mp member with here | later
          · exact absurd here.symm same
          · exact later
        simp only [overwrite, if_neg same, List.map_cons, induction restDistinct later]

end OrderedMap

namespace Store

open Config

theorem resourcesOf_set {collation : Collation} {α β : Type} {resourceOf : String → α → β}
    {keyOf : β → String} (keyed : ∀ key row, keyOf (resourceOf key row) = key)
    {table : OrderedMap String α} {key : String} {old row : α}
    (stored : table.get? key = some old) :
    resourcesOf collation resourceOf (table.set key row) =
      (resourcesOf collation resourceOf table).map fun item =>
        if keyOf item = key then resourceOf key row else item := by
  have sorted : collation.inOrder (table.set key row) =
      (collation.inOrder table).map fun entry =>
        if entry.1 = key then (key, row) else entry := by
    rw [Collation.inOrder, OrderedMap.entries_set_stored stored, Collation.inOrder]
    symm
    refine List.map_mergeSort fun left _ right _ => ?_
    have kept (entry : String × α) :
        (if entry.1 = key then (key, row) else entry).1 = entry.1 := by
      split
      · next same => exact same.symm
      · rfl
    rw [kept, kept]
  simp only [resourcesOf, sorted, List.map_map]
  refine List.map_congr_left fun entry _ => ?_
  simp only [Function.comp_apply, keyed]
  split <;> rfl

/-! ## Listeners as they are read -/

theorem listColumn_listColumn {α : Type} (items : Option (List α)) :
    listColumn (listColumn items) = listColumn items := by
  match items with
  | none | some [] | some (_ :: _) => rfl

theorem profileFits_httpProfileOf (row : ListenerRow) : ProfileFits (httpProfileOf row) := by
  have strict : (if row.httpStrictPriority = some true then some true else none) ≠
      some false := by
    split <;> simp
  simp only [httpProfileOf]
  generalize (if row.httpStrictPriority = some true then some true else none) = priority at strict ⊢
  split
  · exact ⟨(fun same => by cases same), fun _ member => by cases member⟩
  · next filled =>
      refine ⟨fun same => filled (Option.some.inj same), ?_⟩
      intro fields member
      obtain rfl := Option.mem_some_iff.mp member
      exact strict

theorem httpProfileOf_again {row again : ListenerRow}
    (action : outcomeOf again.httpDefaultPool again.httpDefaultReject =
      (httpProfileOf row).bind HttpProfile.defaultAction)
    (limits : again.proxyLimits = (httpProfileOf row).bind HttpProfile.limits)
    (headers : again.headerRules = (httpProfileOf row).bind HttpProfile.headers)
    (rateLimit : again.rateLimit = (httpProfileOf row).bind HttpProfile.rateLimit)
    (priority : again.httpStrictPriority =
      if (httpProfileOf row).bind HttpProfile.strictPriority = some true then some true else none) :
    httpProfileOf again = httpProfileOf row :=
  (httpProfileOf_columns action limits headers rateLimit priority).mpr
    (profileFits_httpProfileOf row)

theorem trustFits_acceptOf (row : ListenerRow) : TrustFits (acceptOf row) := by
  unfold acceptOf
  match row.acceptProxyCidrs with
  | none | some [] | some (_ :: _) => simp [listColumn, TrustFits]

theorem realIpOf_filled (row : ListenerRow) : ∀ header ∈ realIpOf row, header.trustedCidrs ≠ [] := by
  unfold realIpOf
  match row.realIpHeader, row.realIpHeaderCidrs with
  | none, _ => simp
  | some _, none | some _, some [] => simp [listColumn]
  | some _, some (_ :: _) => simp [listColumn, Option.filter]

theorem listenerBodyOf_standingRow (key : String) (row : ListenerRow) :
    listenerBodyOf (standingRow (listenerOf key row)) = listenerBodyOf row := by
  let again := standingRow (listenerOf key row)
  have accepts (trusts : again.acceptProxyCidrs = trusted (acceptOf row)) :
      acceptOf again = acceptOf row :=
    (acceptOf_trusted trusts).mpr (trustFits_acceptOf row)
  have reals (header : again.realIpHeader = (realIpOf row).map InboundRealIpHeader.header)
      (cidrs : again.realIpHeaderCidrs = (realIpOf row).map InboundRealIpHeader.trustedCidrs) :
      realIpOf again = realIpOf row :=
    (realIpOf_columns header cidrs).mpr (realIpOf_filled row)
  have named : again.protocol = protocolOf (listenerBodyOf row) := standingRow_protocol _
  rw [protocolOf_listenerBodyOf] at named
  change listenerBodyOf again = listenerBodyOf row
  cases protocol : row.protocol with
  | http =>
      have body : again = standingRow
          { listenerOf key row with
            body := .http
              { acceptProxyProtocol := acceptOf row
                realIpFromHeader := realIpOf row
                http := httpProfileOf row
                hosts := listColumn row.hosts } } := by
        simp only [again, listenerOf, listenerBodyOf, protocol]
      have profiles : httpProfileOf again = httpProfileOf row := by
        refine httpProfileOf_again ?_ ?_ ?_ ?_ ?_ <;>
          simp [body, standingRow, withRealIp, withProfile]
      have trusts := accepts (by simp [body, standingRow])
      have addresses := reals (by simp [body, standingRow, withRealIp])
        (by simp [body, standingRow, withRealIp])
      have hosts : again.hosts = listColumn row.hosts := by simp [body, standingRow]
      simp only [listenerBodyOf, named, protocol, trusts, addresses, profiles, hosts,
        listColumn_listColumn]
  | https =>
      have body : again = standingRow
          { listenerOf key row with
            body := .https
              { acceptProxyProtocol := acceptOf row
                realIpFromHeader := realIpOf row
                http := httpProfileOf row
                hosts := listColumn row.hosts
                tls :=
                  { policy := row.tlsPolicy.getD "null"
                    defaultCertificate := row.tlsDefaultCert.getD "null" }
                http2 := row.http2
                httpRedirect := row.httpRedirectPort } } := by
        simp only [again, listenerOf, listenerBodyOf, protocol]
      have profiles : httpProfileOf again = httpProfileOf row := by
        refine httpProfileOf_again ?_ ?_ ?_ ?_ ?_ <;>
          simp [body, standingRow, withRealIp, withProfile]
      have trusts := accepts (by simp [body, standingRow])
      have addresses := reals (by simp [body, standingRow, withRealIp])
        (by simp [body, standingRow, withRealIp])
      have hosts : again.hosts = listColumn row.hosts := by simp [body, standingRow]
      have tls : again.tlsPolicy = some (row.tlsPolicy.getD "null") ∧
          again.tlsDefaultCert = some (row.tlsDefaultCert.getD "null") ∧
          again.http2 = row.http2 ∧ again.httpRedirectPort = row.httpRedirectPort := by
        simp [body, standingRow]
      obtain ⟨policy, certificate, http2, redirect⟩ := tls
      simp only [listenerBodyOf, named, protocol, trusts, addresses, profiles, hosts, policy,
        certificate, http2, redirect, listColumn_listColumn, Option.getD_some]
  | tlsPassthrough =>
      have body : again = standingRow
          { listenerOf key row with
            body := .tlsPassthrough
              { acceptProxyProtocol := acceptOf row
                onUnmatchedSni := outcomeOf row.onUnmatchedSniPool row.onUnmatchedSniReject
                onNoSni := outcomeOf row.onNoSniPool row.onNoSniReject
                prereadTimeoutS := row.prereadTimeoutS } } := by
        simp only [again, listenerOf, listenerBodyOf, protocol]
      have trusts := accepts (by simp [body, standingRow])
      simp only [listenerBodyOf, named, protocol, trusts]
      simp [body, standingRow]
  | tcp =>
      have body : again = standingRow
          { listenerOf key row with
            body := .tcp
              { defaultPool := (row.defaultPool.map PoolRef.key).getD "null"
                acceptProxyProtocol := acceptOf row } } := by
        simp only [again, listenerOf, listenerBodyOf, protocol]
      have trusts := accepts (by simp [body, standingRow])
      simp only [listenerBodyOf, named, protocol, trusts]
      simp [body, standingRow]
  | udp =>
      have body : again = standingRow
          { listenerOf key row with
            body := .udp
              { defaultPool := (row.defaultPool.map PoolRef.key).getD "null"
                preset := row.udpPreset.getD .dns } } := by
        simp only [again, listenerOf, listenerBodyOf, protocol]
      simp only [listenerBodyOf, named, protocol]
      simp [body, standingRow]

theorem listenerOf_standingRow (key : String) (row : ListenerRow) :
    listenerOf key (standingRow (listenerOf key row)) = listenerOf key row := by
  have shared (listener : Listener) :
      (standingRow listener).bind = listener.bind ∧
        (standingRow listener).port = listener.port ∧
        (standingRow listener).enabled = listener.enabled ∧
        (standingRow listener).sourceAllow = listener.sourceAllow := by
    obtain ⟨key, bind, port, enabled, sourceAllow, body⟩ := listener
    cases body <;> exact ⟨rfl, rfl, rfl, rfl⟩
  obtain ⟨bind, port, enabled, sources⟩ := shared (listenerOf key row)
  have body := listenerBodyOf_standingRow key row
  generalize standingRow (listenerOf key row) = again at bind port enabled sources body ⊢
  simp only [listenerOf, bind, port, enabled, sources, body, listColumn_listColumn]

end Store

namespace Cli

open Config Store

theorem listColumn_listField {α : Type} (items : List α) :
    listColumn (listField items) = listField items := by
  cases items <;> simp [listField, listColumn, Option.filter]

theorem listenerOf_withHosts (hosts : List String) (listener : Listener) :
    listenerOf listener.key (standingRow (withHosts hosts listener)) =
      withHosts hosts (listenerOf listener.key (standingRow listener)) := by
  obtain ⟨key, bind, port, enabled, sourceAllow, body⟩ := listener
  cases body <;>
    simp [withHosts, standingRow, listenerOf, listenerBodyOf, listColumn_listField, baseRow,
      withRealIp, withProfile, acceptOf, realIpOf, httpProfileOf]

/-! ## Puts of edited resources -/

section Puts

variable {collation : Collation} {tables applied : Tables}

theorem key_withHosts (hosts : List String) (listener : Listener) :
    (withHosts hosts listener).key = listener.key := by
  obtain ⟨key, bind, port, enabled, sourceAllow, body⟩ := listener
  cases body <;> rfl

theorem readModel_putListener (kept : RowsKept tables) {name : String} {hosts : List String}
    {row : ListenerRow} (stored : tables.listeners.get? name = some row)
    (done : putListener tables (withHosts hosts (listenerOf name row)) = .ok applied) :
    readModel collation applied =
      editedModel (.hosts name hosts) (readModel collation tables) := by
  simp only [putListener, Outcome.bind_ok, pure, Except.pure, Except.ok.injEq] at done
  obtain ⟨spread, resolved, _, allowed, _, _, rfl⟩ := done
  obtain ⟨_, rfl⟩ := (listenerRow_stands poolsHeld policiesHeld (certificatesHeld kept)).mp
    ⟨resolved, enforce_eq_ok.mp allowed⟩
  have named : (withHosts hosts (listenerOf name row)).key = name := key_withHosts _ _
  have back : listenerOf name (standingRow (withHosts hosts (listenerOf name row))) =
      withHosts hosts (listenerOf name row) :=
    (listenerOf_withHosts hosts (listenerOf name row)).trans
      (congrArg (withHosts hosts) (listenerOf_standingRow name row))
  have replaced := @resourcesOf_set collation _ _ listenerOf Listener.key (fun _ _ => rfl) _ _ _
    (standingRow (withHosts hosts (listenerOf name row))) stored
  rw [back] at replaced
  simp only [readModel, editedModel, named, replaced]
  congr 1
  refine List.map_congr_left fun listener member => ?_
  split
  · next same =>
      obtain ⟨key, other, found, rfl⟩ := mem_resourcesOf.mp member
      obtain rfl : key = name := same
      cases found.symm.trans stored
      rfl
  · rfl

theorem readModel_putPool {name : String} {form : DiscoveryForm} {row : PoolRow}
    {discovery : Option PoolDiscovery} (given : discoveryOf form = .ok discovery)
    (stored : tables.pools.get? name = some row)
    (done : putPool tables (withDiscovery discovery (poolOf name row)) = .ok applied) :
    readModel collation applied =
      editedModel (.discovery name form) (readModel collation tables) := by
  simp only [putPool, Outcome.bind_ok, pure, Except.pure, Except.ok.injEq] at done
  obtain ⟨_, _, _, _, rfl⟩ := done
  have asked : (discoveryOf form).toOption.join = discovery := by
    rw [given]
    rfl
  have replaced := @resourcesOf_set collation _ _ poolOf Pool.key (fun _ _ => rfl) _ _ _
    (poolRow (withDiscovery discovery (poolOf name row))) stored
  have named : (withDiscovery discovery (poolOf name row)).key = name := rfl
  simp only [readModel, editedModel, named, replaced, asked]
  congr 1
  refine List.map_congr_left fun pool member => ?_
  split
  · next same =>
      obtain ⟨key, other, found, rfl⟩ := mem_resourcesOf.mp member
      obtain rfl : key = name := same
      cases found.symm.trans stored
      rfl
  · rfl

end Puts

/-! ## The patch of a request -/

theorem listenerUpdatePatch_ok {current : Listener} {hosts : List String} {patch : List PatchOp}
    (made : listenerUpdatePatch current hosts = .ok patch) :
    ∃ put, patch = [.put (.listener put)] ∧ withHosts hosts put = put := by
  obtain ⟨key, bind, port, enabled, sourceAllow, old⟩ := current
  simp only [listenerUpdatePatch, editListenerPatch, edited, Outcome.bind_ok, pure, Except.pure,
    Except.ok.injEq] at made
  obtain ⟨_, _, _, _, _, _, body, hosted, _, rfl, _, rfl, rfl⟩ := made
  refine ⟨_, rfl, ?_⟩
  cases old <;> cases hosted <;> rfl

theorem single_put {tables applied : Tables} {item : Resource}
    (done : applyOps tables [.put item] = .ok applied) : putResource tables item = .ok applied := by
  simpa [applyOps, applyOp] using done

theorem readModel_editPatch {collation : Collation} {tables applied : Tables}
    {request : EditRequest} {seen : Model} {patch : List PatchOp} (kept : RowsKept tables)
    (made : editPatch request seen = .ok patch)
    (agrees : AgreesElsewhere request patch (readModel collation tables))
    (done : applyOps tables patch = .ok applied) :
    readModel collation applied = editedModel request (readModel collation tables) := by
  cases request with
  | hosts name hosts =>
      obtain ⟨put, rfl, full⟩ : ∃ put, patch = [.put (.listener put)] ∧ withHosts hosts put = put := by
        simp only [editPatch] at made
        split at made
        · cases made
        · split at made
          · cases made
          · exact listenerUpdatePatch_ok made
      obtain ⟨held, member, rfl, same⟩ := agrees
      obtain ⟨key, row, stored, rfl⟩ := mem_resourcesOf.mp member
      have edited : put = withHosts hosts (listenerOf key row) := by
        rw [← full, ← withHosts_withHosts [] hosts put, same, withHosts_withHosts]
      exact readModel_putListener kept stored (edited ▸ single_put done)
  | discovery name form =>
      simp only [editPatch] at made
      split at made
      · cases made
      · next pool found =>
          obtain ⟨body, built, rfl⟩ := Outcome.map_ok.mp made
          obtain ⟨discovery, given, rfl⟩ := Outcome.map_ok.mp built
          obtain ⟨held, member, rfl, same⟩ := agrees
          obtain ⟨key, row, stored, rfl⟩ := mem_resourcesOf.mp member
          have edited : withDiscovery discovery pool = withDiscovery discovery (poolOf key row) := by
            have alike : withDiscovery none (withDiscovery discovery pool) =
                withDiscovery none (poolOf key row) := same
            have again := congrArg (withDiscovery discovery) alike
            simpa only [withDiscovery_withDiscovery] using again
          exact readModel_putPool given stored (edited ▸ single_put done)

end Cli

end Barycenter
