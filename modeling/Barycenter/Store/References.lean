import Barycenter.Foundation.Keeper
import Barycenter.Store.RouteFits

/-!
# The registry of configuration resources

A resource is known by its kind and its key; the settings of the engine have
one fixed key.  Listeners and routes pin the class of a pool they send to, and
routes and certificate bindings the protocol of their listener, because their
foreign keys hold that column.  A backend goes with its pool and a binding with
its listener; every other reference forbids the deletion of its target.

What a reader sees of the tables is the registry, and each table shows the
resources of its own kind.
-/

namespace Barycenter

namespace Store

open Config

def engineKey : String := "engine"

structure ResourceName where
  kind : ResourceKind
  key : String
  fixed : kind = .engine → key = engineKey
deriving DecidableEq, Repr

inductive Trait where
  | plain
  | pool (protocolClass : ProtocolClass)
  | listener (protocol : ListenerProtocol)
deriving DecidableEq, Repr

abbrev ResourceReference := Reference ResourceName Trait

/-- Kinds in the order in which they are made: what is referred to comes first. -/
def kinds : List ResourceKind :=
  [.engine, .pool, .backend, .certificate, .tlsPolicy, .addressSet, .listener, .httpRoute,
    .passthroughRoute, .sniBinding]

def ResourceKind.rank (kind : ResourceKind) : Nat := kinds.idxOf kind

def named (kind : ResourceKind) (key : String) (several : kind ≠ .engine) : ResourceName :=
  { kind := kind
    key := key
    fixed := fun engine => absurd engine several }

def poolName (key : String) : ResourceName := named .pool key (by decide)

def listenerName (key : String) : ResourceName := named .listener key (by decide)

def certificateName (key : String) : ResourceName := named .certificate key (by decide)

def policyName (key : String) : ResourceName := named .tlsPolicy key (by decide)

def resourceName : Resource → ResourceName
  | .engine _ => { kind := .engine, key := engineKey, fixed := fun _ => rfl }
  | .pool pool => poolName pool.key
  | .backend backend => named .backend backend.key (by decide)
  | .certificate certificate => certificateName certificate.key
  | .tlsPolicy policy => policyName policy.key
  | .addressSet set => named .addressSet set.key (by decide)
  | .listener listener => listenerName listener.key
  | .httpRoute route => named .httpRoute route.key (by decide)
  | .passthroughRoute route => named .passthroughRoute route.key (by decide)
  | .sniBinding binding => named .sniBinding binding.key (by decide)

def resourceTrait : Resource → Trait
  | .pool pool => .pool pool.protocolClass
  | .listener listener => .listener (protocolOf listener.body)
  | _ => .plain

/-! ## References -/

def plainReference (target : ResourceName) : ResourceReference :=
  { target := target, pinned := none, cascades := false }

def poolReference (protocolClass : ProtocolClass) (key : String) : ResourceReference :=
  { target := poolName key
    pinned := some fun trait => decide (trait = .pool protocolClass)
    cascades := false }

def outcomeReferences (protocolClass : ProtocolClass) (outcome : Option SniOutcome) :
    List ResourceReference :=
  (outcomePool outcome).toList.map (poolReference protocolClass)

def suitsListener (suits : ListenerProtocol → Bool) : Trait → Bool
  | .listener protocol => suits protocol
  | _ => false

def listenerReference (suits : ListenerProtocol → Bool) (key : String) : ResourceReference :=
  { target := listenerName key, pinned := some (suitsListener suits), cascades := false }

def bodyReferences : ListenerBody → List ResourceReference
  | .http body => outcomeReferences .http (body.http.bind HttpProfile.defaultAction)
  | .https body =>
      outcomeReferences .http (body.http.bind HttpProfile.defaultAction) ++
        [plainReference (policyName body.tls.policy),
          plainReference (certificateName body.tls.defaultCertificate)]
  | .tlsPassthrough body =>
      outcomeReferences .tcp body.onUnmatchedSni ++ outcomeReferences .tcp body.onNoSni
  | .tcp body => [poolReference .tcp body.defaultPool]
  | .udp body => [poolReference .udp body.defaultPool]

def actionReferences : HttpAction → List ResourceReference
  | .proxy pool _ _ _ => [poolReference .http pool]
  | _ => []

def passthroughReferences : PassthroughAction → List ResourceReference
  | .proxy pool => [poolReference .tcp pool]
  | .reject => []

def resourceRefs : Resource → List ResourceReference
  | .backend backend =>
      [{ target := poolName backend.pool, pinned := none, cascades := true }]
  | .listener listener => bodyReferences listener.body
  | .httpRoute route =>
      listenerReference ListenerProtocol.httpFamily route.listener ::
        actionReferences route.action
  | .passthroughRoute route =>
      listenerReference (fun protocol => decide (protocol = .tlsPassthrough)) route.listener ::
        passthroughReferences route.action
  | .sniBinding binding =>
      [{ target := listenerName binding.listener
         pinned := some (suitsListener fun protocol => decide (protocol = .https))
         cascades := true },
        plainReference (certificateName binding.certificate)]
  | _ => []

variable {ref : ResourceReference}

theorem outcomeReferences_spec {protocolClass : ProtocolClass} {outcome : Option SniOutcome}
    (member : ref ∈ outcomeReferences protocolClass outcome) :
    ref.target.kind = .pool ∧ ref.cascades = false := by
  obtain ⟨key, _, rfl⟩ := List.mem_map.mp member
  exact ⟨rfl, rfl⟩

theorem bodyReferences_spec {body : ListenerBody} (member : ref ∈ bodyReferences body) :
    ref.target.kind ∈ [ResourceKind.pool, .certificate, .tlsPolicy] ∧
      ref.cascades = false := by
  cases body with
  | http body =>
      obtain ⟨kind, stays⟩ := outcomeReferences_spec member
      exact ⟨by simp [kind], stays⟩
  | https body =>
      rcases List.mem_append.mp member with outcome | tls
      · obtain ⟨kind, stays⟩ := outcomeReferences_spec outcome
        exact ⟨by simp [kind], stays⟩
      · simp only [List.mem_cons, List.not_mem_nil, or_false] at tls
        rcases tls with rfl | rfl
        · exact ⟨by simp [plainReference, policyName, named], rfl⟩
        · exact ⟨by simp [plainReference, certificateName, named], rfl⟩
  | tlsPassthrough body =>
      rcases List.mem_append.mp member with outcome | outcome
      · obtain ⟨kind, stays⟩ := outcomeReferences_spec outcome
        exact ⟨by simp [kind], stays⟩
      · obtain ⟨kind, stays⟩ := outcomeReferences_spec outcome
        exact ⟨by simp [kind], stays⟩
  | tcp body | udp body =>
      obtain rfl := List.mem_singleton.mp member
      exact ⟨by simp [poolReference, poolName, named], rfl⟩

theorem actionReferences_spec {action : HttpAction} (member : ref ∈ actionReferences action) :
    ref.target.kind = .pool ∧ ref.cascades = false := by
  cases action with
  | proxy pool _ _ _ =>
      obtain rfl := List.mem_singleton.mp member
      exact ⟨rfl, rfl⟩
  | redirect _ _ | reject _ => cases member

theorem passthroughReferences_spec {action : PassthroughAction}
    (member : ref ∈ passthroughReferences action) :
    ref.target.kind = .pool ∧ ref.cascades = false := by
  cases action with
  | proxy pool =>
      obtain rfl := List.mem_singleton.mp member
      exact ⟨rfl, rfl⟩
  | reject => cases member

/-- A reference leads to a kind that is made earlier, and it cascades only from
a backend to its pool and from a binding to its listener. -/
theorem resourceRefs_spec {resource : Resource} (member : ref ∈ resourceRefs resource) :
    ref.target.kind.rank < (resourceName resource).kind.rank ∧
      ref.target.kind ∈ [ResourceKind.pool, .certificate, .tlsPolicy, .listener] ∧
      (ref.cascades = true →
        (resourceName resource).kind = .backend ∨ (resourceName resource).kind = .sniBinding) := by
  cases resource with
  | backend backend =>
      obtain rfl := List.mem_singleton.mp member
      exact ⟨(by decide : ResourceKind.rank .pool < ResourceKind.rank .backend),
        by simp [poolName, named], fun _ => .inl rfl⟩
  | listener listener =>
      obtain ⟨kind, stays⟩ := bodyReferences_spec member
      simp only [List.mem_cons, List.not_mem_nil, or_false] at kind
      refine ⟨?_, ?_, fun goes => absurd goes (by simp [stays])⟩
      · rcases kind with kind | kind | kind
        · exact kind ▸ (by decide : ResourceKind.rank .pool < ResourceKind.rank .listener)
        · exact kind ▸ (by decide : ResourceKind.rank .certificate < ResourceKind.rank .listener)
        · exact kind ▸ (by decide : ResourceKind.rank .tlsPolicy < ResourceKind.rank .listener)
      · rcases kind with kind | kind | kind <;> simp [kind]
  | httpRoute route =>
      rcases List.mem_cons.mp member with rfl | rest
      · exact ⟨(by decide : ResourceKind.rank .listener < ResourceKind.rank .httpRoute),
          by simp [listenerReference, listenerName, named], fun goes => nomatch goes⟩
      · obtain ⟨kind, stays⟩ := actionReferences_spec rest
        exact ⟨kind ▸ (by decide : ResourceKind.rank .pool < ResourceKind.rank .httpRoute),
          by simp [kind], fun goes => absurd goes (by simp [stays])⟩
  | passthroughRoute route =>
      rcases List.mem_cons.mp member with rfl | rest
      · exact ⟨(by decide : ResourceKind.rank .listener < ResourceKind.rank .passthroughRoute),
          by simp [listenerReference, listenerName, named], fun goes => nomatch goes⟩
      · obtain ⟨kind, stays⟩ := passthroughReferences_spec rest
        exact ⟨kind ▸ (by decide : ResourceKind.rank .pool < ResourceKind.rank .passthroughRoute),
          by simp [kind], fun goes => absurd goes (by simp [stays])⟩
  | sniBinding binding =>
      simp only [resourceRefs, List.mem_cons, List.not_mem_nil, or_false] at member
      rcases member with rfl | rfl
      · exact ⟨(by decide : ResourceKind.rank .listener < ResourceKind.rank .sniBinding),
          by simp [listenerName, named], fun _ => .inr rfl⟩
      · exact ⟨(by decide : ResourceKind.rank .certificate < ResourceKind.rank .sniBinding),
          by simp [plainReference, certificateName, named], fun goes => nomatch goes⟩
  | engine _ | pool _ | certificate _ | tlsPolicy _ | addressSet _ => cases member

def resources : Registry ResourceName Resource Trait :=
  { name := resourceName
    trait := resourceTrait
    refs := resourceRefs
    rank := fun name => name.kind.rank
    refs_below := fun _ _ member => (resourceRefs_spec member).1
    leaves := by
      intro item ref member goes other back inside same
      have target := (resourceRefs_spec inside).2.1
      rw [same] at target
      rcases (resourceRefs_spec member).2.2 goes with kind | kind
      · rw [kind] at target
        exact absurd target (by decide)
      · rw [kind] at target
        exact absurd target (by decide) }

end Store

end Barycenter
