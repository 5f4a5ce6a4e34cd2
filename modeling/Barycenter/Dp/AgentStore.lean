import Barycenter.Foundation.OptimisticStore
import Barycenter.Dp.AgentRuns

/-!
# Agents sharing one store

Every agent loads the state, changes a copy, and saves it with the successor of
the version it loaded.  A save that was outrun is judged again on the state that
is there now.  The shared state is therefore the state of one agent that
performs the successful operations one after the other.
-/

namespace Barycenter.Dp

open OptimisticStore

def CAS_RETRY_LIMIT : Nat := 8

@[reducible] def agentObject : SequentialObject where
  Payload := AgentState
  Op := AgentOp
  Reply := AgentOp.Reply
  Fault := Thrown
  apply := serialFrom

abbrev Deployed (ι : Type) := System agentObject ι

variable {ι : Type} [DecidableEq ι]

/-- A run of any number of agents from an empty store, in any interleaving of
what their callers ask for. -/
def DeployedRun (history : OptimisticStore.History agentObject ι) (final : Deployed ι) : Prop :=
  Follows (OptimisticStore.Step CAS_RETRY_LIMIT) (blank agentObject ι) history final

def newestOf (store : Option (Stored agentObject)) : Nat :=
  ((store.map Stored.payload).getD initial).maxLeaderToken

structure Linearizable (history : OptimisticStore.History agentObject ι) (final : Deployed ι) :
    Prop where
  /-- The successes, in order, are a sequential run that ends in the stored state. -/
  sequential : Follows Applied none (successes history) final.store
  version : versionOf final.store = (successes history).length
  success : ∀ event ∈ history, ∀ ticket op reply,
    event.label.2 = .succeeded ticket op reply →
      Applied event.before.store ⟨op, reply⟩ event.after.store
  failure : ∀ event ∈ history,
    (∀ ticket op reply, event.label.2 ≠ .succeeded ticket op reply) →
      event.after.store = event.before.store
  once : history.Pairwise fun first second =>
    ∀ ticket, first.label.2.answers = some ticket →
      second.label.2.answers ≠ some ticket
  newest : ∀ event ∈ history, newestOf event.before.store ≤ newestOf event.after.store

theorem serialFrom_ok {o : AgentOp} {stored : Option AgentState} {next : AgentState}
    {reply : o.Reply} (succeeded : serialFrom o stored = .ok (reply, next)) :
    ∃ changed, o.mutate (stored.getD initial) = .ok (reply, changed) ∧
      next = prune changed ∧ assertInvariants stored next = none := by
  simp only [serialFrom] at succeeded
  split at succeeded
  · cases succeeded
  · rename_i answered changed mutated
    split at succeeded
    · cases succeeded
    · rename_i guarded
      cases succeeded
      exact ⟨changed, mutated, rfl, guarded⟩

theorem applied_newest {before after : Option (Stored agentObject)}
    {done : (op : AgentOp) × op.Reply} (applied : @Applied agentObject before done after) :
    newestOf before ≤ newestOf after := by
  obtain ⟨payload, performed, rfl⟩ := applied
  obtain ⟨changed, mutated, rfl, -⟩ := serialFrom_ok performed
  have newest := mutate_newest mutated
  exact newest

/-- **Linearizable durable state.** -/
theorem agents_linearizable {history : OptimisticStore.History agentObject ι}
    {final : Deployed ι} (run : DeployedRun history final) : Linearizable history final := by
  have sequential := linearization run blank_coherent
  have effects : ∀ event ∈ history,
      OptimisticStore.Effect event.before event.label.2 event.after := by
    intro event member
    obtain ⟨step, coherent⟩ := Follows.at_events run blank_coherent
      (fun _ _ _ step coherent => (step_effect step coherent).1) event member
    exact (step_effect step coherent).2
  refine
    { sequential := sequential
      version := by simpa [versionOf, blank] using version_counts sequential
      success := ?_
      failure := ?_
      once := answered_once run blank_ticketed
      newest := ?_ }
  · intro event member ticket op reply answered
    cases effects event member with
    | applied _ other otherReply answer once =>
        rw [answered] at answer
        cases answer
        exact once
    | unchanged silent same => exact absurd answered (silent ticket op reply)
  · intro event member silent
    cases effects event member with
    | applied ticket op reply answer once => exact absurd answer (silent ticket op reply)
    | unchanged _ same => exact same
  · intro event member
    cases effects event member with
    | applied ticket op reply answer once => exact applied_newest once
    | unchanged silent same => rw [same]

/-- Two agents fence at the same time.  The one that is outrun judges again. -/
def racingFences : List (Action agentObject Bool) :=
  [.submit true (.fence (.ofNat 1)), .submit false (.fence (.ofNat 2)),
    .advance true, .advance false, .advance true, .advance false,
    .advance true, .advance false, .advance false, .advance false]

theorem racing_fences_linearizable :
    ∃ (history : OptimisticStore.History agentObject Bool) (final : Deployed Bool),
      DeployedRun history final ∧ Linearizable history final ∧
        history.map (fun event => event.label.1) = racingFences ∧
        versionOf final.store = 2 ∧ newestOf final.store = 2 := by
  have executed : (execute
      (fun action s => (act CAS_RETRY_LIMIT s action).map
        fun (next, outcome) => ((action, outcome), next))
      racingFences (blank agentObject Bool)).any
        (fun (_, final) => versionOf final.store = 2 && newestOf final.store = 2) = true := by
    decide +kernel
  obtain ⟨⟨history, final⟩, performed, checked⟩ := (Option.any_eq_true _ _).mp executed
  simp only [Bool.and_eq_true, decide_eq_true_eq] at checked
  have followed := follows_of_execute
    (OptimisticStore.Step CAS_RETRY_LIMIT) Prod.fst ?_ performed
  · obtain ⟨run, labels⟩ := followed
    exact ⟨history, final, run, agents_linearizable run, labels, checked⟩
  · intro action state label next acted
    simp only [Option.map_eq_some_iff, Prod.exists, Prod.mk.injEq] at acted
    obtain ⟨_, outcome, stepped, rfl, rfl⟩ := acted
    exact ⟨stepped, rfl⟩

end Barycenter.Dp
