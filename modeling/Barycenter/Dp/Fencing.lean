import Barycenter.Dp.DriverRuns
import Barycenter.Dp.ProgramRules
import Barycenter.Dp.StaleCleanup

/-!
# Fencing at the driver

Every operation raises the newest token, fences among them, and nothing lowers
it.  A mutation under an older token is therefore refused for good.  Whether the
token of a mutation was fenced before it came is not asked: a new token is let
in and becomes the newest one.
-/

namespace Barycenter.Dp

open Prog

def DriverOp.mutationToken : DriverOp → Option Nat
  | .applyConfig op | .abortConfig op | .applyMembership op _ _ =>
      some (normalizeNumeric op.leaderToken)
  | _ => none

variable {s : AgentState}

theorem reserveAll_stale {op : ApplyOperation} {opening : Option JournalOpening}
    (older : normalizeNumeric op.leaderToken < s.maxLeaderToken) :
    ∃ rejection, serial (.reserveAll op opening) s = .error (.rejection rejection) := by
  refine serial_rejected fun result reserved => ?_
  obtain ⟨_, _, _, -, -, newest, -⟩ := Agent.reserveAll_ok reserved
  exact absurd older (Nat.not_lt.mpr newest)

theorem applyHealth_stale {op : OperationTuple} (older : op.leaderToken < s.maxLeaderToken) :
    ∃ rejection, serial (.applyHealth op) s = .error (.rejection rejection) := by
  refine serial_rejected fun result applied => ?_
  obtain ⟨newest, -, -⟩ := Agent.applyHealth_ok applied
  exact absurd older (Nat.not_lt.mpr newest)

theorem abort_stale {op : OperationTuple} (older : op.leaderToken < s.maxLeaderToken) :
    ∃ rejection, serial (.abort op) s = .error (.rejection rejection) := by
  refine serial_rejected fun result aborted => ?_
  obtain ⟨newest, -⟩ := Agent.finalize_ok (Agent.abort_ok aborted)
  exact absurd older (Nat.not_lt.mpr newest)

variable {W : Type} {E : Environment dataplane W} {world : W} {s : AgentState}
  {op : ApplyOperation} {deployment : Deployment}

def RefusedUnchanged {α : Type} (call : Run dataplane W α) (s : AgentState) : Prop :=
  (∃ thrown, call.result = .error thrown) ∧ call.state = s

theorem refusedUnchanged_of_refused {α : Type} {o : AgentOp} {rest : o.Reply → Program α}
    {thrown : Thrown} (refused : serial o s = .error thrown) :
    RefusedUnchanged ((durably o >>= rest).exec E s world) s := by
  rw [exec_durably_refused E refused]
  exact ⟨⟨_, rfl⟩, rfl⟩

theorem applyConfig_stale (older : normalizeNumeric op.leaderToken < s.maxLeaderToken) :
    RefusedUnchanged ((Driver.applyConfig deployment op).exec E s world) s := by
  obtain ⟨rejection, refused⟩ := @reserveAll_stale s op (some (Runner.openingOf op)) older
  unfold Driver.applyConfig Runner.run
  cases envelope : assertEnvelope op with
  | error mismatch => exact ⟨⟨_, rfl⟩, rfl⟩
  | ok value =>
      exact refusedUnchanged_of_refused refused

theorem applyMembership_stale {plane : Plane} {slots : OrderedMap String (List String)}
    (older : normalizeNumeric op.leaderToken < s.maxLeaderToken) :
    RefusedUnchanged
      ((Driver.applyMembership deployment op plane slots).exec E s world) s := by
  unfold Driver.applyMembership
  cases op.planes.get plane with
  | none => exact ⟨⟨_, rfl⟩, rfl⟩
  | some target =>
      simp only
      split
      · exact ⟨⟨_, rfl⟩, rfl⟩
      · cases extracted : tupleFor op plane with
        | error mismatch => exact ⟨⟨_, rfl⟩, rfl⟩
        | ok tuple =>
            obtain ⟨rejection, refused⟩ :=
              applyHealth_stale (tupleFor_leaderToken extracted ▸ older)
            exact refusedUnchanged_of_refused refused

/-- A stale caller cleans up for itself while the newest token may only rise. -/
def staleContract (W : Type) (who : Identity) : Contract dataplane W where
  rely before after := before.maxLeaderToken ≤ after.maxLeaderToken
  answers _ _ _ _ _ := True
  issued o _ := CleansUpFor who o
  requested _ _ := True

theorem abortPlanes_stale (planes : List Plane) (refused : List String)
    (older : normalizeNumeric op.leaderToken < s.maxLeaderToken) :
    (Driver.abortPlanes op planes refused).Obeys (staleContract W op.identity)
      (fun result after _ => normalizeNumeric op.leaderToken < after.maxLeaderToken ∧
        ∀ told, result = .ok told → refused ≠ [] ∨ planes ≠ [] → told ≠ [])
      s world := by
  induction planes generalizing refused s world with
  | nil =>
      refine Obeys.ok ⟨older, ?_⟩
      rintro told ⟨⟩ (nonempty | impossible)
      · exact nonempty
      · exact absurd rfl impossible
  | cons plane rest induction =>
      unfold Driver.abortPlanes
      refine Obeys.bind (fun result (after : AgentState) _ =>
        normalizeNumeric op.leaderToken < after.maxLeaderToken ∧
          ∃ kind, result = .ok (some kind)) ?_ ?_ ?_
      · refine Obeys.handle (fun result (after : AgentState) _ =>
          normalizeNumeric op.leaderToken < after.maxLeaderToken ∧
            ∃ rejection, result = .error (Thrown.rejection rejection)) ?_ ?_ ?_
        · refine obeys_judge_then ?_ fun rejection _ => ⟨older, rejection, rfl⟩
          intro tuple extracted
          refine obeys_durably_then fun current relied => ?_
          have stillOlder := older.trans_le relied
          obtain ⟨rejection, rejected⟩ :=
            abort_stale (tupleFor_leaderToken extracted ▸ stillOlder)
          refine ⟨tupleFor_identity extracted, ?_, ?_⟩
          · intro reply written succeeded
            rw [rejected] at succeeded
            cases succeeded
          · intro thrown failed
            rw [rejected] at failed
            cases failed
            exact ⟨stillOlder, rejection, rfl⟩
        · rintro value after _ ⟨-, rejection, impossible⟩
          cases impossible
        · rintro fault after _ ⟨stillOlder, rejection, same⟩
          cases same
          exact Obeys.ok ⟨stillOlder, rejection.kind, rfl⟩
      · rintro outcome after _ ⟨stillOlder, kind, same⟩
        cases same
        refine Obeys.mono (induction (refused ++ [s!"{plane.text}: {kind.text}"]) stillOlder) ?_
        rintro result final _ ⟨newest, told⟩
        refine ⟨newest, fun names ended _ => told names ended (.inl ?_)⟩
        simp
      · rintro fault after _ ⟨-, kind, impossible⟩
        cases impossible

theorem abortConfig_stale (older : normalizeNumeric op.leaderToken < s.maxLeaderToken) :
    (Driver.abortConfig op).Obeys (staleContract W op.identity)
      (fun result _ _ => op.affectedPlanes ≠ [] → ∃ thrown, result = .error thrown)
      s world := by
  unfold Driver.abortConfig
  refine Obeys.bind _ (abortPlanes_stale (planesOf op) [] older) ?_
    fun _ _ _ _ _ => ⟨_, rfl⟩
  rintro refused after world ⟨-, told⟩
  refine obeys_durably_then fun current _ => ⟨rfl, ?_, fun _ _ _ => ⟨_, rfl⟩⟩
  intro _ released _
  refine obeys_durably_then fun current _ => ⟨rfl, ?_, fun _ _ _ => ⟨_, rfl⟩⟩
  intro _ finished _
  refine Obeys.snapshot_then fun current _ => ?_
  refine obeys_judge_then ?_ fun _ _ _ => ⟨_, rfl⟩
  intro reached _
  refine obeys_durably_then fun current _ => ⟨rfl, ?_, fun _ _ _ => ⟨_, rfl⟩⟩
  intro _ closed _
  split
  · exact Obeys.fault fun _ => ⟨_, rfl⟩
  · rename_i none_refused
    refine Obeys.ok fun named => absurd (told refused rfl (.inr ?_)) none_refused
    intro empty
    refine named (List.eq_nil_iff_forall_not_mem.mpr fun plane member => ?_)
    rw [← mem_planesOf, empty] at member
    cases member

theorem fence_acknowledged {before after : AgentState} {numeral : Numeral} {token : Nat}
    (step : DriverStep deployment before { op := .fence numeral, result := .ok token } after) :
    token ≤ after.maxLeaderToken := by
  obtain ⟨W, E, world, answered, rfl⟩ := step
  change token ≤ ((durably (.fence numeral)).exec E before world).state.maxLeaderToken
  obtain ⟨result, state⟩ := @exec_durably W before world E (.fence numeral)
  have answered := result.symm.trans answered
  rw [state]
  cases performed : serial (.fence numeral) before with
  | error thrown =>
      rw [performed] at answered
      cases answered
  | ok outcome =>
      rw [performed] at answered
      cases answered
      obtain ⟨changed, mutated, pruned, -⟩ := serial_ok performed
      obtain ⟨-, replied, cases⟩ := Agent.fence_ok mutated
      simp only [pruned, prune_maxLeaderToken, replied]
      rcases cases with ⟨rfl, -⟩ | ⟨holder, -, -, rfl⟩
      · exact le_refl _
      · exact le_refl _

def RefusedAsStale (deployment : Deployment) (o : DriverOp) (token : Nat) (s : AgentState)
    (call : Run dataplane W o.Answer) : Prop :=
  match o with
  | .abortConfig op =>
      (op.affectedPlanes ≠ [] → ∃ thrown, call.result = .error thrown) ∧
        ∀ successor : Identity, token < successor.leaderToken →
          RunSpared successor s call.state
  | _ => RefusedUnchanged call s

/-- **No mutation passes under an older token** than one whose fence has been
acknowledged, whatever has happened since. -/
theorem stale_mutation_refused {history earlier later : DriverHistory} {final : AgentState}
    {fenced : Event AgentState DriverCall} (run : DriverRun deployment history final)
    (shape : history = earlier ++ fenced :: later) {numeral : Numeral} {token : Nat}
    (acknowledged : fenced.label = { op := .fence numeral, result := .ok token })
    {o : DriverOp} {old : Nat} (carries : o.mutationToken = some old) (older : old < token)
    (E : Environment dataplane W) (world : W) :
    RefusedAsStale deployment o old final
      ((o.program deployment).exec E final world) := by
  have newest : old < final.maxLeaderToken := by
    subst shape
    obtain ⟨start, -, rest⟩ := Follows.split run
    cases rest with
    | cons first continued =>
        obtain rfl := acknowledged
        have raised := fence_acknowledged first
        have kept := Follows.invariant (fun s => token ≤ s.maxLeaderToken) continued raised
          fun _ _ _ step kept => kept.trans (driverStep_newest step)
        exact older.trans_le kept
  cases o with
  | applyConfig op =>
      cases carries
      exact applyConfig_stale newest
  | applyMembership op plane slots =>
      cases carries
      exact applyMembership_stale newest
  | abortConfig op =>
      cases carries
      have obeys := @abortConfig_stale W world final op newest
      have thrown := (Obeys.exec (E := E) (fun _ => True) (fun _ _ => le_refl _)
        (fun _ _ _ => trivial) (fun _ _ _ _ _ _ _ => trivial) trivial obeys).1
      refine ⟨thrown, fun successor newer => ?_⟩
      exact (Obeys.exec (E := E) (fun s => RunSpared successor final s) (fun _ _ => le_refl _)
        (fun _ _ _ => trivial)
        (fun _ _ _ _ spared cleanup succeeded =>
          spared.trans (cleanup_spares_newer newer cleanup succeeded))
        (.refl successor final) obeys).2.1
  | _ => cases carries

/-- A world in which every effect comes back and nothing is seen. -/
def silentWorld : Environment dataplane Unit where
  answer request _ _ :=
    (match request with
      | .preflight _ => .ok { ok := true }
      | .observePublished => .ok .none
      | .observeActivation => .ok none
      | .publish _ _ | .signalReload _ | .stageMembership _ _ _ | .pushMembership _ _ _ => .ok (),
      ())

def unfenced : Identity :=
  { operationId := "op", transitionId := "t", leaderToken := 1 }

def firstMembership : ApplyOperation :=
  let toward : PlaneTarget :=
    { expectedCurrent :=
        { activationEpoch := .ofNat 0
          membershipRevision := .ofNat 0 }
      target :=
        { activationEpoch := .ofNat 0
          membershipRevision := .ofNat 1 }
      payloadDigest := "members" }
  { plainOperation unfenced 0 0 with planes := { http := some toward, stream := none } }

def withMembership : Deployment :=
  { stagesMembership := true
    pushesMembership := true }

/-- Without any fence, a mutation under a new token is accepted. -/
theorem unfenced_mutation_accepted :
    ∃ ack final,
      DriverRun withMembership
          [{ before := initial
             label :=
              { op := .applyMembership firstMembership .http .empty
                result := .ok ack }
             after := final }] final ∧
        final ≠ initial := by
  have accepted : ((DriverOp.program withMembership
      (.applyMembership firstMembership .http .empty)).exec silentWorld initial ()).result.isOk =
        true := by
    decide +kernel
  have raised : ((DriverOp.program withMembership
      (.applyMembership firstMembership .http .empty)).exec silentWorld initial
        ()).state.maxLeaderToken = 1 := by
    decide +kernel
  cases answered : ((DriverOp.program withMembership
      (.applyMembership firstMembership .http .empty)).exec silentWorld initial ()).result with
  | error thrown => simp [answered, Except.isOk, Except.toBool] at accepted
  | ok ack =>
      refine ⟨ack, _, .cons ⟨Unit, silentWorld, (), answered, rfl⟩ (.nil _), ?_⟩
      intro same
      rw [same] at raised
      exact absurd raised (by decide)

theorem stale_mutation_refused_after_fence :
    ∃ history final,
      DriverRun withMembership history final ∧
        RefusedAsStale withMembership (.applyConfig (plainOperation unfenced 0 5)) 1 final
          ((DriverOp.program withMembership (.applyConfig (plainOperation unfenced 0 5))).exec
            silentWorld final ()) := by
  have first : DriverStep withMembership initial
      { op := .fence (.ofNat 2), result := .ok (2 : Nat) }
      ((DriverOp.program withMembership (.fence (.ofNat 2))).exec silentWorld initial
        ()).state :=
    ⟨Unit, silentWorld, (), rfl, rfl⟩
  exact ⟨_, _, .cons first (.nil _),
    @stale_mutation_refused Unit withMembership _ [] [] _ _ (.cons first (.nil _)) rfl
      (.ofNat 2) 2 rfl (.applyConfig (plainOperation unfenced 0 5)) 1 rfl (by decide)
      silentWorld ()⟩

end Barycenter.Dp
