import Barycenter.Foundation.Toll
import Barycenter.Dp.DriverRules
import Barycenter.Dp.JournalChanges

/-!
# What the runners pay for a reload

A reload signal of an apply has to be bought: by the write of the journal entry
that counts it, right before it.  Every write of a runner succeeds the entry the
runner has read, so it keeps the operation and never lowers the count.
-/

namespace Barycenter.Dp

open Prog

/-- The entry is the journal, or the journal has gone on. -/
def Knows (entry : JournalEntry) (s : AgentState) : Prop :=
  entry.seq ≤ seqOf s ∧ (entry.seq = seqOf s → s.journal = some entry)

variable {entry : JournalEntry}

theorem knows_journal {s : AgentState} (found : s.journal = some entry) : Knows entry s :=
  ⟨(seqOf_some found).ge, fun _ => found⟩

theorem Knows.forward {s later : AgentState} (known : Knows entry s)
    (forward : JournalForward s later) : Knows entry later := by
  refine ⟨known.1.trans forward.1, fun same => ?_⟩
  have before : entry.seq = seqOf s := by
    have upper := known.1
    have lower := forward.1
    omega
  rw [forward.2 (before.symm.trans same)]
  exact known.2 before

def counted (entry : JournalEntry) : JournalEntry :=
  { entry with
    reloadAttempts := entry.reloadAttempts + 1
    seq := entry.seq + 1 }

/-- An entry that may follow the journal: of the same operation, with no lower
count. -/
def Succeeds (entry : JournalEntry) (s : AgentState) : Prop :=
  entry.seq = seqOf s + 1 → ∃ old, s.journal = some old ∧ entry.op = old.op ∧
    old.reloadAttempts ≤ entry.reloadAttempts

def reloadTariff : Tariff dataplane where
  rely := JournalForward
  issued o s :=
    match o with
    | .writeJournal entry => Succeeds entry s
    | .reserveAll op (some opening) => opening.op = op
    | _ => True
  priced request := ∃ op, request = .signalReload (.apply op)
  buys o s request :=
    ∃ old, s.journal = some old ∧ old.phase = .reloadIntent ∧
      old.reloadAttempts < RELOAD_ATTEMPT_LIMIT ∧
      o = .writeJournal (counted old) ∧ request = .signalReload (.apply old.op)

theorem reloadTariff_fair : reloadTariff.Fair where
  alone := JournalForward.refl
  transitive _ _ _ earlier later := earlier.trans later
  performed _ _ _ _ succeeded := (serial_journal succeeded).forward

/-- From any state behind one that was seen, the program keeps to the tariff. -/
def Careful {α : Type} (seen : AgentState) (program : Program α) : Prop :=
  ∀ bought state, JournalForward seen state →
    program.Pays reloadTariff (fun _ s => JournalForward seen s) bought state

namespace Careful

variable {α β : Type} {seen : AgentState}

theorem ok {value : α} : Careful seen (pure value) := fun _ _ relied => relied

theorem fault {thrown : Thrown} : Careful seen (throw thrown : Program α) :=
  fun _ _ relied => relied

theorem bind {program : Program α} {rest : α → Program β} (first : Careful seen program)
    (then_ : ∀ value, Careful seen (rest value)) : Careful seen (program >>= rest) := by
  intro bought state relied
  refine Pays.bind _ (first bought state relied) ?_ fun _ _ relied => relied
  exact fun value bought state relied => then_ value bought state relied

theorem handle {program : Program α} {rescue : Thrown → Program α}
    (first : Careful seen program) (rescued : ∀ thrown, Careful seen (rescue thrown)) :
    Careful seen (tryCatch program rescue) := by
  intro bought state relied
  refine Pays.handle _ (first bought state relied) (fun _ _ relied => relied) ?_
  exact fun thrown bought state relied => rescued thrown bought state relied

theorem durably {o : AgentOp}
    (issued : ∀ s, JournalForward seen s → reloadTariff.issued o s) :
    Careful seen (durably o) := by
  intro bought state relied current moved
  have still := relied.trans moved
  refine ⟨issued current still, ?_, fun _ _ => still⟩
  exact fun _ _ succeeded => still.trans (serial_journal succeeded).forward

theorem effect {request : EffectCall} (free : ∀ op, request ≠ .signalReload (.apply op)) :
    Careful seen (effect request) := by
  intro bought state relied
  refine ⟨fun ⟨op, priced⟩ => absurd priced (free op), fun current moved _ => ?_⟩
  exact relied.trans moved

theorem snapshot_then {rest : AgentState → Program α}
    (then_ : ∀ s, JournalForward seen s → Careful s (rest s)) :
    Careful seen (snapshot >>= rest) := by
  intro bought state relied current moved
  have still := relied.trans moved
  refine Pays.mono (then_ current still _ current (.refl current)) ?_
  exact fun _ _ later => still.trans later

end Careful

variable {seen : AgentState}

theorem lostRace_careful {rest : Bool → Program Unit} (thrown : Thrown)
    (lost : Careful seen (rest false)) :
    Careful seen ((match thrown with
      | .rejection { kind := .journalConflict, .. } => return false
      | other => throw other : Program Bool) >>= rest) := by
  split
  · exact lost
  · exact Careful.fault

theorem wonReload_careful {rest : Program Unit} (known : Knows entry seen)
    (phase : entry.phase = .reloadIntent) (within : entry.reloadAttempts < RELOAD_ATTEMPT_LIMIT)
    (signals : Runner.reload entry =
      (Dp.effect (.signalReload (.apply entry.op)) >>= fun _ => rest))
    (after : ∀ behind, Careful behind rest) :
    Careful seen
      (Runner.winReload entry >>= fun won => if won then Runner.reload entry else pure ()) := by
  rw [signals]
  intro bought state relied current moved
  have still := relied.trans moved
  have atTurn := known.forward still
  refine ⟨fun successor => ?_, ?_, ?_⟩
  · have found := atTurn.2 (Nat.succ.inj successor)
    exact ⟨entry, found, rfl, Nat.le_succ _⟩
  · intro reply written succeeded
    have onward := still.trans (serial_journal succeeded).forward
    obtain ⟨changed, mutated, -⟩ := serial_ok succeeded
    obtain ⟨-, -, successor, -⟩ := Agent.writeJournal_ok mutated
    have found := atTurn.2 (Nat.succ.inj successor)
    refine ⟨fun _ => ⟨entry, found, phase, within, rfl, rfl⟩, fun later moved answer => ?_⟩
    have onward := onward.trans moved
    cases answer with
    | error thrown => exact onward
    | ok value => exact after seen _ _ onward
  · intro thrown _
    exact lostRace_careful thrown Careful.ok nothing current still

/-- The entry that was read is the journal until the journal has gone on. -/
def thrift : DriverRules where
  Keeps seen program := Careful seen program
  later := JournalForward
  trusts seen entry := Knows entry seen
  allows seen o := ∀ s, JournalForward seen s → reloadTariff.issued o s
  ok := Careful.ok
  fault := Careful.fault
  bind := Careful.bind
  handle := Careful.handle
  durably := Careful.durably
  effect := Careful.effect
  snapshot_then then_ :=
    Careful.snapshot_then fun s onward => then_ s onward fun _ found => knows_journal found
  stays onward known := known.forward onward
  light {seen o} light s onward := by
    cases o <;> first | trivial | cases light
  opens s onward := rfl
  carries known extracted :=
    ⟨fun _ _ => trivial, fun _ _ => trivial, fun _ _ _ => trivial⟩
  publishes known s onward := trivial
  reclaims known s onward := trivial
  writes {seen entry next} known sameOp count successor s onward now := by
    have found := (known.forward onward).2 (by omega)
    exact ⟨entry, found, sameOp, count⟩
  wonReload := wonReload_careful

theorem DriverOp.careful {deployment : Deployment} (o : DriverOp) :
    Careful seen (o.program deployment) := by
  have careful : thrift.Keeps seen (o.program deployment) := o.keeps
  exact careful

end Barycenter.Dp
