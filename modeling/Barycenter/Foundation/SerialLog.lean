/-!
# Units of changes that take effect one after another

A unit is a list of changes that take effect together.  The log holds the units
that have taken effect, in their order, and the changes of the unit that is
open.  What it stands for are two values: the one that everybody may see, and
the draft that only the open unit sees.
-/

namespace Barycenter

structure SerialLog (γ : Type) where
  units : List (List γ) := []
  running : List γ := []

namespace SerialLog

variable {γ δ : Type}

def single (log : SerialLog γ) (change : γ) : SerialLog γ :=
  { log with units := log.units ++ [[change]] }

def cleared (log : SerialLog γ) : SerialLog γ := { log with running := [] }

def added (log : SerialLog γ) (change : γ) : SerialLog γ :=
  { log with running := log.running ++ [change] }

def closed (log : SerialLog γ) : SerialLog γ :=
  { units := log.units ++ [log.running], running := [] }

section Values

variable (effect : γ → δ → δ)

def applied (changes : List γ) (data : δ) : δ :=
  changes.foldl (fun reached change => effect change reached) data

def value (log : SerialLog γ) (start : δ) : δ :=
  log.units.foldl (fun reached changes => applied effect changes reached) start

def draft (log : SerialLog γ) (start : δ) : δ :=
  applied effect log.running (log.value effect start)

variable {effect} {log : SerialLog γ} {change : γ} {start : δ}

@[simp]
theorem value_single : (log.single change).value effect start =
    effect change (log.value effect start) := by
  simp [single, value, applied]

@[simp]
theorem value_cleared : log.cleared.value effect start = log.value effect start := rfl

@[simp]
theorem value_added : (log.added change).value effect start = log.value effect start := rfl

@[simp]
theorem value_closed : log.closed.value effect start = log.draft effect start := by
  simp [closed, value, draft]

@[simp]
theorem draft_cleared : log.cleared.draft effect start = log.value effect start := rfl

@[simp]
theorem draft_added : (log.added change).draft effect start =
    effect change (log.draft effect start) := by
  simp [draft, added, applied, value]

end Values

end SerialLog

end Barycenter
