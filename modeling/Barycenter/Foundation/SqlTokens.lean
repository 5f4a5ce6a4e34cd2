import Mathlib.Data.List.Forall2
import Mathlib.Tactic.SplitIfs

/-!
# How SQLite takes a statement apart

The tokenizer takes one token after the other, and blanks and comments are tokens
of their own.  Within a token it looks at a character and the one behind it.  It
reads no further than the first null character.  Where a token ends does not
depend on whether a parameter behind it begins with a dollar sign or with a
question mark.
-/

namespace Barycenter

namespace SqlTokens

def isSpace (char : Char) : Bool :=
  char = ' ' || char = '\t' || char = '\n' || char = '\x0c' || char = '\r'

def isIdChar (char : Char) : Bool :=
  char.isAlphanum || char = '_' || char = '$' || decide (128 ≤ char.toNat)

def isDigitOrSeparator (char : Char) : Bool := char.isDigit || char = '_'

def pairs : List (Char × Char) :=
  [('-', '>'), ('=', '='), ('<', '='), ('<', '>'), ('<', '<'), ('>', '='), ('>', '>'),
    ('!', '='), ('|', '|')]

inductive Place where
  | space
  | line
  | block (closing : Bool)
  | quoted (mark : Char) (doubled : Bool)
  | through (stop : Char)
  /-- In front of the star of a comment, or of the quote of a blob. -/
  | star
  | blob
  | digits
  /-- The name of a parameter may have double colons in it. -/
  | parameter (named doubled : Bool)
  /-- What a parameter has in parentheses. -/
  | suffix
  | whole
  | fraction
  | sign
  | word
  | after (first : Char)
  | arrow
  | alone

/-- A character belongs to the next token, is the last one, or is followed by more. -/
inductive Move where
  | stop
  | last
  | on (place : Place)

/-- An exponent, and the identifier characters that stick to a number. -/
def behindNumber (char : Char) (next : Option Char) : Move :=
  if (char = 'e' ∨ char = 'E') ∧ (next = some '+' ∨ next = some '-') then .on .sign
  else if isIdChar char then .on .word
  else .stop

def Place.step : Place → Char → Option Char → Move
  | .space, char, _ => if isSpace char then .on .space else .stop
  | .line, char, _ => if char = '\n' then .stop else .on .line
  | .block closing, char, next =>
      if closing then .last
      else .on (.block (decide (char = '*' ∧ next = some '/')))
  | .quoted mark doubled, char, next =>
      if char ≠ mark then if doubled then .stop else .on (.quoted mark false)
      else if doubled then .on (.quoted mark false)
      else if next = some mark then .on (.quoted mark true)
      else .last
  | .through stop, char, _ => if char = stop then .last else .on (.through stop)
  | .star, _, _ => .on (.block false)
  | .blob, char, _ => if char = '\'' then .on (.through '\'') else .stop
  | .digits, char, _ => if char.isDigit then .on .digits else .stop
  | .parameter named doubled, char, next =>
      if doubled ∧ char = ':' then .on (.parameter named false)
      else if isIdChar char then .on (.parameter true false)
      else if char = '(' ∧ named then .on .suffix
      else if char = ':' ∧ next = some ':' then .on (.parameter named true)
      else .stop
  | .suffix, char, _ =>
      if char = ')' then .last else if isSpace char then .stop else .on .suffix
  | .whole, char, next =>
      if isDigitOrSeparator char then .on .whole
      else if char = '.' then .on .fraction
      else behindNumber char next
  | .fraction, char, next =>
      if isDigitOrSeparator char then .on .fraction else behindNumber char next
  | .sign, char, next =>
      if (char = '+' ∨ char = '-') ∧ next.any Char.isDigit then .on .word else .stop
  | .word, char, _ => if isIdChar char then .on .word else .stop
  | .after first, char, _ =>
      if (first, char) ∈ pairs then if first = '-' then .on .arrow else .last else .stop
  | .arrow, char, _ => if char = '>' then .last else .stop
  | .alone, _, _ => .stop

/-- Where a token is behind its first character, given what follows. -/
def enter (char : Char) (text : List Char) : Place :=
  if isSpace char then .space
  else if char = '-' ∧ text.head? = some '-' then .line
  else if char = '/' ∧ text.head? = some '*' ∧ text.tail ≠ [] then .star
  else if char = '\'' ∨ char = '"' ∨ char = '\x60' then .quoted char false
  else if char = '[' then .through ']'
  else if char = '?' then .digits
  else if char = '$' ∨ char = '@' ∨ char = ':' ∨ char = '#' then .parameter false false
  else if char.isDigit then .whole
  else if char = '.' ∧ text.head?.any Char.isDigit then .fraction
  else if (char = 'x' ∨ char = 'X') ∧ text.head? = some '\'' then .blob
  else if char = '\uFEFF' then .alone
  else if isIdChar char then .word
  else .after char

def run (place : Place) : List Char → List Char × List Char
  | [] => ([], [])
  | char :: rest =>
      match place.step char rest.head? with
      | .stop => ([], char :: rest)
      | .last => ([char], rest)
      | .on next => Prod.map (char :: ·) id (run next rest)

theorem run_append (place : Place) (text : List Char) :
    (run place text).1 ++ (run place text).2 = text := by
  induction text generalizing place with
  | nil => rfl
  | cons char rest induction =>
      simp only [run]
      split
      · rfl
      · rfl
      · simp [induction]

theorem run_shorter (place : Place) (text : List Char) :
    (run place text).2.length ≤ text.length := by
  have whole := congrArg List.length (run_append place text)
  rw [List.length_append] at whole
  omega

def split : List Char → List (List Char)
  | [] => []
  | char :: rest =>
      let token := run (enter char rest) rest
      (char :: token.1) :: split token.2
termination_by text => text.length
decreasing_by exact Nat.lt_succ_of_le (run_shorter _ _)

/-- The tokens of a text, up to the end or a null character. -/
def tokens (text : List Char) : List (List Char) := split (text.takeWhile (· ≠ '\x00'))

/-! ## Parameters further on -/

/-- The character, or a question mark in place of a dollar sign. -/
def Kept (char kept : Char) : Prop := kept = char ∨ char = '$' ∧ kept = '?'

variable {text kept : List Char} {char next : Char}

theorem Kept.eq (same : Kept char next) (plain : char ≠ '$') : next = char :=
  same.resolve_right fun marks => plain marks.1

theorem head_kept (same : List.Forall₂ Kept text kept) :
    kept.head? = text.head? ∨ text.head? = some '$' ∧ kept.head? = some '?' := by
  cases same with
  | nil => exact .inl rfl
  | cons first rest =>
      rcases first with rfl | ⟨rfl, rfl⟩
      · exact .inl rfl
      · exact .inr ⟨rfl, rfl⟩

def Place.Calm : Place → Prop
  | .quoted mark _ => mark ≠ '$' ∧ mark ≠ '?'
  | _ => True

theorem Place.Calm.step {place onward : Place} {before : Option Char} (calm : place.Calm)
    (moves : place.step char before = .on onward) : onward.Calm := by
  cases place with
  | quoted mark doubled =>
      simp only [Place.step] at moves
      split_ifs at moves <;> cases moves <;> exact calm
  | _ =>
      simp only [Place.step, behindNumber] at moves
      (try split_ifs at moves) <;> cases moves <;> trivial

variable {place : Place}

theorem step_next (calm : place.Calm) :
    place.step char (some '?') = place.step char (some '$') := by
  cases place with
  | quoted mark doubled => simp [Place.step, calm.1.symm, calm.2.symm]
  | _ => simp [Place.step, behindNumber]

theorem step_stop {before after : Option Char} (calm : place.Calm)
    (stops : place.step '$' before = .stop) : place.step '?' after = .stop := by
  cases place with
  | after first => simp [Place.step, pairs]
  | quoted mark doubled =>
      revert stops
      cases doubled <;> simp [Place.step, calm.1.symm, calm.2.symm]
  | through stop =>
      simp only [Place.step] at stops
      split_ifs at stops
  | parameter named doubled =>
      simp only [Place.step, isIdChar] at stops
      split_ifs at stops
      simp_all
  | _ =>
      revert stops
      simp [Place.step, behindNumber, isSpace, isIdChar, isDigitOrSeparator]

theorem run_kept (calm : place.Calm) (same : List.Forall₂ Kept (run place text).2 kept) :
    run place ((run place text).1 ++ kept) = ((run place text).1, kept) := by
  have sees {before after : List Char} (kept : List.Forall₂ Kept before after) {place : Place}
      {char : Char} (calm : place.Calm) :
      place.step char after.head? = place.step char before.head? := by
    rcases head_kept kept with same | ⟨dollar, question⟩
    · rw [same]
    · rw [dollar, question, step_next calm]
  induction text generalizing place with
  | nil =>
      simp only [run, List.forall₂_nil_left_iff] at same ⊢
      simp [same, run]
  | cons char rest induction =>
      simp only [run] at same ⊢
      cases moved : place.step char rest.head? with
      | stop =>
          simp only [moved] at same ⊢
          obtain ⟨mark, more, first, others, rfl⟩ := List.forall₂_cons_left_iff.mp same
          have stops : place.step mark more.head? = .stop := by
            rcases first with rfl | ⟨rfl, rfl⟩
            · rw [sees others calm, moved]
            · exact step_stop calm moved
          simp [run, stops]
      | last =>
          simp only [moved] at same ⊢
          simp [run, sees same calm, moved]
      | on next =>
          simp only [moved, Prod.map] at same ⊢
          have behind := induction (calm.step moved) same
          have whole : List.Forall₂ Kept rest ((run next rest).1 ++ kept) := by
            nth_rewrite 1 [← run_append next rest]
            exact List.rel_append (List.forall₂_same.mpr fun _ _ => .inl rfl) same
          simp only [List.cons_append, run, sees whole calm, moved, behind, Prod.map, id]

theorem Place.Calm.choice {condition : Prop} [Decidable condition] {first second : Place}
    (holds : condition → first.Calm) (other : second.Calm) :
    (if condition then first else second).Calm := by
  split
  · exact holds ‹_›
  · exact other

theorem enter_calm : (enter char text).Calm := by
  have quotes (quote : char = '\'' ∨ char = '"' ∨ char = '\x60') : char ≠ '$' ∧ char ≠ '?' := by
    rcases quote with rfl | rfl | rfl <;> decide
  unfold enter
  iterate 3 refine .choice (fun _ => .intro) ?_
  refine .choice quotes ?_
  iterate 7 refine .choice (fun _ => .intro) ?_
  exact .choice (fun _ => .intro) .intro

theorem enter_kept (same : List.Forall₂ Kept text kept) : enter char kept = enter char text := by
  have tails : kept.tail = [] ↔ text.tail = [] := by
    rw [← List.length_eq_zero_iff, ← List.length_eq_zero_iff, List.length_tail, List.length_tail,
      same.length_eq]
  rcases head_kept same with heads | ⟨dollar, question⟩
  · simp only [enter, heads, ne_eq, tails]
  · simp only [enter, dollar, question, ne_eq, tails]
    simp

/-- The first token stays the same when parameters behind it are marked otherwise. -/
theorem token_kept (same : List.Forall₂ Kept (run (enter char text) text).2 kept) :
    run (enter char ((run (enter char text) text).1 ++ kept))
        ((run (enter char text) text).1 ++ kept) = ((run (enter char text) text).1, kept) := by
  have whole : List.Forall₂ Kept text ((run (enter char text) text).1 ++ kept) := by
    have parts := run_append (enter char text) text
    nth_rewrite 1 [← parts]
    exact List.rel_append (List.forall₂_same.mpr fun _ _ => .inl rfl) same
  rw [enter_kept whole]
  exact run_kept enter_calm same

end SqlTokens

end Barycenter
