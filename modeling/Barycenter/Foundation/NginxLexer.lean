import Mathlib.Data.List.Induction

/-!
# How nginx reads a configuration text

The reader takes one character at a time.  A word starts at the first
character that is not blank; a quote in that place starts a quoted word, and
anywhere else it is an ordinary character.  A backslash keeps the next
character from ending the word, quoted or not, and so does a dollar sign for an
opening brace.  Only when the word is complete are its backslash pairs decoded:
a pair of a backslash and a quote or another backslash is the second
character, three letters stand for the control characters, and any other pair
stays as it is.

Words are collected until a semicolon or an opening brace; a closing brace
must stand where no word has been read.  The statements are then put into
their blocks.
-/

namespace Barycenter

namespace NginxLexer

/-- Blank characters of the reader; no other space is one. -/
def isBlank (char : Char) : Bool :=
  char = ' ' || char = '\t' || char = '\r' || char = '\n'

/-- What a backslash and the character after it are decoded to. -/
def decoded (char : Char) : Option Char :=
  if char = '"' || char = '\'' || char = '\\' then some char
  else if char = 't' then some '\t'
  else if char = 'r' then some '\r'
  else if char = 'n' then some '\n'
  else none

def unescape : List Char → List Char
  | [] => []
  | [last] => [last]
  | first :: second :: rest =>
      if first = '\\' then
        match decoded second with
        | some char => char :: unescape rest
        | none => first :: unescape (second :: rest)
      else
        first :: unescape (second :: rest)

/-- What the last character of an unfinished word does to the next one. -/
inductive Last where
  | plain
  | backslash
  | dollar
  deriving DecidableEq, Repr

/-- The effect of one more character that does not end the word. -/
def Last.next (last : Last) (char : Char) : Last :=
  if last = .backslash then .plain
  else if last = .dollar ∧ char = '\x7b' then .dollar
  else if char = '\\' then .backslash
  else if char = '$' then .dollar
  else .plain

inductive Place where
  /-- Before a word. -/
  | between
  | comment
  /-- Inside a word; `mark` is the quote that it started with. -/
  | word (mark : Option Char) (raw : List Char) (last : Last)
  /-- Behind the closing quote, where a blank or an end must follow. -/
  | closed
  deriving DecidableEq, Repr

structure Reader where
  place : Place
  words : List String
  deriving DecidableEq, Repr

inductive Event where
  | simple (words : List String)
  | opening (words : List String)
  | closing
  deriving DecidableEq, Repr

def ready (words : List String) : Reader := ⟨.between, words⟩

def wordOf (raw : List Char) : String := String.ofList (unescape raw)

/-- A blank, a semicolon or an opening brace behind a word. -/
def finish (words : List String) (char : Char) : Reader × List Event :=
  if char = ';' then (ready [], [.simple words])
  else if char = '\x7b' then (ready [], [.opening words])
  else (ready words, [])

def stepBetween (words : List String) (char : Char) : Option (Reader × List Event) :=
  if isBlank char then some (ready words, [])
  else if char = ';' || char = '\x7b' then
    if words = [] then none else some (finish words char)
  else if char = '\x7d' then
    if words = [] then some (ready [], [.closing]) else none
  else if char = '#' then some (⟨.comment, words⟩, [])
  else if char = '"' || char = '\'' then some (⟨.word (some char) [] .plain, words⟩, [])
  else some (⟨.word none [char] (Last.next .plain char), words⟩, [])

def stepWord (words : List String) (mark : Option Char) (raw : List Char) (last : Last)
    (char : Char) : Reader × List Event :=
  let further : Reader × List Event :=
    (⟨.word mark (raw ++ [char]) (last.next char), words⟩, [])
  if last = .backslash || (last = .dollar && char = '\x7b') then further
  else if char = '\\' || char = '$' then further
  else
    match mark with
    | some quote =>
        if char = quote then (⟨.closed, words ++ [wordOf raw]⟩, []) else further
    | none =>
        if isBlank char || char = ';' || char = '\x7b' then
          finish (words ++ [wordOf raw]) char
        else
          further

def step (reader : Reader) (char : Char) : Option (Reader × List Event) :=
  match reader.place with
  | .between => stepBetween reader.words char
  | .comment => some (if char = '\n' then ready reader.words else reader, [])
  | .word mark raw last => some (stepWord reader.words mark raw last char)
  | .closed =>
      if isBlank char || char = ';' || char = '\x7b' then some (finish reader.words char)
      else if char = ')' then stepBetween reader.words char
      else none

def run (reader : Reader) : List Char → Option (Reader × List Event)
  | [] => some (reader, [])
  | char :: rest => do
      let (next, events) ← step reader char
      let (final, more) ← run next rest
      pure (final, events ++ more)

def Reader.complete (reader : Reader) : Bool :=
  reader.words = [] && (reader.place = .between || reader.place = .comment)

/-- A statement of the text, with the statements of its block. -/
inductive Statement where
  | simple (words : List String)
  | block (words : List String) (body : List Statement)
  deriving Repr

mutual

def Statement.decEq : (left right : Statement) → Decidable (left = right)
  | .simple words, .simple others => decidable_of_iff (words = others) (by simp)
  | .block words body, .block others otherBody =>
      have := decEqStatements body otherBody
      decidable_of_iff (words = others ∧ body = otherBody) (by simp)
  | .simple _, .block _ _ => isFalse (by simp)
  | .block _ _, .simple _ => isFalse (by simp)

def decEqStatements : (left right : List Statement) → Decidable (left = right)
  | [], [] => isTrue rfl
  | first :: rest, other :: others =>
      have := Statement.decEq first other
      have := decEqStatements rest others
      decidable_of_iff (first = other ∧ rest = others) (by simp)
  | [], _ :: _ => isFalse (by simp)
  | _ :: _, [] => isFalse (by simp)

end

instance : DecidableEq Statement := Statement.decEq

/--
Put the statements into their blocks.  The open blocks are kept with their
words and with the statements that stand before them.
-/
def nest : List Event → List Statement → List (List String × List Statement) →
    Option (List Statement)
  | [], done, [] => some done
  | [], _, _ :: _ => none
  | .simple words :: rest, done, enclosing => nest rest (done ++ [.simple words]) enclosing
  | .opening words :: rest, done, enclosing => nest rest [] ((words, done) :: enclosing)
  | .closing :: rest, done, (words, before) :: enclosing =>
      nest rest (before ++ [.block words done]) enclosing
  | .closing :: _, _, [] => none

def parse (text : String) : Option (List Statement) := do
  let (final, events) ← run (ready []) text.toList
  if final.complete then nest events [] [] else none

/-! ## Runs -/

theorem run_append (reader : Reader) (left right : List Char) :
    run reader (left ++ right) = (run reader left).bind fun first =>
      (run first.1 right).map fun second => (second.1, first.2 ++ second.2) := by
  induction left generalizing reader with
  | nil => cases read : run reader right <;> simp [run, read]
  | cons char rest induction =>
      rw [List.cons_append, run, run]
      cases step reader char with
      | none => rfl
      | some result =>
          simp only [Option.bind_eq_bind, Option.bind_some, induction]
          cases run result.1 rest with
          | none => rfl
          | some middle =>
              simp only [Option.bind_some, Option.pure_def]
              cases run middle.1 right with
              | none => rfl
              | some final => simp

theorem run_seq {reader middle final : Reader} {left right : List Char}
    {events more : List Event} (first : run reader left = some (middle, events))
    (second : run middle right = some (final, more)) :
    run reader (left ++ right) = some (final, events ++ more) := by
  rw [run_append, first]
  simp [second]

variable {char : Char}

theorem run_single {reader next : Reader} {events : List Event}
    (stepped : step reader char = some (next, events)) :
    run reader [char] = some (next, events) := by
  simp [run, stepped]

theorem run_blanks {blanks : List Char} (allBlank : ∀ char ∈ blanks, isBlank char)
    (words : List String) : run (ready words) blanks = some (ready words, []) := by
  induction blanks with
  | nil => rfl
  | cons char rest induction =>
      have blank : isBlank char := allBlank char List.mem_cons_self
      have skipped : step (ready words) char = some (ready words, []) := by
        simp [step, ready, stepBetween, blank]
      exact run_seq (run_single skipped)
        (induction fun other member => allBlank other (List.mem_cons_of_mem _ member))

/-! ## Words -/

/--
The reader has read a whole word: a blank would add it to the words, and an end
would close the statement with it.
-/
structure Complete (reader : Reader) (words : List String) : Prop where
  blank : step reader ' ' = some (ready words, [])
  ended : step reader ';' = some (ready [], [.simple words])

/-- A character that can neither end nor quote a word. -/
def isInner (char : Char) : Bool :=
  !(isBlank char || char = ';' || char = '\x7b' || char = '\x7d' || char = '"' ||
    char = '\'' || char = '#')

theorem stepWord_inner (inner : isInner char) (words : List String) (raw : List Char)
    (last : Last) :
    stepWord words none raw last char =
      (⟨.word none (raw ++ [char]) (last.next char), words⟩, []) := by
  have ends : ¬(isBlank char || decide (char = ';') || decide (char = '\x7b')) := by
    intro ending
    revert inner
    rcases Bool.or_eq_true _ _ |>.mp ending with blankOrEnd | brace
    · simp [isInner, blankOrEnd]
    · simp [isInner, of_decide_eq_true brace]
  simp [stepWord, ends]

variable {chars : List Char}

theorem run_inner (inner : ∀ char ∈ chars, isInner char) (words : List String) (raw : List Char)
    (last : Last) :
    run ⟨.word none raw last, words⟩ chars =
      some (⟨.word none (raw ++ chars) (chars.foldl Last.next last), words⟩, []) := by
  induction chars generalizing raw last with
  | nil => simp [run]
  | cons char rest induction =>
      have stepped : step ⟨.word none raw last, words⟩ char =
          some (⟨.word none (raw ++ [char]) (last.next char), words⟩, []) := by
        simp [step, stepWord_inner (inner char List.mem_cons_self)]
      have further := induction
        (fun other member => inner other (List.mem_cons_of_mem _ member))
        (raw ++ [char]) (last.next char)
      simpa using run_seq (run_single stepped) further

/-- A word is complete unless its last character is a backslash that escapes the next. -/
theorem complete_word {last : Last} (unescaped : last ≠ .backslash) (words : List String)
    (raw : List Char) :
    Complete ⟨.word none raw last, words⟩ (words ++ [wordOf raw]) := by
  constructor <;> simp [step, stepWord, unescaped, finish, isBlank, ready]

theorem run_bare (nonempty : chars ≠ []) (inner : ∀ char ∈ chars, isInner char)
    (unescaped : chars.foldl Last.next .plain ≠ .backslash) (words : List String) :
    ∃ reader, run (ready words) chars = some (reader, []) ∧
      Complete reader (words ++ [wordOf chars]) := by
  cases chars with
  | nil => exact absurd rfl nonempty
  | cons char rest =>
      have started : step (ready words) char =
          some (⟨.word none [char] (Last.next .plain char), words⟩, []) := by
        have first := inner char List.mem_cons_self
        simp only [isInner, Bool.not_eq_true', Bool.or_eq_false_iff,
          decide_eq_false_iff_not] at first
        simp [step, ready, stepBetween, first]
      have further := run_inner
        (fun other member => inner other (List.mem_cons_of_mem _ member))
        words [char] (Last.next .plain char)
      exact ⟨_, run_seq (run_single started) further, complete_word unescaped words _⟩

theorem Last.next_ne_backslash {last : Last} (plain : char ≠ '\\') :
    last.next char ≠ .backslash := by
  unfold Last.next
  grind

theorem foldl_next_ne_backslash (plain : '\\' ∉ chars) {last : Last}
    (unescaped : last ≠ .backslash) : chars.foldl Last.next last ≠ .backslash := by
  induction chars generalizing last with
  | nil => exact unescaped
  | cons char rest induction =>
      simp only [List.mem_cons, not_or] at plain
      exact induction plain.2 (Last.next_ne_backslash fun same => plain.1 same.symm)

def trailing (chars : List Char) : Nat := (chars.reverse.takeWhile (· = '\\')).length

theorem foldl_next_backslash_iff (chars : List Char) :
    chars.foldl Last.next .plain = .backslash ↔ trailing chars % 2 = 1 := by
  induction chars using List.reverseRecOn with
  | nil => simp [trailing]
  | append_singleton before char induction =>
      rw [List.foldl_append, List.foldl_cons, List.foldl_nil]
      by_cases backslash : char = '\\'
      · have longer : trailing (before ++ [char]) = trailing before + 1 := by
          simp [trailing, backslash]
        have toggled : (before.foldl Last.next .plain).next char = .backslash ↔
            before.foldl Last.next .plain ≠ .backslash := by
          cases before.foldl Last.next .plain <;> simp [Last.next, backslash]
        rw [toggled, longer, Ne, induction]
        omega
      · have none : trailing (before ++ [char]) = 0 := by simp [trailing, backslash]
        rw [none]
        exact ⟨fun escaping => absurd escaping (Last.next_ne_backslash backslash), by simp⟩

/-! ## Quoted words -/

/-- Write a backslash before backslashes and double quotes. -/
def escaped (chars : List Char) : List Char :=
  chars.flatMap fun char =>
    if char = '\\' then ['\\', '\\'] else if char = '"' then ['\\', '"'] else [char]

theorem unescape_cons (plain : char ≠ '\\') (rest : List Char) :
    unescape (char :: rest) = char :: unescape rest := by
  cases rest with
  | nil => rfl
  | cons second rest => simp [unescape, plain]

theorem unescape_escaped (chars : List Char) : unescape (escaped chars) = chars := by
  induction chars with
  | nil => rfl
  | cons char rest induction =>
      rw [escaped, List.flatMap_cons, ← escaped]
      by_cases backslash : char = '\\'
      · simp [backslash, unescape, decoded, induction]
      · by_cases quote : char = '"'
        · simp [quote, unescape, decoded, induction]
        · simp [backslash, quote, unescape_cons, induction]

/-- Does a backslash stand before a character that it is decoded with? -/
def hasPair : List Char → Bool
  | first :: second :: rest =>
      (first = '\\' && (decoded second).isSome) || hasPair (second :: rest)
  | _ => false

theorem unescape_of_hasPair_eq_false (noPair : hasPair chars = false) : unescape chars = chars := by
  fun_induction unescape chars with
  | case1 | case2 => rfl
  | case3 second rest char decodes induction => simp [hasPair, decodes] at noPair
  | case4 second rest decodes induction =>
      simp only [hasPair, decodes, Bool.or_eq_false_iff] at noPair
      rw [induction noPair.2]
  | case5 first second rest plain induction =>
      simp only [hasPair, Bool.or_eq_false_iff] at noPair
      rw [induction noPair.2]

theorem hasPair_of_notMem (plain : '\\' ∉ chars) : hasPair chars = false := by
  fun_induction hasPair chars with
  | case1 first second rest induction =>
      simp only [List.mem_cons, not_or] at plain induction
      simp [induction plain.2, Ne.symm plain.1]
  | case2 => rfl

theorem run_plain (nonempty : chars ≠ []) (inner : ∀ char ∈ chars, isInner char)
    (plain : '\\' ∉ chars) (words : List String) :
    ∃ reader, run (ready words) chars = some (reader, []) ∧
      Complete reader (words ++ [String.ofList chars]) := by
  have read := run_bare nonempty inner (foldl_next_ne_backslash plain (by simp)) words
  rwa [wordOf, unescape_of_hasPair_eq_false (hasPair_of_notMem plain)] at read

theorem run_escaped (chars : List Char) {words : List String} {raw : List Char} {last : Last}
    (unescaped : last ≠ .backslash) :
    ∃ after, after ≠ Last.backslash ∧
      run ⟨.word (some '"') raw last, words⟩ (escaped chars) =
        some (⟨.word (some '"') (raw ++ escaped chars) after, words⟩, []) := by
  induction chars generalizing raw last with
  | nil => exact ⟨last, unescaped, by simp [escaped, run]⟩
  | cons char rest induction =>
      rw [escaped, List.flatMap_cons, ← escaped]
      by_cases special : char = '\\' ∨ char = '"'
      · -- The written backslash makes the reader take the next character as it is.
        obtain ⟨after, after_ne, further⟩ := @induction (raw ++ ['\\', char]) .plain (by simp)
        refine ⟨after, after_ne, ?_⟩
        have pair : run ⟨.word (some '"') raw last, words⟩ ['\\', char] =
            some (⟨.word (some '"') (raw ++ ['\\', char]) .plain, words⟩, []) := by
          cases last <;> simp_all [run, step, stepWord, Last.next]
        have written : (if char = '\\' then ['\\', '\\']
            else if char = '"' then ['\\', '"'] else [char]) = ['\\', char] := by
          rcases special with rfl | rfl <;> rfl
        rw [written]
        simpa using run_seq pair further
      · obtain ⟨notBackslash, notQuote⟩ := not_or.mp special
        have next_ne : last.next char ≠ .backslash := by
          cases last <;> simp_all [Last.next] <;> grind
        obtain ⟨after, after_ne, further⟩ := @induction (raw ++ [char]) (last.next char) next_ne
        refine ⟨after, after_ne, ?_⟩
        have single : run ⟨.word (some '"') raw last, words⟩ [char] =
            some (⟨.word (some '"') (raw ++ [char]) (last.next char), words⟩, []) := by
          apply run_single
          simp [step, stepWord, notQuote]
        simp only [notBackslash, notQuote, if_false]
        simpa using run_seq single further

theorem run_quoted (chars : List Char) (words : List String) :
    ∃ reader, run (ready words) ('"' :: escaped chars ++ ['"']) = some (reader, []) ∧
      Complete reader (words ++ [String.ofList chars]) := by
  obtain ⟨after, after_ne, inside⟩ :=
    @run_escaped chars words [] .plain (by simp)
  have opened : run (ready words) ['"'] =
      some (⟨.word (some '"') [] .plain, words⟩, []) := by
    apply run_single
    simp [step, ready, stepBetween, isBlank]
  have closes : run ⟨.word (some '"') ([] ++ escaped chars) after, words⟩ ['"'] =
      some (⟨.closed, words ++ [String.ofList chars]⟩, []) := by
    apply run_single
    simp [step, stepWord, after_ne, wordOf, unescape_escaped]
  refine ⟨_, run_seq (run_seq opened inside) closes, ?_⟩
  constructor <;> simp [step, isBlank, finish, ready]

/-! ## Nesting -/

mutual

def Statement.events : Statement → List Event
  | .simple words => [.simple words]
  | .block words body => .opening words :: eventsOf body ++ [.closing]

def eventsOf : List Statement → List Event
  | [] => []
  | first :: rest => first.events ++ eventsOf rest

end

mutual

theorem nest_statement (statement : Statement) (rest : List Event) (done : List Statement)
    (enclosing : List (List String × List Statement)) :
    nest (statement.events ++ rest) done enclosing =
      nest rest (done ++ [statement]) enclosing := by
  cases statement with
  | simple words => simp [Statement.events, nest]
  | block words body =>
      have inside := nest_eventsOf body (.closing :: rest) [] ((words, done) :: enclosing)
      simpa [Statement.events, nest] using inside

theorem nest_eventsOf (statements : List Statement) (rest : List Event)
    (done : List Statement) (enclosing : List (List String × List Statement)) :
    nest (eventsOf statements ++ rest) done enclosing =
      nest rest (done ++ statements) enclosing := by
  cases statements with
  | nil => simp [eventsOf]
  | cons first others =>
      have head := nest_statement first (eventsOf others ++ rest) done enclosing
      have tail := nest_eventsOf others rest (done ++ [first]) enclosing
      simpa [eventsOf] using head.trans tail

end

theorem parse_of_run {text : String} {statements : List Statement}
    (read : run (ready []) text.toList = some (ready [], eventsOf statements)) :
    parse text = some statements := by
  have nested := nest_eventsOf statements [] [] []
  simp only [List.append_nil, List.nil_append] at nested
  have finished : (ready []).complete = true := rfl
  simp only [parse, read, Option.bind_eq_bind, Option.bind_some, finished, if_true]
  rw [nested, nest]

end NginxLexer

end Barycenter
