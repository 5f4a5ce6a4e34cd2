import Barycenter.Foundation.SqlTokens

/-!
# Placeholders for SQLite

The statements of the store number their parameters with a dollar sign, and SQLite
numbers them with a question mark.  The scanner copies strings, quoted names and
comments, and puts a question mark where a dollar sign stands in front of a digit
anywhere else.
-/

namespace Barycenter.Placeholders

open SqlTokens

/-! ## The scanner -/

/-- The characters of a string behind its opening quote, up to and with the closing
one; a doubled quote does not close it. -/
def closing (mark : Char) : List Char → Nat
  | [] => 0
  | [_] => 1
  | char :: next :: rest =>
      if char = mark then if next = mark then 2 + closing mark rest else 1
      else 1 + closing mark (next :: rest)

/-- The characters of a block comment behind its opening, up to and with its end. -/
def ending : List Char → Nat
  | [] => 0
  | [_] => 1
  | char :: next :: rest =>
      if char = '*' ∧ next = '/' then 2 else 1 + ending (next :: rest)

def rewritePlaceholders : List Char → List Char
  | [] => []
  | char :: rest =>
      if char = '\'' ∨ char = '"' then
        char :: rest.take (closing char rest) ++
          rewritePlaceholders (rest.drop (closing char rest))
      else if char = '-' ∧ rest.head? = some '-' then
        char :: rest.takeWhile (· ≠ '\n') ++ rewritePlaceholders (rest.dropWhile (· ≠ '\n'))
      else if char = '/' ∧ rest.head? = some '*' then
        char :: '*' :: rest.tail.take (ending rest.tail) ++
          rewritePlaceholders (rest.tail.drop (ending rest.tail))
      else if char = '$' ∧ rest.head?.any Char.isDigit then
        '?' :: rest.takeWhile Char.isDigit ++ rewritePlaceholders (rest.dropWhile Char.isDigit)
      else char :: rewritePlaceholders rest
termination_by sql => sql.length
decreasing_by
  all_goals simp only [List.length_drop, List.length_tail, List.length_cons]
  · omega
  · exact Nat.lt_succ_of_le (List.dropWhile_suffix _).length_le
  · omega
  · exact Nat.lt_succ_of_le (List.dropWhile_suffix _).length_le
  · omega

/-! ## One character after the other -/

inductive Context where
  | plain
  | quoted (mark : Char)
  | line
  /-- Between the two characters that open or close a block comment. -/
  | opening
  | block
  | leaving

def Context.next : Context → Char → Option Char → Context
  | .plain, char, next =>
      if char = '\'' ∨ char = '"' then .quoted char
      else if char = '-' ∧ next = some '-' then .line
      else if char = '/' ∧ next = some '*' then .opening
      else .plain
  | .quoted mark, char, _ => if char = mark then .plain else .quoted mark
  | .line, char, _ => if char = '\n' then .plain else .line
  | .opening, _, _ => .block
  | .block, char, next => if char = '*' ∧ next = some '/' then .leaving else .block
  | .leaving, _, _ => .plain

def Context.put : Context → Char → Option Char → Char
  | .plain, char, next => if char = '$' ∧ next.any Char.isDigit then '?' else char
  | _, char, _ => char

def walk (context : Context) : List Char → List Char
  | [] => []
  | char :: rest => context.put char rest.head? :: walk (context.next char rest.head?) rest

variable {sql : List Char}

theorem walk_quoted {mark : Char} (quote : mark = '\'' ∨ mark = '"') (sql : List Char) : walk (.quoted mark) sql =
    sql.take (closing mark sql) ++ walk .plain (sql.drop (closing mark sql)) := by
  induction sql using closing.induct mark with
  | case1 => rfl
  | case2 char => simp [walk, closing, Context.put]
  | case3 rest induction =>
      have same : closing mark (mark :: mark :: rest) = 2 + closing mark rest := by simp [closing]
      rw [same, Nat.add_comm]
      rcases quote with rfl | rfl <;> simp [walk, Context.put, Context.next, induction]
  | case4 next rest single => simp [walk, closing, single, Context.put, Context.next]
  | case5 char next rest other induction =>
      rw [walk, closing, if_neg other, Nat.add_comm, List.take_succ_cons, List.drop_succ_cons,
        List.cons_append, ← induction]
      simp [Context.put, Context.next, other]

theorem walk_line (sql : List Char) : walk .line sql =
    sql.takeWhile (· ≠ '\n') ++ walk .plain (sql.dropWhile (· ≠ '\n')) := by
  induction sql with
  | nil => rfl
  | cons char rest induction =>
      by_cases ends : char = '\n'
      · subst ends
        simp [walk, Context.put, Context.next]
      · simp [walk, Context.put, Context.next, ends, induction]

theorem walk_block (sql : List Char) : walk .block sql =
    sql.take (ending sql) ++ walk .plain (sql.drop (ending sql)) := by
  induction sql using ending.induct with
  | case1 => rfl
  | case2 char => simp [walk, ending, Context.put]
  | case3 char next rest ends =>
      simp [walk, ending, ends, Context.put, Context.next]
  | case4 char next rest onward induction =>
      rw [walk, ending, if_neg onward, Nat.add_comm, List.take_succ_cons, List.drop_succ_cons,
        List.cons_append, ← induction]
      simp [Context.put, Context.next, onward]

theorem walk_digits (sql : List Char) : walk .plain sql =
    sql.takeWhile Char.isDigit ++ walk .plain (sql.dropWhile Char.isDigit) := by
  induction sql with
  | nil => rfl
  | cons char rest induction =>
      by_cases digit : char.isDigit = true
      · have other {mark : Char} (plain : mark.isDigit = false) : char ≠ mark := by
          rintro rfl
          simp [plain] at digit
        rw [List.takeWhile_cons_of_pos digit, List.dropWhile_cons_of_pos digit, List.cons_append,
          ← induction, walk]
        simp [Context.put, Context.next, @other '$' rfl, @other '\'' rfl, @other '"' rfl,
          @other '-' rfl, @other '/' rfl]
      · simp [digit]

theorem rewritePlaceholders_walk (sql : List Char) :
    rewritePlaceholders sql = walk .plain sql := by
  induction sql using rewritePlaceholders.induct with
  | case1 => simp [rewritePlaceholders, walk]
  | case2 char rest quote induction =>
      have other : char ≠ '$' := by rintro rfl; simp at quote
      rw [rewritePlaceholders, if_pos quote, induction, walk, List.cons_append, ← walk_quoted quote]
      simp [Context.put, Context.next, quote, other]
  | case3 char rest plain comment induction =>
      rw [rewritePlaceholders, if_neg plain, if_pos comment, induction, walk, List.cons_append,
        ← walk_line]
      simp [Context.put, Context.next, comment]
  | case4 char rest plain line comment induction =>
      obtain ⟨rfl, star⟩ := comment
      cases rest with
      | nil => simp at star
      | cons next more =>
          cases star
          simp only [List.tail_cons] at induction
          simp [rewritePlaceholders, walk, Context.put, Context.next, induction, walk_block]
  | case5 char rest plain line comment parameter induction =>
      obtain ⟨rfl, digit⟩ := parameter
      rw [rewritePlaceholders, if_neg plain, if_neg line, if_neg comment, if_pos ⟨rfl, digit⟩,
        induction, List.cons_append, ← walk_digits, walk]
      simp [Context.put, Context.next, digit]
  | case6 char rest plain line comment parameter induction =>
      rw [rewritePlaceholders, if_neg plain, if_neg line, if_neg comment, if_neg parameter,
        induction, walk]
      simp only [Context.put, Context.next, if_neg plain, if_neg line, if_neg comment,
        if_neg parameter]

/-! ## What the scanner keeps -/

variable {context : Context} {char mark : Char}

theorem put_kept (context : Context) (before : Option Char) :
    Kept char (context.put char before) := by
  cases context with
  | plain =>
      by_cases parameter : char = '$' ∧ before.any Char.isDigit
      · exact .inr ⟨parameter.1, by simp [Context.put, parameter]⟩
      · exact .inl (by simp only [Context.put, if_neg parameter])
  | _ => exact .inl rfl

theorem walk_kept (context : Context) (sql : List Char) :
    List.Forall₂ Kept sql (walk context sql) := by
  induction sql generalizing context with
  | nil => exact .nil
  | cons char rest induction => exact .cons (put_kept _ _) (induction _)

theorem next_put (context : Context) (char : Char) {before after : Option Char}
    (same : after = before ∨ before = some '$' ∧ after = some '?') :
    context.next (context.put char before) after = context.next char before ∧
      context.put (context.put char before) after = context.put char before := by
  rcases same with rfl | ⟨rfl, rfl⟩
  · cases context with
    | plain =>
        by_cases parameter : char = '$' ∧ after.any Char.isDigit
        · simp [Context.put, Context.next, parameter]
        · simp [Context.put, parameter]
    | _ => exact ⟨rfl, rfl⟩
  · cases context with
    | plain | block => simp [Context.put, Context.next]
    | _ => exact ⟨rfl, rfl⟩

theorem walk_walk (context : Context) (sql : List Char) :
    walk context (walk context sql) = walk context sql := by
  induction sql generalizing context with
  | nil => rfl
  | cons char rest induction =>
      obtain ⟨next, put⟩ := next_put context char
        (head_kept (walk_kept (context.next char rest.head?) rest))
      rw [walk, walk, next, put, induction]

theorem walk_takeWhile (context : Context) (sql : List Char) :
    (walk context sql).takeWhile (· ≠ '\x00') = walk context (sql.takeWhile (· ≠ '\x00')) := by
  induction sql generalizing context with
  | nil => rfl
  | cons char rest induction =>
      by_cases null : char = '\x00'
      · subst null
        have put : context.put '\x00' rest.head? = '\x00' :=
          (put_kept context rest.head?).eq (by decide)
        simp [walk, put]
      · have shown : context.put char rest.head? ≠ '\x00' := by
          rcases put_kept context rest.head? with same | ⟨-, same⟩
          · exact same ▸ null
          · simp [same]
        have reads : context.put char (rest.takeWhile (· ≠ '\x00')).head? =
              context.put char rest.head? ∧
            context.next char (rest.takeWhile (· ≠ '\x00')).head? =
              context.next char rest.head? := by
          rw [List.head?_takeWhile]
          cases rest.head? with
          | none => exact ⟨rfl, rfl⟩
          | some next =>
              by_cases ends : next = '\x00'
              · subst ends
                cases context <;> simp [Context.put, Context.next]
              · simp [Option.filter, ends]
        rw [List.takeWhile_cons_of_pos (by simpa using null), walk, walk, reads.1, reads.2,
          ← induction, List.takeWhile_cons_of_pos (by simpa using shown)]

/-! ## Tokens -/

/-- The context of the scanner where the tokenizer is at a place. -/
def contextOf : Place → Context
  | .quoted mark false | .through mark => .quoted mark
  | .line => .line
  | .star => .opening
  | .block closing => if closing then .leaving else .block
  | _ => .plain

def Literal : Place → Prop
  | .quoted mark _ => mark = '\'' ∨ mark = '"'
  | .through stop => stop = '\''
  | .line | .star | .block _ | .blob => True
  | _ => False

/-- The scanner copies with the tokenizer, or both are behind the literal. -/
def Along (context : Context) (char : Char) (next : Option Char) : Move → Prop
  | .on onward => Literal onward ∧ context.next char next = contextOf onward ∧
      context.put char next = char
  | .last => context.next char next = .plain ∧ context.put char next = char
  | .stop => context.next char next = Context.plain.next char next ∧
      context.put char next = Context.plain.put char next

variable {place : Place}

theorem Literal.step {next : Option Char} (literal : Literal place) :
    Along (contextOf place) char next (place.step char next) := by
  cases place with
  | quoted mark doubled =>
      have dollar : mark ≠ '$' := by
        rintro rfl
        simp [Literal] at literal
      cases doubled <;> simp only [Place.step] <;> split_ifs <;>
        simp_all [Along, Literal, contextOf, Context.next, Context.put]
  | through stop =>
      obtain rfl : stop = '\'' := literal
      simp only [Place.step]
      split_ifs with ends <;> simp [Along, Literal, contextOf, Context.next, Context.put, ends]
  | line =>
      simp only [Place.step]
      split_ifs with ends <;> simp [Along, Literal, contextOf, Context.next, Context.put, ends]
  | star => simp [Place.step, Along, Literal, contextOf, Context.next, Context.put]
  | block closing =>
      by_cases leaves : char = '*' ∧ next = some '/' <;> cases closing <;>
        simp [Place.step, Along, Literal, contextOf, Context.next, Context.put, leaves]
  | blob =>
      simp only [Place.step]
      split_ifs with opens <;> simp [Along, Literal, contextOf, Context.next, Context.put, opens]
  | _ => exact literal.elim

theorem walk_literal (literal : Literal place) (sql : List Char) :
    walk (contextOf place) sql = (run place sql).1 ++ walk .plain (run place sql).2 := by
  induction sql generalizing place with
  | nil => rfl
  | cons char rest induction =>
      have step : Along (contextOf place) char rest.head? (place.step char rest.head?) :=
        literal.step
      cases moved : place.step char rest.head? with simp only [moved, Along] at step
      | on onward =>
          obtain ⟨still, next, put⟩ := step
          simp only [walk, run, moved, next, put, Prod.map, id, List.cons_append,
            induction still]
      | stop =>
          simp only [walk, run, moved, step.1, step.2, List.nil_append]
      | last =>
          simp only [walk, run, moved, step.1, step.2, List.cons_append, List.nil_append]

/-- Neither in quotes nor in a comment nor in the parentheses of a parameter. -/
def Bare : Place → Prop
  | .quoted _ _ | .through _ | .line | .star | .block _ | .blob | .suffix => False
  | _ => True

theorem Bare.plain {next : Option Char} (bare : Bare place) (moves : place.step char next ≠ .stop) :
    Context.plain.next char next = .plain := by
  have stops (special : Char) (among : special = '\'' ∨ special = '"' ∨ special = '/') :
      place.step special next = .stop := by
    rcases among with rfl | rfl | rfl <;> cases place <;>
      simp_all [Bare, Place.step, behindNumber, isSpace, isIdChar, isDigitOrSeparator, pairs]
  have hyphen : place.step '-' (some '-') = .stop := by
    cases place <;>
      simp_all [Bare, Place.step, behindNumber, isSpace, isIdChar, isDigitOrSeparator, pairs]
  have other {special : Char} (among : special = '\'' ∨ special = '"' ∨ special = '/') :
      char ≠ special := by
    rintro rfl
    exact moves (stops _ among)
  have noComment : ¬(char = '-' ∧ next = some '-') := by
    rintro ⟨rfl, rfl⟩
    exact moves hyphen
  simp [Context.next, other, noComment]

theorem Bare.step {place onward : Place} {next : Option Char} (bare : Bare place)
    (moved : place.step char next = .on onward) (other : char ≠ '(') : Bare onward := by
  cases place <;> simp only [Place.step, behindNumber, reduceCtorEq] at moved <;>
    (try split_ifs at moved) <;> (try cases moved) <;> simp_all [Bare]

theorem Bare.dollar {place onward : Place} {before : Option Char} {next : Char} (bare : Bare place)
    (moved : place.step '$' before = .on onward) (named : isIdChar next = true)
    (behind : Option Char) : ∃ further, onward.step next behind = .on further := by
  have goesOn : onward = .word ∨ onward = .parameter true false := by
    cases place <;>
      simp_all [Bare, Place.step, behindNumber, isSpace, isIdChar, isDigitOrSeparator, pairs]
  rcases goesOn with rfl | rfl <;> simp [Place.step, named]

theorem Bare.dollar_last {before : Option Char} (bare : Bare place) :
    place.step '$' before ≠ .last := by
  cases place <;>
    simp_all [Bare, Place.step, behindNumber, isSpace, isIdChar, isDigitOrSeparator, pairs]

theorem isIdChar_digit (digit : char.isDigit = true) : isIdChar char = true := by
  simp [isIdChar, Char.isAlphanum, digit]

theorem walk_bare {place : Place} (bare : Bare place) (sql : List Char)
    (closed : '(' ∉ (run place sql).1)
    (single : ∀ digit, digit.isDigit = true → ¬['$', digit] <:+: (run place sql).1) :
    walk .plain sql = (run place sql).1 ++ walk .plain (run place sql).2 := by
  induction sql generalizing place with
  | nil => rfl
  | cons char rest induction =>
      cases moved : place.step char rest.head? with
      | stop => simp [run, moved]
      | last =>
          have plain := bare.plain (show place.step char rest.head? ≠ .stop by simp [moved])
          have dollar : char ≠ '$' := by
            rintro rfl
            exact bare.dollar_last moved
          simp [run, moved, walk, plain, Context.put, dollar]
      | on onward =>
          have plain := bare.plain (show place.step char rest.head? ≠ .stop by simp [moved])
          simp only [run, moved, Prod.map, id, List.mem_cons, not_or] at closed single ⊢
          have put : Context.plain.put char rest.head? = char := by
            simp only [Context.put, ite_eq_right_iff]
            rintro ⟨rfl, digit⟩
            cases rest with
            | nil => simp at digit
            | cons next more =>
                have digit : next.isDigit = true := by simpa using digit
                obtain ⟨further, goes⟩ := bare.dollar moved (isIdChar_digit digit) more.head?
                refine absurd ?_ (single next digit)
                simp only [run, goes, Prod.map]
                exact ⟨[], _, rfl⟩
          rw [walk, put, plain, List.cons_append,
            induction (bare.step moved (Ne.symm closed.1)) closed.2 fun digit isDigit inside =>
              single digit isDigit (inside.trans (List.suffix_cons _ _).isInfix)]

/-- How a string, a quoted name, a comment or a blob begins. -/
def Opens (first : Char) (second : Option Char) : Prop :=
  first = '\'' ∨ first = '"' ∨ first = '-' ∧ second = some '-' ∨
    first = '/' ∧ second = some '*' ∨ (first = 'x' ∨ first = 'X') ∧ second = some '\''

/-- A token that is no literal, no name in brackets or backticks and no parameter with
parentheses, and in which no parameter of its own begins. -/
structure Simple (first : Char) (more : List Char) : Prop where
  bracket : first ≠ '['
  backtick : first ≠ '\x60'
  suffix : '(' ∉ more
  single : ∀ digit, digit.isDigit = true → ¬['$', digit] <:+: more
  numbered : first = '$' → more.head?.any Char.isDigit = true → more.all Char.isDigit = true

def Lawful (token : List Char) : Prop :=
  ∀ first more, token = first :: more → Opens first more.head? ∨ Simple first more

/-- A numbered parameter has a question mark instead of its dollar sign. -/
def replaced (token : List Char) : List Char :=
  if token.head? = some '$' ∧ token.tail ≠ [] ∧ token.tail.all Char.isDigit then '?' :: token.tail
  else token

variable {rest : List Char}

theorem enter_literal (literal : Opens char (run (enter char rest) rest).1.head?) :
    Literal (enter char rest) ∧
      Context.plain.next char rest.head? = contextOf (enter char rest) := by
  have ahead {next : Char} (body : (run (enter char rest) rest).1.head? = some next) :
      rest.head? = some next := by
    rw [← run_append (enter char rest) rest, List.head?_append, body]
    rfl
  rcases literal with rfl | rfl | ⟨rfl, second⟩ | ⟨rfl, second⟩ | ⟨letter, second⟩
  · simp [enter, isSpace, Literal, contextOf, Context.next]
  · simp [enter, isSpace, Literal, contextOf, Context.next]
  · simp [enter, isSpace, Literal, contextOf, Context.next, ahead second]
  · have star := ahead second
    cases rest with
    | nil => simp at star
    | cons next more =>
        cases star
        cases more with
        | nil => simp [enter, isSpace, isIdChar, run, Place.step, pairs] at second
        | cons => simp [enter, isSpace, Literal, contextOf, Context.next]
  · rcases letter with rfl | rfl <;>
      simp [enter, isSpace, Literal, contextOf, Context.next, ahead second]

theorem Bare.choice {condition : Prop} [Decidable condition] {first second : Place}
    (holds : condition → Bare first) (other : Bare second) :
    Bare (if condition then first else second) := by
  split
  · exact holds ‹_›
  · exact other

theorem enter_bare (simple : Simple char (run (enter char rest) rest).1)
    (literal : ¬Opens char (run (enter char rest) rest).1.head?) : Bare (enter char rest) := by
  have line : ¬(char = '-' ∧ rest.head? = some '-') := by
    rintro ⟨rfl, second⟩
    obtain ⟨more, rfl⟩ := List.head?_eq_some_iff.mp second
    exact literal (by simp [Opens, enter, isSpace, run, Place.step])
  have comment : ¬(char = '/' ∧ rest.head? = some '*' ∧ rest.tail ≠ []) := by
    rintro ⟨rfl, second, onward⟩
    obtain ⟨more, rfl⟩ := List.head?_eq_some_iff.mp second
    refine literal ?_
    have star : enter '/' ('*' :: more) = .star := by
      simp only [List.tail_cons] at onward
      simp [enter, isSpace, onward]
    rw [star]
    simp [Opens, run, Place.step]
  have blob : ¬((char = 'x' ∨ char = 'X') ∧ rest.head? = some '\'') := by
    rintro ⟨letter, second⟩
    obtain ⟨more, rfl⟩ := List.head?_eq_some_iff.mp second
    refine literal ?_
    rcases letter with rfl | rfl <;> simp [Opens, enter, isSpace, run, Place.step]
  have quote : ¬(char = '\'' ∨ char = '"' ∨ char = '\x60') := by
    rintro (rfl | rfl | rfl)
    · exact literal (.inl rfl)
    · exact literal (.inr (.inl rfl))
    · exact simple.backtick rfl
  unfold enter
  refine .choice (fun _ => .intro) ?_
  refine .choice (fun holds => (line holds).elim) ?_
  refine .choice (fun holds => (comment holds).elim) ?_
  refine .choice (fun holds => (quote holds).elim) ?_
  refine .choice (fun holds => (simple.bracket holds).elim) ?_
  iterate 4 refine .choice (fun _ => .intro) ?_
  refine .choice (fun holds => (blob holds).elim) ?_
  iterate 2 refine .choice (fun _ => .intro) ?_
  exact .intro

theorem start_bare (bare : Bare (enter char rest)) :
    walk .plain (char :: rest) = Context.plain.put char rest.head? :: walk .plain rest := by
  have quote : ¬(char = '\'' ∨ char = '"') := by
    rintro (rfl | rfl) <;> simp [enter, isSpace, Bare] at bare
  have line : ¬(char = '-' ∧ rest.head? = some '-') := by
    rintro ⟨rfl, second⟩
    simp [enter, isSpace, Bare, second] at bare
  by_cases comment : char = '/' ∧ rest.head? = some '*'
  · obtain ⟨rfl, second⟩ := comment
    obtain ⟨more, rfl⟩ := List.head?_eq_some_iff.mp second
    cases more with
    | nil => simp [walk, Context.next, Context.put]
    | cons => simp [enter, isSpace, Bare] at bare
  · rw [walk, Context.next, if_neg quote, if_neg line, if_neg comment]

theorem run_digits {body more : List Char} (digits : body.all Char.isDigit = true)
    (ends : more.head?.any Char.isDigit = false) : run .digits (body ++ more) = (body, more) := by
  induction body with
  | nil =>
      cases more with
      | nil => rfl
      | cons char rest =>
          have other : char.isDigit = false := by simpa using ends
          simp [run, Place.step, other]
  | cons char rest induction =>
      simp only [List.all_cons, Bool.and_eq_true] at digits
      simp [run, Place.step, digits.1, induction digits.2]

theorem parameter_digits {named : Bool}
    (digits : (run (.parameter named false) rest).1.all Char.isDigit = true) :
    (run (.parameter named false) rest).2.head?.any Char.isDigit = false := by
  induction rest generalizing named with
  | nil => rfl
  | cons char more induction =>
      by_cases id : isIdChar char = true
      · simp only [run, Place.step, Bool.false_eq_true, false_and, if_false, id, if_true,
          Prod.map, List.all_cons, Bool.and_eq_true] at digits ⊢
        exact induction digits.2
      · have other : char.isDigit = false := by
          by_contra digit
          exact id (isIdChar_digit (by simpa using digit))
        cases moved : (Place.parameter named false).step char more.head? with
        | stop => simp [run, moved, other]
        | last | on onward => simp [run, moved, other] at digits

theorem token_walk (lawful : Lawful (char :: (run (enter char rest) rest).1)) :
    ∃ first, walk .plain (char :: rest) =
        first :: (run (enter char rest) rest).1 ++ walk .plain (run (enter char rest) rest).2 ∧
      replaced (char :: (run (enter char rest) rest).1) = first :: (run (enter char rest) rest).1 ∧
      ∀ text, text = (run (enter char rest) rest).1 ++ walk .plain (run (enter char rest) rest).2 →
        run (enter first text) text =
          ((run (enter char rest) rest).1, walk .plain (run (enter char rest) rest).2) := by
  have same := token_kept (walk_kept .plain (run (enter char rest) rest).2)
  by_cases literal : Opens char (run (enter char rest) rest).1.head?
  · obtain ⟨isLiteral, next⟩ := enter_literal literal
    have dollar : char ≠ '$' := by
      rintro rfl
      simp [Opens] at literal
    refine ⟨char, ?_, by simp [replaced, dollar], ?_⟩
    · rw [walk, next, walk_literal isLiteral]
      simp [Context.put, dollar]
    · rintro _ rfl
      exact same
  · have simple := (lawful _ _ rfl).resolve_left literal
    have bare := enter_bare simple literal
    have copied := walk_bare bare rest simple.suffix simple.single
    by_cases parameter : char = '$' ∧ rest.head?.any Char.isDigit = true
    · obtain ⟨rfl, digit⟩ := parameter
      have place : enter '$' rest = .parameter false false := by simp [enter, isSpace]
      have begins : ∃ first more, (run (enter '$' rest) rest).1 = first :: more ∧
          first.isDigit = true := by
        cases rest with
        | nil => simp at digit
        | cons first more =>
            have digit : first.isDigit = true := by simpa using digit
            exact ⟨first, _, by simp [place, run, Place.step, isIdChar_digit digit]; rfl, digit⟩
      obtain ⟨first, more, body, firstDigit⟩ := begins
      have digits := simple.numbered rfl (by simp [body, firstDigit])
      refine ⟨'?', ?_, ?_, ?_⟩
      · rw [start_bare bare, copied]
        simp [Context.put, digit]
      · rw [replaced, if_pos ⟨rfl, by simp [body], digits⟩]
        rfl
      · rintro text rfl
        have ends := parameter_digits (place ▸ digits)
        have question (text : List Char) : enter '?' text = .digits := by simp [enter, isSpace]
        rw [question]
        refine run_digits digits ?_
        rw [place]
        rcases head_kept (walk_kept .plain (run (.parameter false false) rest).2) with
          head | ⟨-, head⟩
        · rw [head, ends]
        · simp [head]
    · refine ⟨char, ?_, ?_, ?_⟩
      · rw [start_bare bare, copied]
        simp [Context.put, parameter]
      · have kept : ¬((char :: (run (enter char rest) rest).1).head? = some '$' ∧
            (run (enter char rest) rest).1 ≠ [] ∧
            (run (enter char rest) rest).1.all Char.isDigit = true) := by
          rintro ⟨dollar, filled, digits⟩
          obtain ⟨first, more, body⟩ := List.exists_cons_of_ne_nil filled
          refine parameter ⟨by simpa using dollar, ?_⟩
          rw [← run_append (enter char rest) rest, body]
          simp only [body, List.all_cons, Bool.and_eq_true] at digits
          simp [digits.1]
        rw [replaced, List.tail_cons, if_neg kept]
      · rintro _ rfl
        exact same

theorem split_walk {sql : List Char} (lawful : ∀ token ∈ split sql, Lawful token) :
    split (walk .plain sql) = (split sql).map replaced := by
  induction sql using split.induct with
  | case1 => simp [split, walk]
  | case2 char rest token induction =>
      simp only [split, List.forall_mem_cons, List.map_cons] at lawful ⊢
      obtain ⟨first, written, shown, again⟩ := token_walk lawful.1
      rw [written, List.cons_append, split, again _ rfl, shown, induction lawful.2]

/-- A lawful text has the same tokens, with its parameters replaced; whatever the text,
only dollar signs are exchanged, and a second time changes nothing. -/
theorem placeholders_rewritten :
    (∀ sql, (∀ token ∈ tokens sql, Lawful token) →
        tokens (rewritePlaceholders sql) = (tokens sql).map replaced) ∧
      (∀ sql, rewritePlaceholders (rewritePlaceholders sql) = rewritePlaceholders sql) ∧
      ∀ sql, List.Forall₂ Kept sql (rewritePlaceholders sql) := by
  refine ⟨fun sql lawful => ?_, fun sql => ?_, fun sql => ?_⟩
  · rw [tokens, rewritePlaceholders_walk, walk_takeWhile]
    exact split_walk lawful
  · simp only [rewritePlaceholders_walk, walk_walk]
  · rw [rewritePlaceholders_walk]
    exact walk_kept .plain sql

theorem tokens_parameter : tokens ['=', '$', '1'] = [['='], ['$', '1']] := by
  simp [tokens, split, enter, run, Place.step, isSpace, isIdChar, pairs]

theorem placeholders_rewritten_once :
    tokens (rewritePlaceholders ['=', '$', '1']) = [['='], ['?', '1']] := by
  rw [placeholders_rewritten.1 _ _, tokens_parameter]
  · decide
  · rw [tokens_parameter]
    intro token member first more parts
    right
    have short (text : List Char) (few : text.length < 2) (digit : Char) :
        ¬['$', digit] <:+: text := fun inside => by
      have longer := inside.length_le
      simp only [List.length_cons, List.length_nil] at longer
      omega
    simp only [List.mem_cons, List.not_mem_nil, or_false] at member
    rcases member with rfl | rfl
    · obtain ⟨rfl, rfl⟩ := List.cons.inj parts
      exact ⟨by decide, by decide, by decide, fun digit _ => short _ (by decide) digit, by decide⟩
    · obtain ⟨rfl, rfl⟩ := List.cons.inj parts
      exact ⟨by decide, by decide, by decide, fun digit _ => short _ (by decide) digit, by decide⟩

/-- A letter behind the digits belongs to the parameter, but not to the question mark. -/
theorem letter_behind_digits :
    ¬∀ sql, (∀ token ∈ tokens sql, token.head? ≠ some '[' ∧ token.head? ≠ some '\x60' ∧
          '$' ∉ token.tail) →
        tokens (rewritePlaceholders sql) = (tokens sql).map replaced := by
  intro faithful
  have whole : tokens ['$', '1', 'a'] = [['$', '1', 'a']] := by
    simp [tokens, split, enter, run, Place.step, isSpace, isIdChar]
  have written : rewritePlaceholders ['$', '1', 'a'] = ['?', '1', 'a'] := by
    rw [rewritePlaceholders_walk]
    decide
  have apart : tokens ['?', '1', 'a'] = [['?', '1'], ['a']] := by
    simp [tokens, split, enter, run, Place.step, isSpace]
  have same := faithful ['$', '1', 'a'] (by rw [whole]; decide)
  rw [written, whole, apart] at same
  exact absurd same (by decide)

end Barycenter.Placeholders
