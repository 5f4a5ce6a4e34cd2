import Barycenter.Conf.Ast
import Barycenter.Foundation.NginxLexer

/-!
# The serialised text is read as the tree

Every value is written so that the reader takes it as one word: numbers,
variables and unquoted literals contain nothing that ends a word, quoted
literals escape what would, and a regular expression is kept from ending in an
open backslash by its constructor.  A regular expression is written as it is,
so it loses its backslash pairs to the reader, and an empty one is no word at
all.  A Lua body is code and is not read by these rules.
-/

namespace Barycenter

namespace Conf

open NginxLexer

def ConfValue.text : ConfValue → String
  | .number value _ => value.text
  | .variableNamed name _ => "$" ++ name
  | .regex pattern _ => pattern
  | .literal text _ => text

def ConfValue.word : ConfValue → String
  | .regex pattern _ => wordOf pattern.toList
  | value => value.text

def ConfValue.isEmptyRegex : ConfValue → Bool
  | .regex pattern _ => pattern = ""
  | _ => false

/-- A regular expression whose text the reader changes: an empty one, or one with a pair. -/
def ConfValue.isMisread : ConfValue → Bool
  | .regex pattern _ => pattern = "" || hasPair pattern.toList
  | _ => false

mutual

/-- The statement of a node, with its values as texts.  A Lua block has no values. -/
def ConfNode.statement (textOf : ConfValue → String) : ConfNode → Statement
  | .directive name _ args => .simple (name :: args.map textOf)
  | .block name _ args children =>
      .block (name :: args.map textOf) (statements textOf children)
  | .entry key value => .simple [textOf key, textOf value]
  | .lua name _ _ _ => .block [name] []

def statements (textOf : ConfValue → String) : List ConfNode → List Statement
  | [] => []
  | first :: rest => first.statement textOf :: statements textOf rest

end

mutual

/-- No Lua block is in the tree, and no value fails the test. -/
def ConfNode.free (fails : ConfValue → Bool) : ConfNode → Bool
  | .directive _ _ args => args.all fun arg => !fails arg
  | .block _ _ args children => (args.all fun arg => !fails arg) && allFree fails children
  | .entry key value => !fails key && !fails value
  | .lua .. => false

def allFree (fails : ConfValue → Bool) : List ConfNode → Bool
  | [] => true
  | first :: rest => first.free fails && allFree fails rest

end

/-! ## Characters of the values -/

variable {char : Char}

theorem isSpace_of_isBlank (blank : isBlank char) : isSpace char := by
  simp only [isBlank, Bool.or_eq_true, decide_eq_true_eq] at blank
  rcases blank with ((rfl | rfl) | rfl) | rfl <;> rfl

theorem isInner_of_isDelimiter (inside : isDelimiter char = false) : isInner char := by
  simp only [isDelimiter, Bool.or_eq_false_iff] at inside
  have notBlank : isBlank char = false := by
    by_contra blank
    have space := isSpace_of_isBlank (by simpa using blank)
    simp [space] at inside
  simp [isInner, notBlank, inside]

def isOrdinary (char : Char) : Bool := isInner char && char ≠ '\\'

theorem isInner_of_isOrdinary {chars : List Char} (ordinary : ∀ char ∈ chars, isOrdinary char) :
    ∀ char ∈ chars, isInner char := by
  intro char member
  have both := ordinary char member
  simp only [isOrdinary, Bool.and_eq_true] at both
  exact both.1

theorem notMem_of_isOrdinary {chars : List Char} (ordinary : ∀ char ∈ chars, isOrdinary char) :
    '\\' ∉ chars := by
  intro member
  have both := ordinary _ member
  simp [isOrdinary] at both

theorem isOrdinary_of_isNameChar (named : isNameChar char) : isOrdinary char := by
  by_contra other
  have special : char ∈ [' ', '\t', '\r', '\n', ';', '\x7b', '\x7d', '"', '\'', '#', '\\'] := by
    simp only [isOrdinary, isInner, isBlank] at other
    simp at other ⊢
    grind
  have unnamed : [' ', '\t', '\r', '\n', ';', '\x7b', '\x7d', '"', '\'', '#', '\\'].all
      (fun char => !isNameChar char) = true := by decide
  have absent := List.all_eq_true.mp unnamed char special
  simp [named] at absent

variable {name : String}

theorem isOrdinary_of_isName (named : isName name = true) :
    ∀ char ∈ name.toList, isOrdinary char := by
  unfold isName at named
  split at named
  · simp at named
  · rename_i first rest chars
    simp only [Bool.and_eq_true, List.all_eq_true] at named
    intro char member
    rw [chars] at member
    refine isOrdinary_of_isNameChar ?_
    rcases List.mem_cons.mp member with rfl | inRest
    · simp [isNameChar, named.1]
    · exact named.2 char inRest

theorem toList_ne_nil_of_isName (named : isName name = true) : name.toList ≠ [] := by
  intro empty
  simp [isName, empty] at named

/-! ## The text of a number -/

theorem isOrdinary_digitChar (digit : Fin 10) : isOrdinary (digitChar digit) := by
  revert digit
  decide

theorem isOrdinary_numeral {number : Nat} (member : char ∈ numeral number) : isOrdinary char := by
  have digit : char.isDigit = true :=
    Nat.isDigit_of_mem_toDigits (b := 10) (by decide) (by decide)
      (by simpa [numeral] using member)
  refine isOrdinary_of_isNameChar ?_
  simpa [isNameChar, Char.isDigit, Char.le_def] using Or.inr digit

theorem isOrdinary_decimalText {digits : List Char}
    (ordinary : ∀ char ∈ digits, isOrdinary char) (point : Int) :
    ∀ char ∈ decimalText digits point, isOrdinary char := by
  have zero : isOrdinary '0' := by decide
  have dot : isOrdinary '.' := by decide
  have letter : isOrdinary 'e' := by decide
  have plus : isOrdinary '+' := by decide
  have minus : isOrdinary '-' := by decide
  have exponent : ∀ char ∈ 'e' :: (if 0 < point - 1 then '+' else '-') ::
      numeral (point - 1).natAbs, isOrdinary char := by
    intro char member
    simp only [List.mem_cons] at member
    rcases member with rfl | rfl | inNumeral
    · exact letter
    · split
      · exact plus
      · exact minus
    · exact isOrdinary_numeral inNumeral
  intro char member
  unfold decimalText at member
  dsimp only at member
  split at member
  · rcases List.mem_append.mp member with inDigits | inZeros
    · exact ordinary char inDigits
    · rw [(List.mem_replicate.mp inZeros).2]
      exact zero
  · split at member
    · rcases List.mem_append.mp member with before | behind
      · exact ordinary char (List.mem_of_mem_take before)
      · rcases List.mem_cons.mp behind with rfl | behind
        · exact dot
        · exact ordinary char (List.mem_of_mem_drop behind)
    · split at member
      · simp only [List.mem_cons, List.mem_append, List.mem_replicate] at member
        rcases member with rfl | rfl | ⟨-, rfl⟩ | inDigits
        · exact zero
        · exact dot
        · exact zero
        · exact ordinary char inDigits
      · split at member
        · rename_i first second rest
          rcases List.mem_append.mp member with inDigits | inExponent
          · simp only [List.mem_cons] at inDigits
            rcases inDigits with rfl | rfl | inRest
            · exact ordinary _ (by simp)
            · exact dot
            · exact ordinary char (by simpa using Or.inr inRest)
          · exact exponent char inExponent
        · rcases List.mem_append.mp member with inDigits | inExponent
          · exact ordinary char inDigits
          · exact exponent char inExponent

theorem isOrdinary_numberText {value : JsNumber} (finite : value.isFinite = true) :
    ∀ char ∈ value.text.toList, isOrdinary char := by
  cases value with
  | zero => exact List.all_eq_true.mp (by decide)
  | infinite | notANumber => simp [JsNumber.isFinite] at finite
  | finite negative first rest point =>
      intro char member
      simp only [JsNumber.text, String.toList_ofList, List.mem_append] at member
      rcases member with sign | inDigits
      · cases negative
        · simp at sign
        · rw [List.mem_singleton.mp sign]
          decide
      · refine isOrdinary_decimalText ?_ point char inDigits
        intro digit digitMember
        obtain ⟨value, -, rfl⟩ := List.mem_map.mp digitMember
        exact isOrdinary_digitChar value

theorem decimalText_ne_nil (first : Char) (rest : List Char) (point : Int) :
    decimalText (first :: rest) point ≠ [] := by
  unfold decimalText
  dsimp only
  split
  · simp
  · split
    · simp
    · split
      · simp
      · split <;> simp

theorem numberText_ne_nil {value : JsNumber} (finite : value.isFinite = true) :
    value.text.toList ≠ [] := by
  cases value with
  | zero => decide
  | infinite | notANumber => simp [JsNumber.isFinite] at finite
  | finite negative first rest point =>
      simp [JsNumber.text, decimalText_ne_nil]

/-! ## Values -/

theorem replaceChar_replaceChar (chars : List Char) :
    replaceChar '"' ['\\', '"'] (replaceChar '\\' ['\\', '\\'] chars) = escaped chars := by
  simp only [replaceChar, escaped, List.flatMap_assoc]
  congr 1
  funext char
  by_cases backslash : char = '\\'
  · simp [backslash]
  · simp [backslash]

variable {value : ConfValue}

theorem run_renderValue (nonempty : value.isEmptyRegex = false) (words : List String) :
    ∃ reader, run (ready words) (renderValue value).toList = some (reader, []) ∧
      Complete reader (words ++ [value.word]) := by
  cases value with
  | number value finite =>
      have ordinary := isOrdinary_numberText finite
      simpa [renderValue, ConfValue.word, ConfValue.text] using
        run_plain (numberText_ne_nil finite) (isInner_of_isOrdinary ordinary)
          (notMem_of_isOrdinary ordinary) words
  | variableNamed name named =>
      have ordinary : ∀ char ∈ ("$" ++ name).toList, isOrdinary char := by
        intro char member
        rw [String.toList_append, List.mem_append] at member
        rcases member with dollar | inName
        · rw [show char = '$' by simpa using dollar]
          decide
        · exact isOrdinary_of_isName named char inName
      simpa [renderValue, ConfValue.word, ConfValue.text] using
        run_plain (by simp) (isInner_of_isOrdinary ordinary)
          (notMem_of_isOrdinary ordinary) words
  | regex pattern allowed =>
      simp only [regexAllowed, Bool.and_eq_true, Bool.not_eq_true', Bool.or_eq_false_iff,
        List.any_eq_false, decide_eq_true_eq] at allowed
      obtain ⟨⟨-, undelimited⟩, paired⟩ := allowed
      have unescaped : pattern.toList.foldl Last.next .plain ≠ .backslash := by
        rw [Ne, foldl_next_backslash_iff]
        change ¬trailingBackslashes pattern % 2 = 1
        omega
      have written : pattern.toList ≠ [] := by
        simpa [ConfValue.isEmptyRegex] using nonempty
      exact run_bare written
        (fun char member => isInner_of_isDelimiter (by simpa using undelimited char member))
        unescaped words
  | literal text printable =>
      by_cases bare : 0 < text.length ∧ needsQuote text = false
      · obtain ⟨written, unquoted⟩ := bare
        have ordinary : ∀ char ∈ text.toList, isOrdinary char := by
          intro char member
          have allowed : (isDelimiter char || char = '\\') = false := by
            simpa using List.any_eq_false.mp unquoted char member
          obtain ⟨undelimited, notBackslash⟩ := Bool.or_eq_false_iff.mp allowed
          simpa [isOrdinary, isInner_of_isDelimiter undelimited] using notBackslash
        have nonemptyText : text.toList ≠ [] := by
          rintro empty
          rw [← String.length_toList, empty] at written
          simp at written
        simpa [renderValue, written, unquoted, ConfValue.word, ConfValue.text] using
          run_plain nonemptyText (isInner_of_isOrdinary ordinary)
            (notMem_of_isOrdinary ordinary) words
      · have quoted := run_quoted text.toList words
        simpa [renderValue, bare, replaceChar_replaceChar, ConfValue.word, ConfValue.text]
          using quoted

/-! ## Statements -/

theorem run_name (named : isName name = true) :
    ∃ reader, run (ready []) name.toList = some (reader, []) ∧ Complete reader [name] := by
  have ordinary := isOrdinary_of_isName named
  simpa using run_plain (toList_ne_nil_of_isName named) (isInner_of_isOrdinary ordinary)
    (notMem_of_isOrdinary ordinary) []

variable {reader : Reader} {words : List String}

theorem run_values {values : List ConfValue} (nonempty : ∀ value ∈ values, !value.isEmptyRegex)
    (complete : Complete reader words) :
    ∃ final, run reader (values.flatMap fun value => ' ' :: (renderValue value).toList) =
        some (final, []) ∧ Complete final (words ++ values.map ConfValue.word) := by
  induction values generalizing reader words with
  | nil => exact ⟨reader, rfl, by simpa using complete⟩
  | cons value rest induction =>
      obtain ⟨next, read, nextComplete⟩ := run_renderValue
        (by simpa using nonempty value List.mem_cons_self) words
      obtain ⟨final, further, finalComplete⟩ := induction
        (fun other member => nonempty other (List.mem_cons_of_mem _ member)) nextComplete
      refine ⟨final, ?_, by simpa using finalComplete⟩
      have spaced := run_seq (run_single complete.blank) read
      simpa using run_seq spaced further

theorem toList_head (name : String) (args : List ConfValue) :
    (head name args).toList =
      name.toList ++ args.flatMap fun value => ' ' :: (renderValue value).toList := by
  induction args generalizing name with
  | nil => simp [head]
  | cons value rest induction =>
      have shorter := induction (renderValue value)
      simp only [head] at shorter
      simp [head, shorter]

theorem run_head (named : isName name = true) {args : List ConfValue}
    (nonempty : ∀ value ∈ args, !value.isEmptyRegex) :
    ∃ reader, run (ready []) (head name args).toList = some (reader, []) ∧
      Complete reader (name :: args.map ConfValue.word) := by
  obtain ⟨middle, read, complete⟩ := run_name named
  obtain ⟨final, further, finalComplete⟩ := run_values nonempty complete
  refine ⟨final, ?_, by simpa using finalComplete⟩
  rw [toList_head]
  exact run_seq read further

theorem run_pad (depth : Nat) : run (ready []) (pad depth).toList = some (ready [], []) := by
  refine run_blanks ?_ []
  intro char member
  rw [pad, String.toList_ofList, List.mem_replicate] at member
  rw [member.2]
  rfl

theorem run_lineEnd : run (ready []) ['\n'] = some (ready [], []) :=
  run_blanks (List.all_eq_true.mp (by decide)) []

theorem run_semicolon (complete : Complete reader words) :
    run reader [';', '\n'] = some (ready [], [.simple words]) :=
  run_seq (run_single complete.ended) run_lineEnd

theorem run_brace (written : words ≠ []) (complete : Complete reader words) :
    run reader [' ', '\x7b', '\n'] = some (ready [], [.opening words]) := by
  have opened : step (ready words) '\x7b' = some (ready [], [.opening words]) := by
    simp [step, ready, stepBetween, isBlank, written, finish]
  exact run_seq (run_single complete.blank) (run_seq (run_single opened) run_lineEnd)

theorem run_closing :
    run (ready []) ['\x7d', '\n'] = some (ready [], [.closing]) := by
  have closed : step (ready []) '\x7d' = some (ready [], [.closing]) := rfl
  exact run_seq (run_single closed) run_lineEnd

mutual

theorem run_serializeNode (node : ConfNode) (depth : Nat)
    (free : node.free ConfValue.isEmptyRegex) :
    run (ready []) (serializeNode depth node).toList =
      some (ready [], (node.statement ConfValue.word).events) := by
  cases node with
  | directive name named args =>
      obtain ⟨reader, read, complete⟩ := run_head named
        (by simpa [ConfNode.free] using free)
      have line := run_seq (run_seq (run_pad depth) read) (run_semicolon complete)
      simpa [serializeNode, ConfNode.statement, Statement.events] using line
  | block name named args children =>
      simp only [ConfNode.free, Bool.and_eq_true] at free
      obtain ⟨reader, read, complete⟩ := run_head named (by simpa using free.1)
      have opened := run_seq (run_seq (run_pad depth) read) (run_brace (by simp) complete)
      have inside := run_serializeAt children (depth + 1) free.2
      have closed := run_seq (run_pad depth) run_closing
      have whole := run_seq (run_seq opened inside) closed
      simpa [serializeNode, ConfNode.statement, Statement.events] using whole
  | entry key value =>
      simp only [ConfNode.free, Bool.and_eq_true, Bool.not_eq_true'] at free
      obtain ⟨middle, read, keyComplete⟩ := run_renderValue free.1 []
      obtain ⟨reader, further, complete⟩ := run_renderValue free.2 [key.word]
      have line := run_seq (run_seq (run_seq (run_seq (run_pad depth) read)
        (run_single keyComplete.blank)) further) (run_semicolon complete)
      simpa [serializeNode, ConfNode.statement, Statement.events] using line
  | lua name named body balanced => simp [ConfNode.free] at free

theorem run_serializeAt (nodes : List ConfNode) (depth : Nat)
    (free : allFree ConfValue.isEmptyRegex nodes) :
    run (ready []) (serializeAt depth nodes).toList =
      some (ready [], eventsOf (statements ConfValue.word nodes)) := by
  cases nodes with
  | nil => rfl
  | cons first rest =>
      simp only [allFree, Bool.and_eq_true] at free
      have head := run_serializeNode first depth free.1
      have tail := run_serializeAt rest depth free.2
      simpa [serializeAt, statements, eventsOf] using run_seq head tail

end

/--
Without Lua blocks and empty regular expressions the names, the nesting and the
number of arguments are read back, and so is every argument up to the backslash
pairs of regular expressions.
-/
theorem parse_serialize {nodes : List ConfNode}
    (free : allFree ConfValue.isEmptyRegex nodes) :
    parse (serialize nodes) = some (statements ConfValue.word nodes) :=
  parse_of_run (run_serializeAt nodes 0 free)

/-! ## Values that the reader leaves as they are -/

theorem isEmptyRegex_of_isMisread (exact : value.isMisread = false) :
    value.isEmptyRegex = false := by
  cases value with
  | regex pattern allowed =>
      exact (Bool.or_eq_false_iff.mp exact).1
  | _ => rfl

theorem word_eq_text (exact : value.isMisread = false) : value.word = value.text := by
  cases value with
  | regex pattern allowed =>
      have noPair := (Bool.or_eq_false_iff.mp exact).2
      simp [ConfValue.word, ConfValue.text, wordOf, unescape_of_hasPair_eq_false noPair]
  | _ => rfl

theorem map_word_eq_map_text {values : List ConfValue}
    (exact : ∀ value ∈ values, value.isMisread = false) :
    values.map ConfValue.word = values.map ConfValue.text :=
  List.map_congr_left fun value member => word_eq_text (exact value member)

mutual

theorem statement_word_eq_text (node : ConfNode) (free : node.free ConfValue.isMisread) :
    node.free ConfValue.isEmptyRegex ∧
      node.statement ConfValue.word = node.statement ConfValue.text := by
  cases node with
  | directive name named args =>
      have exact : ∀ value ∈ args, value.isMisread = false := by
        simpa [ConfNode.free] using free
      refine ⟨?_, by simp [ConfNode.statement, map_word_eq_map_text exact]⟩
      simpa [ConfNode.free] using fun value member =>
        isEmptyRegex_of_isMisread (exact value member)
  | block name named args children =>
      simp only [ConfNode.free, Bool.and_eq_true] at free
      have exact : ∀ value ∈ args, value.isMisread = false := by simpa using free.1
      obtain ⟨childrenFree, children_eq⟩ := statements_word_eq_text children free.2
      refine ⟨?_, by simp [ConfNode.statement, map_word_eq_map_text exact, children_eq]⟩
      simpa [ConfNode.free, childrenFree] using fun value member =>
        isEmptyRegex_of_isMisread (exact value member)
  | entry key value =>
      simp only [ConfNode.free, Bool.and_eq_true, Bool.not_eq_true'] at free
      refine ⟨?_, by simp [ConfNode.statement, word_eq_text free.1, word_eq_text free.2]⟩
      simp [ConfNode.free, isEmptyRegex_of_isMisread free.1,
        isEmptyRegex_of_isMisread free.2]
  | lua name named body balanced => simp [ConfNode.free] at free

theorem statements_word_eq_text (nodes : List ConfNode)
    (free : allFree ConfValue.isMisread nodes) :
    allFree ConfValue.isEmptyRegex nodes ∧
      statements ConfValue.word nodes = statements ConfValue.text nodes := by
  cases nodes with
  | nil => exact ⟨rfl, rfl⟩
  | cons first rest =>
      simp only [allFree, Bool.and_eq_true] at free
      obtain ⟨firstFree, first_eq⟩ := statement_word_eq_text first free.1
      obtain ⟨restFree, rest_eq⟩ := statements_word_eq_text rest free.2
      exact ⟨by simp [allFree, firstFree, restFree], by simp [statements, first_eq, rest_eq]⟩

end

/--
The serialised text is read as exactly the names, the arguments and the nesting
of the tree.
-/
theorem serialize_reads_back (nodes : List ConfNode) (free : allFree ConfValue.isMisread nodes) :
    parse (serialize nodes) = some (statements ConfValue.text nodes) := by
  obtain ⟨emptyFree, same⟩ := statements_word_eq_text nodes free
  rw [parse_serialize emptyFree, same]

theorem zero_lt_ten : 0 < 10 := by decide

theorem two_lt_ten : 2 < 10 := by decide

/-- A block with a quoted, an unquoted, an empty and a regular value. -/
def sampleServer : List ConfNode :=
  [.block "server" rfl [] [
    .directive "server_name" rfl
      [.literal "a.example.com" rfl, .regex "~^[^.]+\\.example\\.com$" rfl],
    .directive "return" rfl
      [.number (.finite false ⟨2, two_lt_ten⟩ [⟨0, zero_lt_ten⟩, ⟨0, zero_lt_ten⟩] 3) rfl,
        .literal "\"; \x7d server \x7b #" rfl],
    .entry (.literal "" rfl) (.variableNamed "host" rfl)]]

theorem sampleServer_reads_back :
    parse (serialize sampleServer) = some (statements ConfValue.text sampleServer) :=
  serialize_reads_back sampleServer (by decide +kernel)

def emptyExpression : List ConfNode :=
  [.directive "rewrite" rfl [.literal "/a" rfl, .regex "" rfl]]

/-- A regular expression that ends in an escaped backslash. -/
def pairedExpression : List ConfNode :=
  [.entry (.regex "~^abc\\\\" rfl) (.literal "1" rfl)]

def luaReturn : List ConfNode :=
  [.lua "content_by_lua_block" rfl "return" rfl]

/--
The empty expression is lost, the escaped backslash becomes an open one, and the
body of a Lua block does not end before its closing brace.
-/
theorem serialize_misread :
    parse (serialize emptyExpression) = some [.simple ["rewrite", "/a"]] ∧
      parse (serialize pairedExpression) = some [.simple ["~^abc\\", "1"]] ∧
      parse (serialize luaReturn) = none ∧
      ¬∀ nodes : List ConfNode,
        parse (serialize nodes) = some (statements ConfValue.text nodes) := by
  refine ⟨?_, ?_, ?_, ?_⟩
  · decide +kernel
  · decide +kernel
  · decide +kernel
  · intro always
    have lost := always emptyExpression
    revert lost
    decide +kernel

end Conf

end Barycenter
