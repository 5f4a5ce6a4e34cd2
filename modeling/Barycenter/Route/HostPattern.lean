import Barycenter.Foundation.JsonText
import Barycenter.Foundation.TextOrder
import Mathlib.Data.List.TakeWhile

/-!
# Host names and host patterns

A pattern is one name or a wildcard for exactly one label in front of a suffix.
Both are normalised: lower case, no trailing dot, labels of letters, digits and
hyphens.  The conversion to lower case and the reading of a host by the URL
parser belong to the platform.
-/

namespace Barycenter

namespace Route

structure Platform where
  lowercase : String → String
  /-- The host name of the URL with this host; none when the parser rejects it. -/
  hostname : String → Option String

/-- A platform for names that are already in lower case. -/
def plainPlatform : Platform := ⟨id, some⟩

inductive ErrCode where
  | invalidHost
  | invalidHostPattern
  deriving DecidableEq, Repr

structure Refusal where
  code : ErrCode
  message : String
  deriving DecidableEq, Repr

def labelsOf (host : List Char) : List (List Char) := host.splitOn '.'

def isLowerOrDigit (char : Char) : Bool :=
  ('a' ≤ char && char ≤ 'z') || ('0' ≤ char && char ≤ '9')

/-- `HOST_RAW_ALLOWED` -/
def hostRawAllowed (char : Char) : Bool :=
  isLowerOrDigit char || ('A' ≤ char && char ≤ 'Z') || char = '.' || char = '-' ||
    0x80 ≤ char.toNat

/-- `LDH_LABEL` -/
def isLdhLabel (label : List Char) : Bool :=
  label.all (fun char => isLowerOrDigit char || char = '-') &&
    label.head?.any isLowerOrDigit && label.getLast?.any isLowerOrDigit

def looksLikeIpv4 (host : List Char) : Bool :=
  let groups := labelsOf host
  groups.length = 4 &&
    groups.all fun group => 1 ≤ group.length && group.length ≤ 3 &&
      group.all fun char => '0' ≤ char && char ≤ '9'

def labelMessage (label : List Char) : Option String :=
  if label.length = 0 then some "빈 라벨이 있다"
  else if 63 < label.length then some ("라벨이 63자를 넘었다: " ++ String.ofList label)
  else if !isLdhLabel label then some ("LDH 라벨이 아니다: " ++ String.ofList label)
  else none

def normalizeHost (platform : Platform) (input : String) : Except Refusal String :=
  let refuse (message : String) : Except Refusal String := .error ⟨.invalidHost, message⟩
  if input.toList.length = 0 then refuse "호스트가 비어 있다"
  else if !input.toList.all hostRawAllowed then
    refuse ("허용되지 않은 문자가 있다: " ++ JsonText.quoted input)
  else
    let lower := (platform.lowercase input).toList
    let host := if lower.getLast? = some '.' then lower.dropLast else lower
    if host.length = 0 then refuse "호스트가 점 하나뿐이다"
    else
      match platform.hostname (String.ofList host) with
      | none => refuse ("IDNA 변환에 실패했다: " ++ JsonText.quoted input)
      | some ascii =>
          if looksLikeIpv4 ascii.toList && ascii.toList ≠ host then
            refuse ("비정규 IPv4 표기다 (" ++ String.ofList host ++ " → " ++ ascii ++
              "). 점 4개 형태로 쓴다")
          else if ascii.toList.length = 0 then refuse "호스트를 해석할 수 없다"
          else if 253 < (Text.codeUnits ascii).length then
            refuse ("전체 길이 253자를 넘었다 (" ++
              toString (Text.codeUnits ascii).length ++ ")")
          else
            match (labelsOf ascii.toList).findSome? labelMessage with
            | some message => refuse message
            | none => .ok ascii

inductive HostPattern where
  | exact (host : String)
  | wildcard (suffix : String)
  deriving DecidableEq, Repr

def parseHostPattern (platform : Platform) (input : String) : Except Refusal HostPattern :=
  let refuse (message : String) : Except Refusal HostPattern :=
    .error ⟨.invalidHostPattern, message⟩
  let starCount := input.toList.count '*'
  if input.toList.length = 0 then refuse "패턴이 비어 있다"
  else if starCount = 0 then
    match normalizeHost platform input with
    | .ok host => .ok (.exact host)
    | .error refusal => .error refusal
  else if 1 < starCount then
    refuse ("와일드카드는 하나만 쓸 수 있다: " ++ input)
  else if input.toList.take 2 ≠ ['*', '.'] then
    refuse ("와일드카드는 선두 '*.' 형태만 허용한다: " ++ input)
  else
    let suffix := input.toList.drop 2
    if suffix.length = 0 then refuse "와일드카드 접미사가 비어 있다"
    else
      match normalizeHost platform (String.ofList suffix) with
      | .ok host => .ok (.wildcard host)
      | .error refusal => refuse refusal.message

def patternKey : HostPattern → String
  | .exact host => "=" ++ host
  | .wildcard suffix => "*" ++ suffix

/-- The host is one label, possibly empty, in front of the suffix. -/
def coversOneLabel (host suffix : List Char) : Bool :=
  ('.' :: suffix).isSuffixOf host &&
    !(host.take (host.length - suffix.length - 1)).contains '.'

def patternsConflict : HostPattern → HostPattern → Bool
  | .exact host, .exact other => host = other
  | .wildcard suffix, .wildcard other => suffix = other
  | .exact host, .wildcard suffix => coversOneLabel host.toList suffix.toList
  | .wildcard suffix, .exact host => coversOneLabel host.toList suffix.toList

/--
Does a pattern match a name?  A wildcard is written as an anchored expression,
`^[^.]+\.suffix$`.
-/
def HostPattern.covers (pattern : HostPattern) (name : String) : Bool :=
  match pattern with
  | .exact host => name = host
  | .wildcard suffix =>
      name.toList.takeWhile (· ≠ '.') ≠ [] &&
        name.toList.dropWhile (· ≠ '.') = '.' :: suffix.toList

/-! ## What parsing promises -/

def HostPattern.Labelled : HostPattern → Prop
  | .exact host => host.toList.head? ≠ some '.'
  | .wildcard suffix => suffix.toList.head? ≠ some '.'

variable {platform : Platform} {input host : String}

theorem normalizeHost_noMessage (normalized : normalizeHost platform input = .ok host) :
    ∀ label ∈ labelsOf host.toList, labelMessage label = none := by
  have noMessage : (labelsOf host.toList).findSome? labelMessage = none := by
    simp only [normalizeHost] at normalized
    repeat' split at normalized
    all_goals first
      | cases normalized; assumption
      | cases normalized
  exact List.findSome?_eq_none_iff.mp noMessage

theorem normalizeHost_labelled (normalized : normalizeHost platform input = .ok host) :
    host.toList.head? ≠ some '.' := by
  intro dotFirst
  have emptyLabel : [] ∈ labelsOf host.toList := by
    cases chars : host.toList with
    | nil => simp [chars] at dotFirst
    | cons first rest =>
        rw [chars, List.head?_cons, Option.some.injEq] at dotFirst
        simp [labelsOf, dotFirst, List.splitOn, List.splitOnP_cons_eq_if_modifyHead]
  have refused := normalizeHost_noMessage normalized [] emptyLabel
  simp [labelMessage] at refused

theorem mem_label {char : Char} {host : List Char} (member : char ∈ host) :
    char = '.' ∨ ∃ label ∈ labelsOf host, char ∈ label := by
  induction host with
  | nil => cases member
  | cons first rest induction =>
      rw [labelsOf, List.splitOn_cons_eq_if_modifyHead]
      obtain ⟨label, labels, split⟩ := List.exists_cons_of_ne_nil (List.splitOn_ne_nil '.' rest)
      rw [labelsOf, split] at induction
      by_cases dot : first = '.'
      · rcases List.mem_cons.mp member with rfl | inRest
        · exact Or.inl dot
        · rcases induction inRest with isDot | ⟨found, isLabel, inside⟩
          · exact Or.inl isDot
          · exact Or.inr ⟨found, by simp [dot, split, List.mem_cons.mp isLabel], inside⟩
      · have divided : (if (first == '.') = true then [] :: rest.splitOn '.'
            else (rest.splitOn '.').modifyHead (first :: ·)) = (first :: label) :: labels := by
          simp [dot, split]
        rw [divided]
        rcases List.mem_cons.mp member with rfl | inRest
        · exact Or.inr ⟨_, List.mem_cons_self, List.mem_cons_self⟩
        · rcases induction inRest with isDot | ⟨found, isLabel, inside⟩
          · exact Or.inl isDot
          · rcases List.mem_cons.mp isLabel with rfl | later
            · exact Or.inr ⟨_, List.mem_cons_self, List.mem_cons_of_mem _ inside⟩
            · exact Or.inr ⟨found, List.mem_cons_of_mem _ later, inside⟩

theorem normalizeHost_noBar
    (normalized : normalizeHost platform input = .ok host) : '|' ∉ host.toList := by
  intro member
  rcases mem_label member with isDot | ⟨label, isLabel, inside⟩
  · cases isDot
  · have accepted := normalizeHost_noMessage normalized label isLabel
    have ldh : isLdhLabel label := by
      unfold labelMessage at accepted
      split at accepted
      · cases accepted
      · split at accepted
        · cases accepted
        · split at accepted
          · cases accepted
          · simpa using ‹¬(!isLdhLabel label) = true›
    simp only [isLdhLabel, Bool.and_eq_true, List.all_eq_true] at ldh
    have allowed := ldh.1.1 '|' inside
    revert allowed
    decide

theorem parseHostPattern_labelled {pattern : HostPattern}
    (parsed : parseHostPattern platform input = .ok pattern) : pattern.Labelled := by
  simp only [parseHostPattern] at parsed
  repeat' split at parsed
  all_goals first
    | cases parsed
      rename_i normalized
      exact normalizeHost_labelled normalized
    | cases parsed

theorem parseHostPattern_noBar {pattern : HostPattern}
    (parsed : parseHostPattern platform input = .ok pattern) :
    '|' ∉ (patternKey pattern).toList := by
  have absent : ∀ host : String, '|' ∉ host.toList →
      '|' ∉ ("=" ++ host).toList ∧ '|' ∉ ("*" ++ host).toList := by
    intro host free
    simp [free]
  simp only [parseHostPattern] at parsed
  repeat' split at parsed
  all_goals first
    | cases parsed
      rename_i normalized
      first
        | exact (absent _ (normalizeHost_noBar normalized)).1
        | exact (absent _ (normalizeHost_noBar normalized)).2
    | cases parsed

/-! ## Conflicts and matches -/

theorem patternsConflict_comm (left right : HostPattern) :
    patternsConflict left right = patternsConflict right left := by
  cases left <;> cases right <;> simp [patternsConflict, eq_comm]

theorem patternKey_injective {left right : HostPattern}
    (same : patternKey left = patternKey right) : left = right := by
  have heads := congrArg (fun text => text.toList.head?) same
  cases left with
  | exact host =>
      cases right with
      | exact other => simpa [patternKey] using same
      | wildcard other => simp [patternKey] at heads
  | wildcard suffix =>
      cases right with
      | exact other => simp [patternKey] at heads
      | wildcard other => simpa [patternKey] using same

theorem cut_at_dot {label rest chars : List Char} (undotted : '.' ∉ label)
    (whole : chars = label ++ '.' :: rest) :
    chars.takeWhile (· ≠ '.') = label ∧ chars.dropWhile (· ≠ '.') = '.' :: rest := by
  have passes : ∀ char ∈ label, (char ≠ '.' : Bool) = true := by
    intro char member
    exact decide_eq_true fun same => undotted (same ▸ member)
  rw [whole, List.takeWhile_append_of_pos passes, List.dropWhile_append_of_pos passes]
  simp

variable {name : String}

/-- A wildcard matches the names that have one nonempty label in front of its suffix. -/
theorem covers_wildcard_iff {suffix : String} :
    (HostPattern.wildcard suffix).covers name ↔
      ∃ label : List Char, label ≠ [] ∧ '.' ∉ label ∧
        name.toList = label ++ '.' :: suffix.toList := by
  simp only [HostPattern.covers, Bool.and_eq_true, decide_eq_true_eq]
  constructor
  · rintro ⟨nonempty, rest⟩
    refine ⟨_, nonempty, fun member => ?_, ?_⟩
    · have notDot := List.mem_takeWhile_imp member
      simp at notDot
    · rw [← rest, List.takeWhile_append_dropWhile]
  · rintro ⟨label, nonempty, undotted, whole⟩
    obtain ⟨taken, dropped⟩ := cut_at_dot undotted whole
    rw [taken, dropped]
    exact ⟨nonempty, rfl⟩

theorem take_label {host label suffix : List Char} (whole : host = label ++ '.' :: suffix) :
    host.take (host.length - suffix.length - 1) = label := by
  have count : label.length + (suffix.length + 1) - suffix.length - 1 = label.length := by omega
  simp [whole, count]

theorem coversOneLabel_eq_covers {suffix : String} (labelled : host.toList.head? ≠ some '.') :
    coversOneLabel host.toList suffix.toList = (HostPattern.wildcard suffix).covers host := by
  rw [Bool.eq_iff_iff, covers_wildcard_iff]
  simp only [coversOneLabel, Bool.and_eq_true, List.isSuffixOf_iff_suffix, Bool.not_eq_true',
    List.contains_eq_mem, decide_eq_false_iff_not]
  constructor
  · rintro ⟨⟨label, whole⟩, undotted⟩
    rw [take_label whole.symm] at undotted
    refine ⟨label, ?_, undotted, whole.symm⟩
    rintro rfl
    simp [← whole] at labelled
  · rintro ⟨label, -, undotted, whole⟩
    rw [take_label whole]
    exact ⟨⟨label, whole.symm⟩, undotted⟩

theorem covers_exact_iff :
    (HostPattern.exact host).covers name ↔ name = host := by
  simp [HostPattern.covers]

theorem wildcard_unique {left right : String}
    (leftCovers : (HostPattern.wildcard left).covers name)
    (rightCovers : (HostPattern.wildcard right).covers name) : left = right := by
  obtain ⟨leftLabel, -, leftUndotted, leftWhole⟩ := covers_wildcard_iff.mp leftCovers
  obtain ⟨rightLabel, -, rightUndotted, rightWhole⟩ := covers_wildcard_iff.mp rightCovers
  have leftCut := (cut_at_dot leftUndotted leftWhole).2
  have rightCut := (cut_at_dot rightUndotted rightWhole).2
  rw [leftCut, List.cons.injEq] at rightCut
  exact String.toList_inj.mp rightCut.2

end Route

end Barycenter
