import Barycenter.Dp.AgentKeys
import Barycenter.Dp.KekRotation
import Barycenter.Foundation.GluedFields
import Barycenter.Foundation.Scanning
import Barycenter.Foundation.TextOrder
import Mathlib.Data.List.Perm.Basic
import Mathlib.Tactic.IntervalCases

/-!
# The digest of a generation

The digest covers the paths, the digests of the contents and the planes.  The
paths and the digests of the contents are written one after the other, and only
a space stands inside a pair; so a path that contains a space and a digest reads
like two files.  A file called `__proto__` is not covered at all, because a
plain object does not take a text under that name.
-/

namespace Barycenter.Dp

open Secrets (sha256)
open GluedFields

/-! ## The digest -/

/-- An assignment to a plain object, whose prototype refuses a text. -/
def assigned (digests : OrderedMap String String) (rel digest : String) :
    OrderedMap String String :=
  if rel = "__proto__" then digests else digests.set rel digest

def fileDigests (files : OrderedMap String String) : OrderedMap String String :=
  files.entries.foldl (fun digests (rel, body) => assigned digests rel (sha256 body)) .empty

def digestLine (files : OrderedMap String String) (k : String) : String :=
  k ++ " " ++ (files.get? k).getD "undefined"

def canonicalOf (files : OrderedMap String String) : String :=
  "".intercalate ((sortedBy id files.keys).map (digestLine files))

def planesText (planes : List Plane) : String :=
  ",".intercalate (sortedBy id (planes.map Plane.text))

def digestedText (files : OrderedMap String String) (planes : List Plane) : String :=
  canonicalOf files ++ ("|planes=" ++ planesText planes)

def digestOfFiles (files : OrderedMap String String) (planes : List Plane) : String :=
  sha256 (digestedText files planes)

structure Generation where
  files : OrderedMap String String
  planes : List Plane

def Generation.digest (generation : Generation) : String :=
  digestOfFiles (fileDigests generation.files) generation.planes

def Generation.digested (generation : Generation) : List String :=
  digestedText (fileDigests generation.files) generation.planes :: generation.files.values

def NoCollision (texts : List String) : Prop :=
  ∀ left ∈ texts, ∀ right ∈ texts, sha256 left = sha256 right → left = right

/-- The same contents under the same paths, and the same planes. -/
def Generation.SameAs (left right : Generation) : Prop :=
  (∀ path, left.files.get? path = right.files.get? path) ∧ left.planes.Perm right.planes

/-- The paths with the digests of their contents, in the order of the digest. -/
def Generation.fields (generation : Generation) : List (GluedFields.Field Char) :=
  (sortedBy id (fileDigests generation.files).keys).map fun k =>
    (k.toList, (((fileDigests generation.files).get? k).getD "undefined").toList)

/-! ## Digests as stamps -/

theorem hexDigit_ne_space {digit : Nat} (small : digit < 16) : Sha256.hexDigit digit ≠ ' ' := by
  interval_cases digit <;> decide

theorem length_bigEndian (number bytes : Nat) :
    (Sha256.bigEndian number bytes).length = bytes := by
  induction bytes with
  | zero => rfl
  | succ bytes induction => simp [Sha256.bigEndian, induction]

theorem bigEndian_lt {number bytes byte : Nat} (member : byte ∈ Sha256.bigEndian number bytes) :
    byte < 256 := by
  induction bytes with
  | zero => cases member
  | succ bytes induction =>
      rcases List.mem_cons.mp member with rfl | later
      · exact Nat.mod_lt _ (by decide)
      · exact induction later

theorem length_hexWord (word : Nat) : (Sha256.hexWord word).length = 8 := by
  simp [Sha256.hexWord, List.length_flatMap, length_bigEndian]

theorem space_notMem_hexWord (word : Nat) : ' ' ∉ Sha256.hexWord word := by
  intro member
  obtain ⟨byte, inWord, inByte⟩ := List.mem_flatMap.mp member
  have small := bigEndian_lt inWord
  rcases List.mem_pair.mp inByte with high | low
  · exact hexDigit_ne_space (by omega) high.symm
  · exact hexDigit_ne_space (by omega) low.symm

theorem stamp_sha256 (text : String) :
    (sha256 text).toList.length = 71 ∧ ' ' ∉ (sha256 text).toList := by
  have hex : (Sha256.hex text).toList.length = 64 ∧ ' ' ∉ (Sha256.hex text).toList := by
    simp only [Sha256.hex, String.toList_ofList]
    constructor
    · simp [length_hexWord]
    · simp [space_notMem_hexWord]
  rw [sha256, String.toList_append]
  refine ⟨by rw [List.length_append, hex.1]; rfl, ?_⟩
  simp [hex.2]

/-! ## The digests of the files -/

theorem get?_assigned (digests : OrderedMap String String) (rel digest path : String) :
    (assigned digests rel digest).get? path =
      if rel = path ∧ path ≠ "__proto__" then some digest else digests.get? path := by
  unfold assigned
  split
  · rename_i hidden
    have never : ¬(rel = path ∧ path ≠ "__proto__") := fun both => both.2 (both.1 ▸ hidden)
    rw [if_neg never]
  · rename_i shown
    rw [OrderedMap.get?_set]
    by_cases here : rel = path
    · have visible : path ≠ "__proto__" := here ▸ shown
      simp [here, visible]
    · simp [here]

theorem get?_assign_all {entries : List (String × String)}
    (distinct : (entries.map Prod.fst).Nodup) (digests : OrderedMap String String)
    (path : String) :
    (entries.foldl (fun digests (rel, body) => assigned digests rel (sha256 body)) digests).get?
        path =
      if path = "__proto__" then digests.get? path
      else ((OrderedMap.lookup entries path).map sha256).or (digests.get? path) := by
  induction entries generalizing digests with
  | nil => simp [OrderedMap.lookup]
  | cons entry rest induction =>
      obtain ⟨rel, body⟩ := entry
      obtain ⟨fresh, restDistinct⟩ := List.nodup_cons.mp distinct
      rw [List.foldl_cons, induction restDistinct]
      by_cases hidden : path = "__proto__"
      · simp [hidden, get?_assigned]
      · by_cases here : rel = path
        · subst here
          have later : OrderedMap.lookup rest rel = none := by
            refine Option.eq_none_iff_forall_ne_some.mpr fun value found => fresh ?_
            have stored : OrderedMap.get? ⟨rest, restDistinct⟩ rel = some value := found
            exact OrderedMap.mem_keys_iff.mpr ⟨value, stored⟩
          simp [OrderedMap.lookup, hidden, later, get?_assigned]
        · simp [OrderedMap.lookup, hidden, here, get?_assigned]

theorem get?_fileDigests (files : OrderedMap String String) (path : String) :
    (fileDigests files).get? path =
      if path = "__proto__" then none else (files.get? path).map sha256 := by
  rw [fileDigests, get?_assign_all files.distinct, OrderedMap.get?_empty, Option.or_none]
  rfl

/-! ## The fields of a generation -/

theorem stamped_fields (generation : Generation) : Stamped ' ' 71 generation.fields := by
  intro field member
  obtain ⟨k, listed, rfl⟩ := List.mem_map.mp member
  obtain ⟨digest, stored⟩ := OrderedMap.mem_keys_iff.mp (mem_sortedBy.mp listed)
  have found := stored
  rw [get?_fileDigests] at found
  split at found
  · cases found
  · obtain ⟨body, -, rfl⟩ := Option.map_eq_some_iff.mp found
    simpa [stored] using stamp_sha256 body

theorem intercalate_nothing (lists : List (List Char)) :
    List.intercalate [] lists = lists.flatten := by
  induction lists with
  | nil => rfl
  | cons first rest induction =>
      cases rest with
      | nil => simp
      | cons second others =>
          rw [List.intercalate_cons_cons, induction]
          simp

theorem text_fields (generation : Generation) :
    text ' ' generation.fields = (canonicalOf (fileDigests generation.files)).toList := by
  rw [canonicalOf, String.toList_intercalate, String.toList_empty, intercalate_nothing,
    GluedFields.text, Generation.fields, List.flatMap_map, List.map_map, ← List.flatMap_def]
  refine List.flatMap_congr fun k _ => ?_
  simp [digestLine]

variable {left right : Generation}

theorem fields_eq_iff :
    left.fields = right.fields ↔
      ∀ path, (fileDigests left.files).get? path = (fileDigests right.files).get? path := by
  constructor
  · intro same path
    have names : (sortedBy id (fileDigests left.files).keys) =
        sortedBy id (fileDigests right.files).keys := by
      have lists := congrArg (List.map fun field => String.ofList field.1) same
      simpa [Generation.fields, Function.comp_def] using lists
    have sorted {paths : List String} : path ∈ sortedBy id paths ↔ path ∈ paths := mem_sortedBy
    have stored : path ∈ (fileDigests left.files).keys ↔ path ∈ (fileDigests right.files).keys := by
      rw [← sorted, names, sorted]
    cases found : (fileDigests left.files).get? path with
    | none =>
        cases other : (fileDigests right.files).get? path with
        | none => rfl
        | some digest =>
            obtain ⟨_, contradiction⟩ := OrderedMap.mem_keys_iff.mp
              (stored.mpr (OrderedMap.mem_keys_iff.mpr ⟨digest, other⟩))
            rw [found] at contradiction
            cases contradiction
    | some digest =>
        have listed := OrderedMap.mem_keys_iff.mpr ⟨digest, found⟩
        obtain ⟨other, otherFound⟩ := OrderedMap.mem_keys_iff.mp (stored.mp listed)
        have pair := List.map_inj_left.mp (same.trans (by rw [Generation.fields, ← names]))
          path (mem_sortedBy.mpr listed)
        have digests : digest = other :=
          String.toList_inj.mp (by simpa [found, otherFound] using pair)
        rw [otherFound, digests]
  · intro same
    have names : sortedBy id (fileDigests left.files).keys =
        sortedBy id (fileDigests right.files).keys := by
      refine sortedBy_eq_of_perm ?_ fun _ _ _ _ same => same
      refine (List.perm_ext_iff_of_nodup (fileDigests left.files).distinct
        (fileDigests right.files).distinct).mpr fun path => ?_
      refine OrderedMap.mem_keys_iff.trans (Iff.trans ?_ OrderedMap.mem_keys_iff.symm)
      rw [same path]
    simp only [Generation.fields, names, same]

/-! ## The planes -/

theorem planesText_eq_iff {left right : List Plane} :
    planesText left = planesText right ↔ left.Perm right := by
  constructor
  · intro same
    have pieces (planes : List Plane) :
        Scanning.pieces ',' (planesText planes).toList =
          (sortedBy id (planes.map Plane.text)).map String.toList := by
      rw [planesText, String.toList_intercalate]
      refine Scanning.pieces_intercalate ?_ ?_ <;> intro part member <;>
        obtain ⟨plane, -, rfl⟩ : ∃ plane ∈ planes, plane.text.toList = part := by
          simpa using member
      · exact plane.separator_notMem_text _ (by decide)
      · cases plane <;> decide
    have texts : sortedBy id (left.map Plane.text) = sortedBy id (right.map Plane.text) :=
      List.map_injective_iff.mpr (fun _ _ => String.toList_inj.mp)
        (by rw [← pieces, ← pieces, same])
    have permuted : (left.map Plane.text).Perm (right.map Plane.text) :=
      (sortedBy_perm id _).symm.trans (texts ▸ sortedBy_perm id _)
    exact (List.map_perm_map_iff fun _ _ => Plane.text_injective).mp permuted
  · intro permuted
    have sorted : sortedBy id (left.map Plane.text) = sortedBy id (right.map Plane.text) :=
      sortedBy_eq_of_perm (permuted.map Plane.text) fun _ _ _ _ same => same
    rw [planesText, planesText, sorted]

theorem space_notMem_planes (planes : List Plane) :
    ' ' ∉ ("|planes=" ++ planesText planes).toList := by
  have texts : ' ' ∉ (planesText planes).toList := by
    rw [planesText, String.toList_intercalate]
    refine Scanning.notMem_intercalate (by decide) fun part member => ?_
    obtain ⟨plane, -, rfl⟩ : ∃ plane ∈ planes, plane.text.toList = part := by simpa using member
    exact plane.separator_notMem_text _ (by decide)
  simpa using texts

/-! ## Equal digests -/

theorem toList_digestedText (generation : Generation) :
    (digestedText (fileDigests generation.files) generation.planes).toList =
      text ' ' generation.fields ++ ("|planes=" ++ planesText generation.planes).toList := by
  rw [digestedText, String.toList_append, text_fields]

theorem digestedText_eq_iff :
    digestedText (fileDigests left.files) left.planes =
        digestedText (fileDigests right.files) right.planes ↔
      Alike ' ' 71 left.fields right.fields ∧ left.planes.Perm right.planes := by
  rw [← planesText_eq_iff, ← String.toList_inj, toList_digestedText, toList_digestedText,
    same_text_iff (stamped_fields left) (stamped_fields right) (space_notMem_planes _)
      (space_notMem_planes _), String.toList_inj]
  simp

structure Generation.Aliased (left right : Generation) : Prop where
  planes : left.planes.Perm right.planes
  alike : Alike ' ' 71 left.fields right.fields
  apart : left.fields ≠ right.fields ∨
    left.files.get? "__proto__" ≠ right.files.get? "__proto__"

theorem sameAs_iff (noCollision : NoCollision (left.digested ++ right.digested)) :
    left.SameAs right ↔ left.fields = right.fields ∧
      left.files.get? "__proto__" = right.files.get? "__proto__" ∧
      left.planes.Perm right.planes := by
  have contents {path body other : String} (first : left.files.get? path = some body)
      (second : right.files.get? path = some other) (same : sha256 body = sha256 other) :
      body = other :=
    noCollision body (by simp [Generation.digested, OrderedMap.mem_values_iff.mpr ⟨path, first⟩])
      other (by simp [Generation.digested, OrderedMap.mem_values_iff.mpr ⟨path, second⟩]) same
  rw [Generation.SameAs, fields_eq_iff, ← and_assoc]
  refine and_congr_left fun _ => ⟨fun same => ⟨fun path => ?_, same _⟩, fun same path => ?_⟩
  · rw [get?_fileDigests, get?_fileDigests, same path]
  · have digests := same.1 path
    rw [get?_fileDigests, get?_fileDigests] at digests
    split at digests
    · rename_i hidden
      exact hidden ▸ same.2
    · cases first : left.files.get? path <;> cases second : right.files.get? path <;>
        simp only [first, second, Option.map_some, Option.map_none, Option.some.injEq] at digests
      · rfl
      · cases digests
      · cases digests
      · rw [contents first second digests]

theorem digest_eq_iff (noCollision : NoCollision (left.digested ++ right.digested)) :
    left.digest = right.digest ↔
      Alike ' ' 71 left.fields right.fields ∧ left.planes.Perm right.planes := by
  rw [← digestedText_eq_iff]
  exact ⟨noCollision _ (by simp [Generation.digested]) _ (by simp [Generation.digested]),
    congrArg sha256⟩

/-- Equal digests say that the generations are the same, except where one list
of fields is read in two ways or only the file without a digest differs. -/
theorem digest_determines_iff {left right : Generation}
    (noCollision : NoCollision (left.digested ++ right.digested)) :
    (left.digest = right.digest → left.SameAs right) ↔ ¬left.Aliased right := by
  rw [digest_eq_iff noCollision, sameAs_iff noCollision]
  constructor
  · rintro determined ⟨planes, alike, apart⟩
    obtain ⟨fields, hidden, -⟩ := determined ⟨alike, planes⟩
    rcases apart with fieldsDiffer | hiddenDiffers
    · exact fieldsDiffer fields
    · exact hiddenDiffers hidden
  · rintro separate ⟨alike, planes⟩
    by_contra different
    refine separate ⟨planes, alike, ?_⟩
    by_contra agree
    simp only [not_or, not_not] at agree
    exact different ⟨agree.1, agree.2, planes⟩

/-- Two empty files, and one empty file whose path reads like the first of
them and the path of the second. -/
def twoFiles : Generation where
  files := ⟨[("a", ""), ("b", "")], by decide⟩
  planes := [.http]

def oneFile : Generation where
  files := ⟨[("a " ++ sha256 "" ++ "b", "")], by simp⟩
  planes := [.http]

theorem fields_twoFiles :
    twoFiles.fields = [("a".toList, (sha256 "").toList), ("b".toList, (sha256 "").toList)] := by
  have digests : fileDigests twoFiles.files = ⟨[("a", sha256 ""), ("b", sha256 "")], by simp⟩ := rfl
  have sorted : sortedBy id ["a", "b"] = ["a", "b"] :=
    List.mergeSort_of_pairwise (by simp; decide +kernel)
  simp [Generation.fields, digests, OrderedMap.keys, sorted, OrderedMap.get?, OrderedMap.lookup]

theorem fields_oneFile :
    oneFile.fields =
      [("a".toList ++ ' ' :: ((sha256 "").toList ++ "b".toList), (sha256 "").toList)] := by
  have visible : "a " ++ sha256 "" ++ "b" ≠ "__proto__" := by
    intro same
    have heads := congrArg (fun name => name.toList.head?) same
    simp at heads
  have digests : fileDigests oneFile.files =
      ⟨[("a " ++ sha256 "" ++ "b", sha256 "")], by simp⟩ := by
    simp [fileDigests, oneFile, assigned, visible, OrderedMap.set, OrderedMap.empty,
      OrderedMap.overwrite]
  simp [Generation.fields, digests, OrderedMap.keys, sortedBy, OrderedMap.get?, OrderedMap.lookup]

theorem twoFiles_alike_oneFile : Alike ' ' 71 twoFiles.fields oneFile.fields := by
  rw [fields_oneFile]
  refine ⟨twoFiles.fields, stamped_fields _, .refl _ _, ?_⟩
  rw [fields_twoFiles]
  generalize (sha256 "").toList = digest
  exact .glue ("a".toList, digest) (.keep ("b".toList, digest) .nil)

theorem noCollision_twoFiles_oneFile : NoCollision (twoFiles.digested ++ oneFile.digested) := by
  have texts : digestedText (fileDigests twoFiles.files) twoFiles.planes =
      digestedText (fileDigests oneFile.files) oneFile.planes :=
    digestedText_eq_iff.mpr ⟨twoFiles_alike_oneFile, .refl _⟩
  have whole : digestedText (fileDigests twoFiles.files) twoFiles.planes =
      "a " ++ sha256 "" ++ "b " ++ sha256 "" ++ "|planes=http" := by
    rw [← String.toList_inj, toList_digestedText, fields_twoFiles]
    simp [GluedFields.text, planesText, sortedBy, twoFiles, Plane.text]
  have distinct : sha256 ("a " ++ sha256 "" ++ "b " ++ sha256 "" ++ "|planes=http") ≠ sha256 "" := by
    decide +kernel
  have members (text : String) (member : text ∈ twoFiles.digested ++ oneFile.digested) :
      text = "a " ++ sha256 "" ++ "b " ++ sha256 "" ++ "|planes=http" ∨ text = "" := by
    rw [Generation.digested, Generation.digested, ← texts, whole] at member
    simp only [OrderedMap.values, twoFiles, oneFile, List.map_cons, List.map_nil,
      List.mem_append, List.mem_cons, List.not_mem_nil, or_false] at member
    rcases member with (pair | first | second) | glued | only
    · exact .inl pair
    · exact .inr first
    · exact .inr second
    · exact .inl glued
    · exact .inr only
  intro left leftMember right rightMember same
  rcases members left leftMember with rfl | rfl <;>
    rcases members right rightMember with rfl | rfl
  · rfl
  · exact absurd same distinct
  · exact absurd same.symm distinct
  · rfl

theorem digest_determines_twoFiles :
    (twoFiles.digest = oneFile.digest → twoFiles.SameAs oneFile) ↔ ¬twoFiles.Aliased oneFile :=
  digest_determines_iff noCollision_twoFiles_oneFile

theorem oneFile_reads_like_twoFiles :
    ∃ left right : Generation, NoCollision (left.digested ++ right.digested) ∧
      left.digest = right.digest ∧ ¬left.SameAs right := by
  refine ⟨twoFiles, oneFile, noCollision_twoFiles_oneFile, ?_, ?_⟩
  · exact congrArg sha256 (digestedText_eq_iff.mpr ⟨twoFiles_alike_oneFile, .refl _⟩)
  · intro same
    have stored := same.1 "b"
    simp [twoFiles, oneFile, OrderedMap.get?, OrderedMap.lookup] at stored

end Barycenter.Dp
