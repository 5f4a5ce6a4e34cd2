import Mathlib.Data.Option.Basic
import Mathlib.Logic.Function.Basic
import Barycenter.Foundation.History
import Barycenter.Foundation.Json
import Barycenter.Foundation.OrderedMap
import Barycenter.Foundation.Sealing

/-!
# Rotating the key that wraps the data keys

A secret is a row: its text under a data key of its own, and that data key under
the key-encryption key that the row names.  The rotation reads the rows that do
not name the new key, and wraps the data key of each anew; its update asks only
that the row still names the key it named then.  A put of the same content
changes the data key and the text under it, and the name stays.
-/

namespace Barycenter.Dp.Secrets

def NONCE : Nat := 12

def TAG : Nat := 16

def KEK_BYTES : Nat := 32

abbrev Aes := Cipher KEK_BYTES NONCE TAG

/-! ## Rows -/

inductive Scheme where
  | store
  | key
deriving DecidableEq, Repr

def Scheme.text : Scheme → String
  | .store => "store"
  | .key => "key"

structure SecretId where
  scheme : Scheme
  name : String
  version : String
deriving DecidableEq, Repr

def SecretId.ref (id : SecretId) : String :=
  s!"{id.scheme.text}://{id.name}@{id.version}"

structure SecretRow where
  kekId : String
  wrappedDek : Bytes
  nonce : Bytes
  ciphertext : Bytes
deriving DecidableEq, Repr

abbrev SecretTable := OrderedMap SecretId SecretRow

structure CertMaterial where
  fullchain : String
  privkey : String
deriving DecidableEq, Repr

def CertMaterial.stringify (material : CertMaterial) : String :=
  (Json.object [("fullchain", .string material.fullchain),
    ("privkey", .string material.privkey)]).text

def sha256 (text : String) : String := "sha256:" ++ Sha256.hex text

def versionOf (parts : String) : String := String.ofList ((Sha256.hex parts).toList.take 32)

def assertName (name : String) : Bool :=
  name ≠ "" && name.toList.all fun character =>
    character.isAlphanum || character = '.' || character = '_' || character = '-'

def certificateId (name : String) (material : CertMaterial) : SecretId :=
  { scheme := .store
    name := name
    version := versionOf (sha256 material.fullchain ++ "|" ++ sha256 material.privkey) }

def keyId (name privkey : String) : SecretId :=
  { scheme := .key, name := name, version := versionOf (sha256 privkey) }

structure Draw where
  dek : Block KEK_BYTES
  dekNonce : Block NONCE
  kekNonce : Block NONCE
deriving DecidableEq

section

variable (aes : Aes)

def wrapDek (dek : Bytes) (ref : String) (kek : Block KEK_BYTES) (nonce : Block NONCE) : Bytes :=
  aes.parcel kek nonce (utf8Of ref) dek

def unwrapDek (wrapped : Bytes) (ref : String) (kek : Block KEK_BYTES) : Option Bytes :=
  aes.unparcel kek (utf8Of ref) wrapped

def sealRow (kek : Block KEK_BYTES) (kekId ref plaintext : String) (draw : Draw) : SecretRow :=
  { kekId := kekId
    wrappedDek := wrapDek aes draw.dek.val ref kek draw.kekNonce
    nonce := draw.dekNonce.val
    ciphertext := aes.box draw.dek draw.dekNonce (utf8Of ref) (utf8Of plaintext) }

/-- The text of a row, as the bytes that are decoded from UTF-8.  A data key of
another length is no key. -/
def openRow (kek : Block KEK_BYTES) (ref : String) (row : SecretRow) : Option Bytes := do
  let dek ← unwrapDek aes row.wrappedDek ref kek
  if sized : dek.length = KEK_BYTES then
    aes.unbox ⟨dek, sized⟩ row.nonce (utf8Of ref) row.ciphertext
  else none

@[simp] theorem unwrapDek_wrapDek (dek : Bytes) (ref : String) (kek : Block KEK_BYTES)
    (nonce : Block NONCE) : unwrapDek aes (wrapDek aes dek ref kek nonce) ref kek = some dek :=
  aes.unparcel_parcel kek nonce (utf8Of ref) dek

end

/-! ## The daemon and the script -/

/-- What a rotation runs with.  The daemon holds the old key under its name; the
script refuses to run with two equal keys.  The checks of certificates and keys
are the platform's. -/
structure Rotation where
  aes : Aes
  oldId : String
  toId : String
  oldKek : Block KEK_BYTES
  newKek : Block KEK_BYTES
  different : oldKek ≠ newKek
  inspectMaterial : Nat → CertMaterial → Bool
  isPrivateKey : String → Bool

structure Seen where
  id : SecretId
  kekId : String
  wrappedDek : Bytes
deriving DecidableEq, Repr

structure Put where
  text : String
  draw : Draw
deriving DecidableEq

/-- The table and the running scripts, each with the rows it has still to do.
Beside them stands the last put of every row, which nothing reads. -/
structure World (ι : Type) where
  rows : SecretTable
  scripts : ι → List Seen
  puts : OrderedMap SecretId Put

def World.start {ι : Type} : World ι :=
  { rows := .empty, scripts := fun _ => [], puts := .empty }

inductive Act (ι : Type) where
  | put (now : Nat) (name : String) (material : CertMaterial) (draw : Draw)
  | putKey (name privkey : String) (draw : Draw)
  /-- A script starts, or starts again, and reads its rows. -/
  | select (script : ι)
  /-- A script does its next row. -/
  | rewrap (script : ι) (nonce : Block NONCE)
  | crash (script : ι)

namespace Rotation

variable (rotation : Rotation)

def kekNamed (id : String) : Block KEK_BYTES :=
  if id = rotation.oldId then rotation.oldKek else rotation.newKek

/-- Insert the row of a secret, or overwrite the one that is there. -/
def write {ι : Type} (world : World ι) (id : SecretId) (text : String) (draw : Draw) : World ι :=
  { world with
    rows := world.rows.set id
      (sealRow rotation.aes rotation.oldKek rotation.oldId id.ref text draw)
    puts := world.puts.set id { text := text, draw := draw } }

def selectRows (rows : SecretTable) : List Seen :=
  (rows.entries.filter fun (_, row) => row.kekId ≠ rotation.toId).map fun (id, row) =>
    { id := id, kekId := row.kekId, wrappedDek := row.wrappedDek }

/-- Wrap the data key of a row that was read before, if the row still names the
key it named then. -/
def rewrapRow (seen : Seen) (nonce : Block NONCE) (rows : SecretTable) : SecretTable :=
  match unwrapDek rotation.aes seen.wrappedDek seen.id.ref rotation.oldKek with
  | none => rows
  | some dek =>
      let rewrapped := wrapDek rotation.aes dek seen.id.ref rotation.newKek nonce
      if unwrapDek rotation.aes rewrapped seen.id.ref rotation.newKek ≠ some dek then rows
      else
        match rows.get? seen.id with
        | none => rows
        | some row =>
            if row.kekId = seen.kekId then
              rows.set seen.id { row with wrappedDek := rewrapped, kekId := rotation.toId }
            else rows

variable {ι : Type}

def act [DecidableEq ι] (world : World ι) : Act ι → Option (World ι)
  | .put now name material draw =>
      if assertName name && rotation.inspectMaterial now material then
        some (rotation.write world (certificateId name material) material.stringify draw)
      else none
  | .putKey name privkey draw =>
      if assertName name && rotation.isPrivateKey privkey then
        some (rotation.write world (keyId name privkey) privkey draw)
      else none
  | .select script =>
      some { world with
        scripts := Function.update world.scripts script (rotation.selectRows world.rows) }
  | .rewrap script nonce =>
      match world.scripts script with
      | [] => none
      | seen :: rest =>
          some { world with
            rows := rotation.rewrapRow seen nonce world.rows
            scripts := Function.update world.scripts script rest }
  | .crash script => some { world with scripts := Function.update world.scripts script [] }

/-- A run of any number of scripts and of a daemon with the old key. -/
def Run [DecidableEq ι] (history : List (Event (World ι) (Act ι))) (final : World ι) : Prop :=
  Follows (fun before label after => rotation.act before label = some after)
    World.start history final

/-! ## Readable rows -/

/-- The row names one of the two keys, that key gives the data key of the put, and
the data key gives the text of the same put. -/
structure Yields (id : SecretId) (row : SecretRow) (put : Put) : Prop where
  named : row.kekId = rotation.oldId ∨ row.kekId = rotation.toId
  dataKey : unwrapDek rotation.aes row.wrappedDek id.ref (rotation.kekNamed row.kekId) =
    some put.draw.dek.val
  text : openRow rotation.aes (rotation.kekNamed row.kekId) id.ref row = some (utf8Of put.text)

/-- Every row is the one of its last put, and yields it. -/
def Readable (world : World ι) : Prop :=
  ∀ id, Option.Rel (rotation.Yields id) (world.rows.get? id) (world.puts.get? id)

/-- The data key that the script is about to wrap is still the row's. -/
def keyUnchanged (world : World ι) : Act ι → Bool
  | .rewrap script _ =>
      match world.scripts script with
      | [] => true
      | seen :: _ =>
          (world.rows.get? seen.id).all fun row =>
            row.kekId ≠ seen.kekId ||
              (unwrapDek rotation.aes seen.wrappedDek seen.id.ref rotation.oldKek).all fun dek =>
                unwrapDek rotation.aes row.wrappedDek seen.id.ref rotation.oldKek = some dek
  | _ => true

/-! ## One step -/

@[simp] theorem kekNamed_oldId : rotation.kekNamed rotation.oldId = rotation.oldKek :=
  if_pos rfl

theorem kekNamed_toId (other : rotation.toId ≠ rotation.oldId) :
    rotation.kekNamed rotation.toId = rotation.newKek :=
  if_neg other

theorem openRow_of_dek {aes : Aes} {kek : Block KEK_BYTES} {ref : String} {row : SecretRow}
    {dek : Block KEK_BYTES} (unwrapped : unwrapDek aes row.wrappedDek ref kek = some dek.val) :
    openRow aes kek ref row = aes.unbox dek row.nonce (utf8Of ref) row.ciphertext := by
  simp only [openRow, unwrapped, Option.bind_eq_bind, Option.bind_some, dif_pos dek.property]

theorem yields_sealRow (id : SecretId) (text : String) (draw : Draw) :
    rotation.Yields id (sealRow rotation.aes rotation.oldKek rotation.oldId id.ref text draw)
      { text := text, draw := draw } := by
  have dataKey : unwrapDek rotation.aes
      (sealRow rotation.aes rotation.oldKek rotation.oldId id.ref text draw).wrappedDek id.ref
      (rotation.kekNamed rotation.oldId) = some draw.dek.val := by
    rw [kekNamed_oldId]
    exact unwrapDek_wrapDek _ _ _ _ _
  refine
    { named := .inl rfl
      dataKey := dataKey
      text := ?_ }
  exact (openRow_of_dek dataKey).trans (rotation.aes.unbox_box _ _ _ _)

theorem Readable.write {rotation : Rotation} {world : World ι}
    (readable : rotation.Readable world) (id : SecretId) (text : String) (draw : Draw) :
    rotation.Readable (rotation.write world id text draw) := by
  intro other
  change Option.Rel _ ((world.rows.set _ _).get? other) ((world.puts.set _ _).get? other)
  rw [OrderedMap.get?_set, OrderedMap.get?_set]
  by_cases here : id = other
  · subst here
    rw [if_pos rfl, if_pos rfl]
    exact .some (rotation.yields_sealRow id text draw)
  · rw [if_neg here, if_neg here]
    exact readable other

/-- Wrapping a data key anew keeps the rows readable exactly when the row still
has that data key. -/
theorem readable_rewrapRow_iff {rotation : Rotation} {world : World ι} {seen : Seen}
    (nonce : Block NONCE) (scripts : ι → List Seen) (readable : rotation.Readable world)
    (unrotated : seen.kekId ≠ rotation.toId) :
    rotation.Readable
        { world with rows := rotation.rewrapRow seen nonce world.rows, scripts := scripts } ↔
      ((world.rows.get? seen.id).all fun row =>
        row.kekId ≠ seen.kekId ||
          (unwrapDek rotation.aes seen.wrappedDek seen.id.ref rotation.oldKek).all fun dek =>
            unwrapDek rotation.aes row.wrappedDek seen.id.ref rotation.oldKek = some dek) =
        true := by
  have same : rotation.Readable { world with scripts := scripts } := readable
  have here := readable seen.id
  unfold rewrapRow
  cases opened : unwrapDek rotation.aes seen.wrappedDek seen.id.ref rotation.oldKek with
  | none => simp [same]
  | some dek =>
      simp only [unwrapDek_wrapDek, ne_eq, not_true_eq_false, if_false]
      cases found : world.rows.get? seen.id with
      | none => simp [same]
      | some row =>
          by_cases unmoved : row.kekId = seen.kekId
          · rw [found] at here
            cases put : world.puts.get? seen.id with
            | none =>
                rw [put] at here
                cases here
            | some last =>
                rw [put] at here
                obtain ⟨yields⟩ := here
                have old : row.kekId = rotation.oldId :=
                  yields.named.resolve_right fun rotated => unrotated (unmoved ▸ rotated)
                have other : rotation.toId ≠ rotation.oldId := fun equal =>
                  unrotated (by rw [← unmoved, old, equal])
                have dataKey := yields.dataKey
                have text := yields.text
                rw [old, kekNamed_oldId] at dataKey text
                simp only [unmoved, if_true, Option.all_some, not_true_eq_false,
                  decide_false, Bool.false_or, decide_eq_true_eq, dataKey, Option.some.injEq]
                constructor
                · intro after
                  have there := after seen.id
                  simp only [OrderedMap.get?_set_same, put] at there
                  obtain ⟨rewrapped⟩ := there
                  have wrapped := rewrapped.dataKey
                  rw [kekNamed_toId _ other, unwrapDek_wrapDek] at wrapped
                  exact (Option.some.inj wrapped).symm
                · intro equal id
                  subst equal
                  change Option.Rel _ ((world.rows.set _ _).get? id) (world.puts.get? id)
                  rw [OrderedMap.get?_set]
                  by_cases isSeen : seen.id = id
                  · subst isSeen
                    rw [if_pos rfl, put]
                    refine .some
                      { named := .inr rfl
                        dataKey := ?_
                        text := ?_ }
                    · rw [kekNamed_toId _ other, unwrapDek_wrapDek]
                    · rw [kekNamed_toId _ other,
                        openRow_of_dek (unwrapDek_wrapDek _ last.draw.dek.val _ _ _)]
                      rw [openRow_of_dek dataKey] at text
                      exact text
                  · rw [if_neg isSeen]
                    exact readable id
          · simp [unmoved, same]

/-- The rows are readable, and no script is about to do a row that has been done. -/
structure Standing (world : World ι) : Prop where
  readable : rotation.Readable world
  unrotated : ∀ script, ∀ seen ∈ world.scripts script, seen.kekId ≠ rotation.toId

theorem standing_start : rotation.Standing (World.start : World ι) where
  readable := fun _ => .none
  unrotated := fun _ _ member => absurd member List.not_mem_nil

variable [DecidableEq ι]

theorem act_readable_iff {before after : World ι} {label : Act ι}
    (acted : rotation.act before label = some after) (standing : rotation.Standing before) :
    rotation.Readable after ↔ rotation.keyUnchanged before label = true := by
  cases label with
  | put now name material draw | putKey name privkey draw =>
      obtain ⟨-, same⟩ := Option.ite_none_right_eq_some.mp acted
      rw [← Option.some.inj same]
      exact iff_of_true (standing.readable.write _ _ _) rfl
  | select script | crash script =>
      rw [← Option.some.inj acted]
      exact iff_of_true standing.readable rfl
  | rewrap script nonce =>
      simp only [act] at acted
      split at acted
      · cases acted
      · rename_i seen rest waiting
        have unrotated := standing.unrotated script seen (by simp [waiting])
        rw [← Option.some.inj acted, readable_rewrapRow_iff nonce _ standing.readable unrotated]
        simp only [keyUnchanged, waiting]

theorem act_unrotated {before after : World ι} {label : Act ι}
    (acted : rotation.act before label = some after) (standing : rotation.Standing before) :
    ∀ script, ∀ seen ∈ after.scripts script, seen.kekId ≠ rotation.toId := by
  have updated : ∀ (script : ι) (seens : List Seen),
      (∀ seen ∈ seens, seen.kekId ≠ rotation.toId) →
      ∀ other, ∀ seen ∈ Function.update before.scripts script seens other,
        seen.kekId ≠ rotation.toId := by
    intro script seens fresh other seen member
    by_cases here : other = script
    · subst here
      rw [Function.update_self] at member
      exact fresh seen member
    · rw [Function.update_of_ne here] at member
      exact standing.unrotated other seen member
  cases label with
  | put now name material draw | putKey name privkey draw =>
      obtain ⟨-, same⟩ := Option.ite_none_right_eq_some.mp acted
      rw [← Option.some.inj same]
      exact standing.unrotated
  | select script =>
      rw [← Option.some.inj acted]
      refine updated script _ fun seen member => ?_
      obtain ⟨⟨id, row⟩, kept, rfl⟩ := List.mem_map.mp member
      exact of_decide_eq_true (List.mem_filter.mp kept).2
  | rewrap script nonce =>
      simp only [act] at acted
      split at acted
      · cases acted
      · rename_i first rest waiting
        rw [← Option.some.inj acted]
        refine updated script rest fun seen member => standing.unrotated script seen ?_
        rw [waiting]
        exact List.mem_cons_of_mem _ member
  | crash script =>
      rw [← Option.some.inj acted]
      exact updated script [] fun _ member => absurd member List.not_mem_nil

/-- **Rotation without loss.**  Every row yields its last put at every moment,
exactly when every update wraps the data key that the row has then. -/
theorem readable_iff {history : List (Event (World ι) (Act ι))} {final : World ι}
    (run : rotation.Run history final) :
    (∀ event ∈ history, rotation.Readable event.after) ↔
      ∀ event ∈ history, rotation.keyUnchanged event.before event.label = true :=
  Follows.exactly rotation.Standing (fun event => rotation.Readable event.after)
    (fun event => rotation.keyUnchanged event.before event.label = true) run
    rotation.standing_start
    (fun _ acted standing => rotation.act_readable_iff acted standing)
    fun _ acted standing careful =>
      { readable := (rotation.act_readable_iff acted standing).mpr careful
        unrotated := rotation.act_unrotated acted standing }

end Rotation

/-! ## Concrete rotations -/

/-- A rotation to a new key of ones.  Everything is a certificate and a key. -/
def plainRotation : Rotation where
  aes := .transparent KEK_BYTES NONCE TAG
  oldId := "env"
  toId := "kms-2"
  oldKek := ⟨List.replicate KEK_BYTES 0, List.length_replicate⟩
  newKek := ⟨List.replicate KEK_BYTES 1, List.length_replicate⟩
  different := by decide
  inspectMaterial := fun _ _ => true
  isPrivateKey := fun _ => true

def drawOf (byte : Nat) : Draw :=
  { dek := ⟨List.replicate KEK_BYTES byte, List.length_replicate⟩
    dekNonce := ⟨List.replicate NONCE byte, List.length_replicate⟩
    kekNonce := ⟨List.replicate NONCE byte, List.length_replicate⟩ }

/-- The key of an order is put, the rotation reads and does its row, and the
daemon puts the key again. -/
def rotatedInTime : List (Act Unit) :=
  [.putKey "order-1" "key" (drawOf 2), .select (), .rewrap () (drawOf 3).kekNonce,
    .putKey "order-1" "key" (drawOf 4)]

theorem readable_iff_rotatedInTime :
    ∃ history final, plainRotation.Run history final ∧
      history.map Event.label = rotatedInTime ∧
      ∀ event ∈ history, plainRotation.Readable event.after := by
  obtain ⟨history, final, run, labels, checked⟩ :=
    follows_of_attempt plainRotation.act
      (fun (history, _) => history.all fun event =>
        plainRotation.keyUnchanged event.before event.label)
      (show (execute (fun label state => (plainRotation.act state label).map (label, ·))
        rotatedInTime World.start).any _ = true by decide +kernel)
  exact ⟨history, final, run, labels,
    (plainRotation.readable_iff run).mpr (List.all_eq_true.mp checked)⟩

/-- The key is put again between the reading and the update of its row. -/
def putMeanwhile : List (Act Unit) :=
  [.putKey "order-1" "key" (drawOf 2), .select (), .putKey "order-1" "key" (drawOf 3),
    .rewrap () (drawOf 4).kekNonce]

/-- The row names the new key, and neither key opens it. -/
theorem putMeanwhile_unreadable :
    ∃ history final, plainRotation.Run history final ∧
      history.map Event.label = putMeanwhile ∧
      ¬ ∀ event ∈ history, plainRotation.Readable event.after := by
  obtain ⟨history, final, run, labels, checked⟩ :=
    follows_of_attempt plainRotation.act
      (fun (history, _) => history.getLast?.any fun event =>
        let id := keyId "order-1" "key"
        (event.after.rows.get? id).any fun row =>
          row.kekId = "kms-2" &&
            openRow plainRotation.aes plainRotation.newKek id.ref row = none &&
            openRow plainRotation.aes plainRotation.oldKek id.ref row = none)
      (show (execute (fun label state => (plainRotation.act state label).map (label, ·))
        putMeanwhile World.start).any _ = true by decide +kernel)
  refine ⟨history, final, run, labels, fun readable => ?_⟩
  obtain ⟨event, last, unreadable⟩ := (Option.any_eq_true _ _).mp checked
  obtain ⟨row, found, unreadable⟩ := (Option.any_eq_true _ _).mp unreadable
  simp only [Bool.and_eq_true, decide_eq_true_eq] at unreadable
  obtain ⟨⟨named, closed⟩, -⟩ := unreadable
  have yields := readable event (List.mem_of_getLast? last) (keyId "order-1" "key")
  rw [found] at yields
  generalize event.after.puts.get? (keyId "order-1" "key") = put at yields
  cases yields with
  | some yields =>
      have opened := yields.text
      rw [named] at opened
      exact absurd (closed.symm.trans opened) (by simp)

end Barycenter.Dp.Secrets
