import Barycenter.Foundation.KeyedWrites
import Barycenter.Foundation.Scanning
import Barycenter.Control.OwnPeers

/-!
# Membership on its way into the engine

Slots and attributes are pushed as lines, taken apart by Lua in the engine and
kept in a dictionary of texts.  The http plane keeps every slot list and every
peer's attributes under a key of its own; the stream plane knows slot lists
only.  Nothing but the removal of a whole epoch deletes a key.

The dictionary is taken to be large enough, and a body to reach the engine whole.
-/

namespace Barycenter.Control

open Config
open Dp (Plane Numeral)
open Scanning

/-! ## What is pushed -/

def attrsText (attrs : PeerAttrs) : String :=
  attrs.softMaxConns.elim "" toString ++ "|" ++ (if attrs.isBackup = some true then "1" else "")

def slotLine (name : String) (peers : List String) : String :=
  name ++ "=" ++ ",".intercalate peers

def attrsEntries (peers : OrderedMap String PeerAttrs) : List String :=
  (sortedBy Prod.fst peers.entries).map fun (peer, attrs) => peer ++ "|" ++ attrsText attrs

def slotsLines (slots : Slots) (attrs : Attrs) : List String :=
  slots.entries.map (fun (name, peers) => slotLine name peers) ++
    attrs.entries.filterMap fun (name, peers) =>
      if peers.entries.isEmpty then none
      else some ("!" ++ name ++ "=" ++ ",".intercalate (attrsEntries peers))

def encodeSlots (slots : Slots) (attrs : Attrs) : String :=
  "\n".intercalate (sortedBy id (slotsLines slots attrs))

/-! ## What the engine makes of it -/

abbrev EngineDict := OrderedMap (List Char) (List Char)

def slotKey (name : List Char) (epoch : Numeral) : List Char :=
  "slot:".toList ++ name ++ (':' :: epoch.text.toList)

def attrKey (name peer : List Char) (epoch : Numeral) : List Char :=
  "attr:".toList ++ (name ++ ':' :: peer) ++ (':' :: epoch.text.toList)

/-- The pattern `^([^=]+)=(.*)$`. -/
def namedLine (line : List Char) : Option (List Char × List Char) :=
  (firstCut '=' line).filter fun (name, _) => !name.isEmpty

def httpLine (epoch : Numeral) (line : List Char) : List (List Char × List Char) :=
  match line with
  | '!' :: control =>
      match namedLine control with
      | some (name, list) =>
          (pieces ',' list).filterMap fun entry =>
            (firstCut '|' entry).map fun (peer, rest) => (attrKey name peer epoch, rest)
      | none => []
  | slots => (namedLine slots).toList.map fun (name, peers) => (slotKey name epoch, peers)

/-- The stream plane takes every line for a slot line. -/
def streamLine (epoch : Numeral) (line : List Char) : List (List Char × List Char) :=
  (namedLine line).toList.map fun (name, peers) => (slotKey name epoch, peers)

def lineWrites : Plane → Numeral → List Char → List (List Char × List Char)
  | .http => httpLine
  | .stream => streamLine

/-- The lines the http plane sees: all that are not empty. -/
def httpLines (body : List Char) : List (List Char) := pieces '\n' body

/-- The lines the stream plane sees: those before the first empty one. -/
def streamLines (body : List Char) : List (List Char) :=
  ((body ++ ['\n', '\n']).splitOn '\n').takeWhile fun line => !line.isEmpty

def bodyLines : Plane → List Char → List (List Char)
  | .http => httpLines
  | .stream => streamLines

def pushedTo (plane : Plane) (epoch : Numeral) (dict : EngineDict) (body : String) : EngineDict :=
  dict.written ((bodyLines plane body.toList).flatMap (lineWrites plane epoch))

/-! ## What is read back -/

/-- The pattern `^slot:(.+):<epoch>$`. -/
def slotName (epoch : Numeral) (key : List Char) : Option (List Char) :=
  between "slot:".toList (':' :: epoch.text.toList) key

/-- The pattern `^attr:(.+):([^:]+:%d+):<epoch>$`. -/
def attrName (epoch : Numeral) (key : List Char) : Option (List Char × List Char) :=
  match between "attr:".toList (':' :: epoch.text.toList) key with
  | none => none
  | some inner =>
      match lastCut ':' inner with
      | none => none
      | some (front, port) =>
          match lastCut ':' front with
          | none => none
          | some (name, host) =>
              if name.isEmpty || host.isEmpty || port.isEmpty || !port.all Char.isDigit then none
              else some (name, host ++ ':' :: port)

/-- What the balancer makes of the text of the attributes. -/
structure ReadAttrs where
  softMaxConns : Option Nat
  isBackup : Bool
deriving DecidableEq, Repr

/-- The pattern `^([^|]*)|(.*)$`. -/
def readAttrs (rest : List Char) : ReadAttrs :=
  match firstCut '|' rest with
  | none => { softMaxConns := none, isBackup := false }
  | some (limit, backup) =>
      { softMaxConns := if limit.isEmpty then none else some (Nat.ofDigitChars 10 limit 0)
        isBackup := !backup.isEmpty }

def slotsRead (epoch : Numeral) (dict : EngineDict) : List (List Char × List (List Char)) :=
  dict.entries.filterMap fun (key, peers) =>
    (slotName epoch key).map fun name => (name, pieces ',' peers)

/-- The attributes that are read back, which the stream plane never does. -/
def attrsRead : Plane → Numeral → EngineDict → List (List Char × List Char × ReadAttrs)
  | .http, epoch, dict =>
      dict.entries.filterMap fun (key, rest) =>
        (attrName epoch key).map fun (name, peer) => (name, peer, readAttrs rest)
  | .stream, _, _ => []

end Barycenter.Control
