import GameScript.Json.Number
import GameScript.Pairs

/-! Decoding of documents.

A record is an object with known keys, of which none may occur twice, or an array
of its fields in order.  Values of unknown keys may be anything. -/

namespace GameScript.Json

open Number

def nestingLimit : Nat := 127

/-- A decoder knows how many levels of arrays and objects are left. -/
abbrev Decoder (α : Type) := Nat → Json → Option α

namespace Decode

def text : Decoder String
  | _, .string text => text
  | _, _ => none

def bool : Decoder Bool
  | _, .bool value => some value
  | _, _ => none

def int (least greatest : Int) : Decoder Int
  | _, .number spelling => do
    let value ← (NumberParts.ofSpelling spelling).toInt?
    if least ≤ value && value ≤ greatest then some value else none
  | _, _ => none

/-- A natural number with so many bits. -/
def nat (bits : Nat) : Decoder Nat := fun depth json =>
  (int 0 ((wordCount bits : Int) - 1) depth json).map Int.toNat

def signed (bits : Nat) : Decoder Int :=
  int (-(wordCount (bits - 1) : Int)) ((wordCount (bits - 1) : Int) - 1)

def double : Decoder Double
  | _, .number spelling => (NumberParts.ofSpelling spelling).toDouble?
  | _, _ => none

def single : Decoder Single
  | _, .number spelling => (NumberParts.ofSpelling spelling).toSingle?
  | _, _ => none

def nothing : Decoder (Option α)
  | _, .null => some none
  | _, _ => none

def optional (decode : Decoder α) : Decoder (Option α)
  | _, .null => some none
  | depth, json => (decode depth json).map some

def list (decode : Decoder α) : Decoder (List α)
  | depth + 1, .array items => items.mapM (decode depth)
  | _, _ => none

/-- Values by key; a later value takes the place of an earlier one. -/
def table (decode : Decoder α) : Decoder (List (String × α))
  | depth + 1, .object fields => do
    let pairs ← fields.mapM fun (key, value) => do
      return (← key, ← decode depth value)
    return pairs.foldl (fun pairs (key, value) => putPair key value pairs) []
  | _, _ => none

def named (ofName? : String → Option α) : Decoder α
  | _, .string text => text.bind ofName?
  | _ + 1, .object [(key, .null)] => key.bind ofName?
  | _, _ => none

end Decode

/-- The fields of a record that are there. -/
structure Record where
  fields : List (String × Json)
  /-- It was written as an array. -/
  isRow : Bool
  depth : Nat

namespace Record

/-- Members with known keys, each of which occurs once at most. -/
def members? (keys : List String) :
    List (Option String × Json) → Option (List (String × Json))
  | [] => some []
  | (key, value) :: rest => do
    let key ← key
    let others ← members? keys rest
    if !keys.contains key then some others
    else if others.any (·.1 == key) then none
    else some ((key, value) :: others)

def decode (keys : List String) : Decoder Record
  | depth + 1, .object fields =>
    (members? keys fields).map fun members => ⟨members, false, depth⟩
  | depth + 1, .array items =>
    if items.length ≤ keys.length then some ⟨keys.zip items, true, depth⟩ else none
  | _, _ => none

def get (record : Record) (key : String) (decode : Decoder α) : Option α := do
  decode record.depth (← record.fields.lookup key)

def getD (record : Record) (key : String) (decode : Decoder α) (missing : α) : Option α :=
  match record.fields.lookup key with
  | some json => decode record.depth json
  | none => some missing

/-- A field that may be null; in an object it may be missing. -/
def get? (record : Record) (key : String) (decode : Decoder α) : Option (Option α) :=
  if record.isRow then record.get key (Decode.optional decode)
  else record.getD key (Decode.optional decode) none

end Record

def decodeText? (decode : Decoder α) (text : String) : Option α := do
  decode nestingLimit (← parse? text)

end GameScript.Json
