/-! JSON documents and their text. -/

namespace GameScript

/-- A JSON document.  A string or a key is `none` if half of a surrogate pair
stands in it, because it is then no text. -/
inductive Json where
  | null
  | bool (value : Bool)
  /-- A number by its spelling. -/
  | number (spelling : String)
  | string (text : Option String)
  | array (items : List Json)
  | object (fields : List (Option String × Json))
deriving Repr, Inhabited

namespace Json

def ofText (text : String) : Json := .string (some text)

def ofInt (value : Int) : Json := .number (toString value)

def ofNat (value : Nat) : Json := .number (toString value)

def ofMembers (members : List (String × Json)) : Json :=
  .object (members.map fun (key, value) => (some key, value))

/-- A character inside a string.  Control characters are escaped, all else
stands for itself. -/
def escapeChar (c : Char) : List Char :=
  match c with
  | '"' => ['\\', '"']
  | '\\' => ['\\', '\\']
  | '\x08' => ['\\', 'b']
  | '\x0c' => ['\\', 'f']
  | '\n' => ['\\', 'n']
  | '\r' => ['\\', 'r']
  | '\t' => ['\\', 't']
  | c =>
    if c.toNat < 0x20 then
      ['\\', 'u', '0', '0'] ++
        [(Nat.toDigits 16 (c.toNat / 16)).headD '0',
          (Nat.toDigits 16 (c.toNat % 16)).headD '0']
    else [c]

def quote (text : String) : String :=
  String.ofList ('"' :: text.toList.flatMap escapeChar ++ ['"'])

def newLine (level : Nat) : String := "\n" ++ String.join (List.replicate level "  ")

mutual

def pieces (level : Nat) : Json → List String
  | .null => ["null"]
  | .bool value => [if value then "true" else "false"]
  | .number spelling => [spelling]
  | .string text => [quote (text.getD "")]
  | .array [] => ["[]"]
  | .array (item :: items) =>
    "[" :: newLine (level + 1) :: pieces (level + 1) item ++ itemPieces
      (level + 1) items ++ [newLine level, "]"]
  | .object [] => ["\x7b\x7d"]
  | .object ((key, value) :: fields) =>
    "\x7b" :: newLine (level + 1) :: quote (key.getD "") :: ": " :: pieces
      (level + 1) value ++ fieldPieces (level + 1) fields ++ [newLine level, "\x7d"]

def itemPieces (level : Nat) : List Json → List String
  | [] => []
  | item :: items => "," :: newLine level :: pieces level item ++ itemPieces level items

def fieldPieces (level : Nat) : List (Option String × Json) → List String
  | [] => []
  | (key, value) :: fields =>
    "," :: newLine level :: quote (key.getD "") :: ": " :: pieces level value ++
      fieldPieces level fields

end

def pretty (json : Json) : String := String.join (json.pieces 0)

end Json

end GameScript
