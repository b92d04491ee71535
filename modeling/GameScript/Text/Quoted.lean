/-! String literals of source text, in the two forms that a target may have. -/

namespace GameScript.Text

def hexDigit (n : Nat) : Char := (Nat.toDigits 16 n).headD '0' |>.toUpper

def escapeChar (c : Char) : List Char :=
  match c with
  | '"' => ['\\', '"']
  | '\\' => ['\\', '\\']
  | '\n' => ['\\', 'n']
  | '\r' => ['\\', 'r']
  | '\t' => ['\\', 't']
  | '\x07' => ['\\', 'a']
  | '\x08' => ['\\', 'b']
  | '\x0c' => ['\\', 'f']
  | '\x0b' => ['\\', 'v']
  | c =>
    if c.toNat < 0x20 || c.toNat = 0x7F then
      ['\\', 'x', hexDigit (c.toNat / 16), hexDigit (c.toNat % 16)]
    else [c]

def escapedLiteral (text : List Char) : List Char :=
  '"' :: text.flatMap escapeChar ++ ['"']

/-- Pieces between the quotes of a text, each as a literal, with the quotes as
literals of their own between them. -/
def chainedPieces : List Char → List Char
  | [] => ['"']
  | c :: rest =>
    if c = '"' then "\" + '\"' + \"".toList ++ chainedPieces rest
    else c :: chainedPieces rest

/-- The literal without escapes for a text; a text with both kinds of quotes is
a sum of literals. -/
def plainLiteral (text : List Char) : List Char :=
  if !text.contains '"' then '"' :: text ++ ['"']
  else if !text.contains '\'' then '\'' :: text ++ ['\'']
  else '(' :: '"' :: chainedPieces text ++ [')']

def literal (hasEscapes : Bool) (text : String) : String :=
  String.ofList
    (if hasEscapes then escapedLiteral text.toList else plainLiteral text.toList)

end GameScript.Text
