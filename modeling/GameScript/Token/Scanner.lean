import GameScript.Text.Blank
import GameScript.Token.Basic

/-! From source text to tokens. -/

namespace GameScript.Token

open Builtin Number Text

/-- The text that is still to be read, and its offset in bytes. -/
structure Cursor where
  rest : List Char
  offset : Nat
deriving DecidableEq, Repr

def byteLength (text : List Char) : Nat := text.foldr (fun c size => c.utf8Size + size) 0

/-- The text behind its first bytes, unless they end inside a character or are too many. -/
def skipBytes? : Nat → List Char → Option (List Char)
  | 0, text => some text
  | _ + 1, [] => none
  | bytes + 1, c :: text =>
    if c.utf8Size ≤ bytes + 1 then skipBytes? (bytes + 1 - c.utf8Size) text else none

namespace Cursor

def position (cursor : Cursor) : Position := Position.ofOffset cursor.offset

/-- The cursor so many bytes further on, unless that is inside a character. -/
def step? (cursor : Cursor) (bytes : Nat) : Option Cursor :=
  (skipBytes? bytes cursor.rest).map (⟨·, cursor.offset + bytes⟩)

def after (cursor : Cursor) (taken rest : List Char) : Cursor :=
  ⟨rest, cursor.offset + byteLength taken⟩

def cut (cursor : Cursor) (p : Char → Bool) : List Char × Cursor :=
  let (taken, rest) := cursor.rest.span p
  (taken, cursor.after taken rest)

def next (cursor : Cursor) : Cursor :=
  cursor.after (cursor.rest.take 1) (cursor.rest.drop 1)

end Cursor

/-- Bytes up to the end of a block comment, or of the text. -/
def commentLength : List Char → Nat
  | [] => 0
  | '*' :: '/' :: _ => 2
  | c :: rest => c.utf8Size + commentLength rest

/-- Passes comments and the blanks behind them; block comments do not nest.  Each comment
takes one unit of `fuel`. -/
def skipComments? : Nat → Cursor → Option Cursor
  | 0, cursor => some cursor
  | fuel + 1, cursor =>
    match cursor.rest with
    | '/' :: '/' :: _ => do
      let inside ← cursor.step? 2
      skipComments? fuel ((inside.cut (· != '\n')).2.cut isBlank).2
    | '/' :: '*' :: _ => do
      let inside ← cursor.step? 2
      let behind ← inside.step? (commentLength inside.rest)
      skipComments? fuel (behind.cut isBlank).2
    | _ => some cursor

def Cursor.skipGap? (cursor : Cursor) : Option Cursor :=
  let visible := (cursor.cut isBlank).2
  skipComments? visible.rest.length visible

def isDigit (c : Char) : Bool := '0' ≤ c && c ≤ '9'

def isNameStart (c : Char) : Bool :=
  ('a' ≤ c && c ≤ 'z') || ('A' ≤ c && c ≤ 'Z') || c == '_'

def isNamePart (c : Char) : Bool := isNameStart c || isDigit c

def digitValue? (base : Nat) (c : Char) : Option Nat :=
  let value? :=
    if isDigit c then some (c.toNat - '0'.toNat)
    else if 'a' ≤ c && c ≤ 'f' then some (c.toNat - 'a'.toNat + 10)
    else if 'A' ≤ c && c ≤ 'F' then some (c.toNat - 'A'.toNat + 10)
    else none
  value?.filter (· < base)

def isHexDigit (c : Char) : Bool := (digitValue? 16 c).isSome

def integerScalar (value : Int) : Scalar :=
  let double := Double.ofInt value
  if double.toInt? = some value then .number double else .int64 (Int64.ofInt value)

/-- Value of decimal digits with at most one point among them.  Integers up to
63 bits are exact; all else is rounded to double precision. -/
def decimalScalar? (text : List Char) : Option Scalar :=
  match decimalValue? text with
  | some value =>
    if value < wordCount 63 then some (integerScalar value)
    else some (.number (Double.ofRatio false value 1))
  | none =>
    let (whole, rest) := text.span (· != '.')
    let fraction := rest.drop 1
    (decimalValue? (whole ++ fraction)).map fun value =>
      .number (Double.ofRatio false value (Nat.pow 10 fraction.length))

/-- Value of hexadecimal digits as a pattern of 64 bits in two's complement. -/
def hexScalar? (digits : List Char) : Option Scalar := do
  guard !digits.isEmpty
  let value ← digits.foldlM (fun value c => (digitValue? 16 c).map (16 * value + ·)) 0
  guard (value < wordCount 64)
  let signed := Int64.ofNat value
  if isSignedWord 32 signed.toInt then
    return .number (Double.ofInt signed.toInt)
  else return .int64 signed

/-- Colours are written red, green, blue and perhaps alpha; red and blue change
places. -/
def colourScalar? (name : List Char) : Option Scalar :=
  match name with
  | [r₁, r₂, g₁, g₂, b₁, b₂] => hexScalar? [b₁, b₂, g₁, g₂, r₁, r₂]
  | [r₁, r₂, g₁, g₂, b₁, b₂, a₁, a₂] => hexScalar? [b₁, b₂, g₁, g₂, r₁, r₂, a₁, a₂]
  | _ => none

/-- The text of a string, what is wrong with it, and the cursor after it. -/
structure Quotation where
  text : List Char
  faults : List LexFault
  after : Cursor

namespace Quotation

def push (c : Char) (quotation : Quotation) : Quotation :=
  { quotation with text := c :: quotation.text }

def pushAll (text : List Char) (quotation : Quotation) : Quotation :=
  { quotation with text := text ++ quotation.text }

def blame (faults : List LexFault) (quotation : Quotation) : Quotation :=
  { quotation with faults := faults ++ quotation.faults }

end Quotation

def readVerbatim (quote : Char) : List Char → Nat → Quotation
  | [], offset => ⟨[], [.unclosedString], ⟨[], offset⟩⟩
  | c :: rest, offset =>
    if c = quote then ⟨[], [], ⟨rest, offset + c.utf8Size⟩⟩
    else (readVerbatim quote rest (offset + c.utf8Size)).push c

/-- Escapes that give the code of a character. -/
inductive NumericEscape where
  | unicode
  | hexadecimal
  | octal
deriving DecidableEq, Repr

namespace NumericEscape

def base : NumericEscape → Nat
  | .unicode | .hexadecimal => 16
  | .octal => 8

def width : NumericEscape → Nat
  | .unicode => 6
  | .hexadecimal | .octal => 2

/-- What an escape of the given value and number of digits stands for. -/
def finish (escape : NumericEscape) (value read : Nat) : List Char × List LexFault :=
  let character (fault : LexFault) : List Char × List LexFault :=
    if value.isValidChar then ([Char.ofNat value], []) else ([], [fault])
  match escape with
  | .unicode => if read = 0 then ([], []) else character .unicodeRange
  | .hexadecimal => if read = 2 then character .hexEscape else ([], [.hexEscape])
  | .octal => if read = 2 then character .octalEscape else ([], [.octalEscape])

end NumericEscape

def letterEscape (c : Char) : Char :=
  match c with
  | 'a' => '\x07'
  | 'b' => '\x08'
  | 'f' => '\x0C'
  | 'n' => '\n'
  | 'r' => '\r'
  | 't' => '\t'
  | 'v' => '\x0B'
  | c => c

/-- Digits of a character's code, up to `more` of them. -/
def radixDigits? (base : Nat) : Nat → Nat → Nat → Cursor → Option (Nat × Nat × Cursor)
  | 0, value, read, cursor => some (value, read, cursor)
  | more + 1, value, read, cursor =>
    match cursor.rest.head?.bind (digitValue? base) with
    | some digit => do
      radixDigits? base more (base * value + digit) (read + 1) (← cursor.step? 1)
    | none => some (value, read, cursor)

def NumericEscape.read? (escape : NumericEscape) (value : Nat) (cursor : Cursor) :
    Option Quotation := do
  let (value, read, after) ← radixDigits? escape.base escape.width value 0 cursor
  let (text, faults) := escape.finish value read
  return ⟨text, faults, after⟩

def readEscape? (cursor : Cursor) : Option Quotation :=
  match cursor.rest with
  | [] | '\n' :: _ => some ⟨[], [], cursor.next⟩
  | 'u' :: _ => NumericEscape.unicode.read? 0 cursor.next
  | 'x' :: _ => NumericEscape.hexadecimal.read? 0 cursor.next
  | c :: _ =>
    match digitValue? 8 c with
    | some digit => NumericEscape.octal.read? digit cursor.next
    | none => some ⟨[letterEscape c], [], cursor.next⟩

/-- The rest of a string.  Each character or escape takes one unit of `fuel`. -/
def readQuoted? : Nat → Cursor → Option Quotation
  | 0, cursor => some ⟨[], [.unclosedString], cursor⟩
  | fuel + 1, cursor =>
    match cursor.rest with
    | [] => some ⟨[], [.unclosedString], cursor⟩
    | '"' :: _ => do return ⟨[], [], ← cursor.step? 1⟩
    | '\\' :: _ => do
      let escape ← readEscape? (← cursor.step? 1)
      return ((← readQuoted? fuel escape.after).pushAll escape.text).blame escape.faults
    | '\n' :: _ => do return (← readQuoted? fuel (← cursor.step? 1)).blame [.rawNewline]
    | c :: _ => do return (← readQuoted? fuel cursor.next).push c

/-- A token, the errors found in it, and the cursor after it. -/
structure Reading where
  token : Token
  errors : List LexError := []
  after : Cursor

namespace Cursor

def reading (cursor : Cursor) (lexeme : Lexeme) (after : Cursor) : Reading :=
  { token := ⟨lexeme, cursor.position⟩, after }

def readingScalar (cursor : Cursor) (value : Scalar) (after : Cursor) : Reading :=
  cursor.reading (.constant { value }) after

def halt (cursor : Cursor) (fault : LexFault) (after : Cursor) : Reading :=
  { token := ⟨.invalid, cursor.position⟩, errors := [⟨cursor.position, fault⟩], after }

def readingQuotation (cursor : Cursor) (quotation : Quotation) : Reading :=
  { cursor.readingScalar (.string (String.ofList quotation.text)) quotation.after with
    errors := quotation.faults.map (⟨cursor.position, ·⟩) }

def readName (cursor : Cursor) : Reading :=
  let (name, after) := cursor.cut isNamePart
  let name := String.ofList name
  match Mark.ofKeyword? name with
  | some mark => cursor.reading (.mark mark) after
  | none => cursor.reading (.identifier name) after

def readDecimal (cursor : Cursor) : Reading :=
  let (text, after) := cursor.cut fun c => isDigit c || c == '.'
  match decimalScalar? text with
  | some value => cursor.readingScalar value after
  | none => cursor.halt (.invalidNumber (String.ofList text)) after

def passX? (cursor : Cursor) : Option Cursor :=
  if cursor.rest.head? = some 'x' then cursor.step? 1 else some cursor

/-- Digits after `$` or `0x`; an `x` may also follow `$`. -/
def readHex? (cursor : Cursor) : Option Reading := do
  let start ← (← cursor.step? 1).passX?
  let (digits, after) := start.cut isHexDigit
  match hexScalar? digits with
  | some value => return cursor.readingScalar value after
  | none => return cursor.halt (.invalidHex (String.ofList digits)) after

def operator? : List Char → Option (Mark × Nat)
  | '\x7b' :: _ => some (.blockOpen, 1)
  | '\x7d' :: _ => some (.blockClose, 1)
  | '(' :: _ => some (.parenOpen, 1)
  | ')' :: _ => some (.parenClose, 1)
  | ',' :: _ => some (.comma, 1)
  | '.' :: _ => some (.dot, 1)
  | ';' :: _ => some (.semicolon, 1)
  | ']' :: _ => some (.arrayClose, 1)
  | '~' :: _ => some (.bitNot, 1)
  | '=' :: '=' :: _ => some (.equal, 2)
  | '=' :: _ => some (.assign, 1)
  | '+' :: '+' :: _ => some (.increment, 2)
  | '+' :: '=' :: _ => some (.assignAdd, 2)
  | '+' :: _ => some (.plus, 1)
  | '-' :: '-' :: _ => some (.decrement, 2)
  | '-' :: '=' :: _ => some (.assignSub, 2)
  | '-' :: _ => some (.minus, 1)
  | '*' :: '=' :: _ => some (.assignMul, 2)
  | '*' :: _ => some (.times, 1)
  | '/' :: '=' :: _ => some (.assignDiv, 2)
  | '/' :: _ => some (.divide, 1)
  | '!' :: '=' :: _ => some (.notEqual, 2)
  | '!' :: _ => some (.not, 1)
  | ':' :: '=' :: _ => some (.assign, 2)
  | ':' :: _ => some (.colon, 1)
  | '[' :: '|' :: _ => some (.listOpen, 2)
  | '[' :: '?' :: _ => some (.mapOpen, 2)
  | '[' :: '#' :: _ => some (.gridOpen, 2)
  | '[' :: '@' :: _ => some (.directOpen, 2)
  | '[' :: '$' :: _ => some (.structOpen, 2)
  | '[' :: _ => some (.arrayOpen, 1)
  | '<' :: '=' :: _ => some (.lessEqual, 2)
  | '<' :: '<' :: _ => some (.shiftLeft, 2)
  | '<' :: '>' :: _ => some (.notEqual, 2)
  | '<' :: _ => some (.less, 1)
  | '>' :: '=' :: _ => some (.greaterEqual, 2)
  | '>' :: '>' :: _ => some (.shiftRight, 2)
  | '>' :: _ => some (.greater, 1)
  | '?' :: '?' :: '=' :: _ => some (.assignCoalesce, 3)
  | '?' :: '?' :: _ => some (.coalesce, 2)
  | '?' :: _ => some (.question, 1)
  | '%' :: '=' :: _ => some (.assignMod, 2)
  | '%' :: _ => some (.modulo, 1)
  | '&' :: '&' :: _ => some (.and, 2)
  | '&' :: '=' :: _ => some (.assignAnd, 2)
  | '&' :: _ => some (.bitAnd, 1)
  | '|' :: '|' :: _ => some (.or, 2)
  | '|' :: '=' :: _ => some (.assignOr, 2)
  | '|' :: _ => some (.bitOr, 1)
  | '^' :: '^' :: _ => some (.xor, 2)
  | '^' :: '=' :: _ => some (.assignXor, 2)
  | '^' :: _ => some (.bitXor, 1)
  | _ => none

def readOperator? (cursor : Cursor) : Option Reading :=
  match operator? cursor.rest with
  | some (mark, width) => do return cursor.reading (.mark mark) (← cursor.step? width)
  | none => some (cursor.halt .invalidToken cursor.next)

/-- The position of a verbatim string is that of its quote. -/
def readVerbatimString (cursor : Cursor) : Reading :=
  match cursor.rest with
  | [] => cursor.readingQuotation ⟨[], [], cursor⟩
  | quote :: rest =>
    cursor.readingQuotation (readVerbatim quote rest (cursor.offset + quote.utf8Size))

def readQuotedString? (cursor : Cursor) : Option Reading := do
  let inside ← cursor.step? 1
  return cursor.readingQuotation (← readQuoted? (inside.rest.length + 1) inside)

def readToken? (target : Target) (cursor : Cursor) : Option Reading :=
  let isQuote (c : Char) : Bool := c == '"' || c == '\''
  match cursor.rest with
  | [] => some (cursor.reading .eof cursor)
  | c :: rest =>
    let next := rest.head?
    if isNameStart c then some cursor.readName
    else if isDigit c then
      if c == '0' && next == some 'x' then cursor.readHex? else some cursor.readDecimal
    else if c == '$' then cursor.readHex?
    else if c == '.' && next.any isDigit then some cursor.readDecimal
    else if target.hasEscapes then
      if c == '@' && next.any isQuote then (cursor.step? 1).map readVerbatimString
      else if c == '"' then cursor.readQuotedString?
      else cursor.readOperator?
    else if isQuote c then some cursor.readVerbatimString
    else cursor.readOperator?

end Cursor

/-- Bytes from behind a backslash on up to the line that it continues, if only blanks stand
in between. -/
def continuation? (rest : List Char) : Option Nat :=
  let (blanks, after) := rest.span fun c => isBlank c && c != '\n'
  if after.head? = some '\n' then some (byteLength blanks + 1) else none

/-- Content of a macro, up to the end of its last line.  Each character takes one unit of
`fuel`. -/
def readContent? : Nat → Cursor → Option (List Char × Cursor)
  | 0, cursor => some ([], cursor)
  | fuel + 1, cursor =>
    match cursor.rest with
    | [] | '\n' :: _ => some ([], cursor)
    | c :: rest =>
      match (if c = '\\' then continuation? rest else none) with
      | some bytes => do readContent? fuel (← cursor.step? (1 + bytes))
      | none => do
        let (content, after) ← readContent? fuel cursor.next
        return (c :: content, after)

/-- What is met behind a gap, and the cursor after it. -/
inductive Event where
  | finish (pos : Position)
  | halt (token : Token) (errors : List LexError)
  | token (token : Token) (errors : List LexError) (after : Cursor)
  /-- A directive that leaves nothing but errors. -/
  | pass (errors : List LexError) (after : Cursor)
  /-- A text macro: its body is `content`, which starts at `bodyStart`. -/
  | define (pos : Position) (name : String) (content : List Char) (bodyStart : Nat)
      (after : Cursor)

namespace Cursor

def readDirective? (cursor : Cursor) : Option Event := do
  let first ← cursor.step? 1
  let (rest, after) := first.next.cut fun c => !isBlank c
  let name := first.rest.take 1 ++ rest
  let word := String.ofList name
  if word == "macro" then
    let (defined, after) := after.next.cut fun c => !isBlank c
    let body := after.next
    let (content, after) ← readContent? (body.rest.length + 1) body
    return .define cursor.position (String.ofList defined) content body.offset after
  else if word == "region" || word == "endregion" then
    return .pass [] (after.cut fun c => c != '\n').2
  else
    match colourScalar? name with
    | some value => return .token ⟨.constant { value }, cursor.position⟩ [] after
    | none => return .pass [⟨cursor.position, .unknownDirective word⟩] after

/-- The next event, unless a step on the way to it or in it ends inside a character. -/
def event? (target : Target) (cursor : Cursor) : Option Event := do
  let site ← cursor.skipGap?
  match site.rest with
  | '#' :: _ :: _ => site.readDirective?
  | [] => return .finish site.position
  | _ =>
    let reading ← site.readToken? target
    if reading.token.lexeme.kind = .invalid then return .halt reading.token reading.errors
    else return .token reading.token reading.errors reading.after

/-- The next event; a step that ends inside a character would end the text. -/
def event (target : Target) (cursor : Cursor) : Event :=
  (cursor.event? target).getD (.finish cursor.position)

end Cursor

structure Scan where
  tokens : List Token
  /-- Errors in the order in which they were found. -/
  errors : List LexError
  macros : MacroTable
deriving DecidableEq, Repr

namespace Scan

def push (token : Token) (errors : List LexError) (scan : Scan) : Scan :=
  { scan with tokens := token :: scan.tokens, errors := errors ++ scan.errors }

def blame (errors : List LexError) (scan : Scan) : Scan :=
  { scan with errors := errors ++ scan.errors }

def isHalted (scan : Scan) : Bool := scan.errors.getLast?.any (·.fault.isHalting)

/-- A macro body has no end token. -/
def body (scan : Scan) : List Token :=
  match scan.tokens.getLast? with
  | some ⟨⟨.eof, _⟩, _⟩ => scan.tokens.dropLast
  | _ => scan.tokens

/-- Number of copies of the last token that follow the tokens of a text. -/
def padding : Nat := 8

def padded (scan : Scan) : List Token :=
  match scan.tokens.getLast? with
  | some last => scan.tokens ++ List.replicate padding last
  | none => scan.tokens

end Scan

/-- All tokens from a cursor on, up to the end or to an invalid token.  Macro
bodies are scanned where they are defined.  Each token and each directive takes
one unit of `fuel`. -/
def scanFrom (target : Target) : Nat → Cursor → MacroTable → Scan
  | 0, _, macros => ⟨[], [], macros⟩
  | fuel + 1, cursor, macros =>
    match cursor.event target with
    | .finish pos => ⟨[⟨.eof, pos⟩], [], macros⟩
    | .halt last errors => ⟨[last], errors, macros⟩
    | .token token errors after => (scanFrom target fuel after macros).push token errors
    | .pass errors after => (scanFrom target fuel after macros).blame errors
    | .define pos name content bodyStart after =>
      if macros.contains name then
        (scanFrom target fuel after macros).blame [⟨pos, .duplicateMacro name⟩]
      else
        let body := scanFrom target fuel ⟨content, bodyStart⟩ macros
        (scanFrom target fuel after (body.macros.insert name body.body)).blame body.errors

/-- All tokens of a text.  No more tokens and directives than characters are met,
and one unit is left for the end. -/
def scan (target : Target) (macros : MacroTable) (text : String) : Scan :=
  scanFrom target (text.toList.length + 1) ⟨text.toList, 0⟩ macros

end GameScript.Token
