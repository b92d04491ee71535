import GameScript.Builtin.Registry
import GameScript.Position

/-! Tokens of scripts. -/

namespace GameScript.Token

open Builtin Number

inductive Mark where
  | blockOpen | blockClose | parenOpen | parenClose | comma | dot | colon | semicolon
  | arrayOpen | listOpen | mapOpen | gridOpen | directOpen | structOpen | arrayClose
  | question | coalesce
  | assign | assignAdd | assignSub | assignMul | assignDiv | assignMod
  | assignAnd | assignOr | assignXor | assignCoalesce | increment | decrement
  | equal | notEqual | less | lessEqual | greater | greaterEqual
  | plus | minus | times | divide | intDivide | modulo | and | or | xor
  | bitAnd | bitOr | bitXor | bitNot | shiftLeft | shiftRight | not
  | kwWhile | kwWith | kwIf | kwDo | kwEnum | kwVar | kwGlobalvar | kwReturn
  | kwDefault | kwFor
  | kwCase | kwSwitch | kwUntil | kwContinue | kwBreak | kwElse | kwRepeat
  | kwExit | kwThen
  | kwFunction | kwNew | kwDelete | kwThrow | kwTry | kwCatch | kwFinally | kwStatic
  | kwConstructor
deriving DecidableEq, Repr

namespace Mark

def name : Mark → String
  | .blockOpen => "Begin"
  | .blockClose => "End"
  | .parenOpen => "Open"
  | .parenClose => "Close"
  | .comma => "Comma"
  | .dot => "Dot"
  | .colon => "Colon"
  | .semicolon => "Semicolon"
  | .arrayOpen => "ArrayOpen"
  | .listOpen => "ArrayListOpen"
  | .mapOpen => "ArrayMapOpen"
  | .gridOpen => "ArrayGridOpen"
  | .directOpen => "ArrayDirectOpen"
  | .structOpen => "ArrayStructOpen"
  | .arrayClose => "ArrayClose"
  | .question => "Conditional"
  | .coalesce => "NullCoalesce"
  | .assign => "Assign"
  | .assignAdd => "AssignPlus"
  | .assignSub => "AssignMinus"
  | .assignMul => "AssignTimes"
  | .assignDiv => "AssignDivide"
  | .assignMod => "AssignMod"
  | .assignAnd => "AssignAnd"
  | .assignOr => "AssignOr"
  | .assignXor => "AssignXor"
  | .assignCoalesce => "AssignNullCoalesce"
  | .increment => "Increment"
  | .decrement => "Decrement"
  | .equal => "Equal"
  | .notEqual => "NotEqual"
  | .less => "Lesser"
  | .lessEqual => "LesserEqual"
  | .greater => "Greater"
  | .greaterEqual => "GreaterEqual"
  | .plus => "Plus"
  | .minus => "Minus"
  | .times => "Times"
  | .divide => "Divide"
  | .intDivide => "Div"
  | .modulo => "Mod"
  | .and => "And"
  | .or => "Or"
  | .xor => "Xor"
  | .bitAnd => "BitAnd"
  | .bitOr => "BitOr"
  | .bitXor => "BitXor"
  | .bitNot => "BitNegate"
  | .shiftLeft => "BitShiftLeft"
  | .shiftRight => "BitShiftRight"
  | .not => "Not"
  | .kwWhile => "While"
  | .kwWith => "With"
  | .kwIf => "If"
  | .kwDo => "Do"
  | .kwEnum => "Enum"
  | .kwVar => "Var"
  | .kwGlobalvar => "Globalvar"
  | .kwReturn => "Return"
  | .kwDefault => "Default"
  | .kwFor => "For"
  | .kwCase => "Case"
  | .kwSwitch => "Switch"
  | .kwUntil => "Until"
  | .kwContinue => "Continue"
  | .kwBreak => "Break"
  | .kwElse => "Else"
  | .kwRepeat => "Repeat"
  | .kwExit => "Exit"
  | .kwThen => "Then"
  | .kwFunction => "FunctionDecl"
  | .kwNew => "New"
  | .kwDelete => "Delete"
  | .kwThrow => "Throw"
  | .kwTry => "Try"
  | .kwCatch => "Catch"
  | .kwFinally => "Finally"
  | .kwStatic => "Static"
  | .kwConstructor => "Constructor"

def keywords : List (String × Mark) :=
  [("and", .and), ("or", .or), ("xor", .xor), ("while", .kwWhile), ("with", .kwWith),
    ("if", .kwIf), ("do", .kwDo), ("not", .not), ("enum", .kwEnum), ("begin", .blockOpen),
    ("end", .blockClose), ("var", .kwVar), ("globalvar", .kwGlobalvar),
    ("return", .kwReturn), ("default", .kwDefault), ("for", .kwFor), ("case", .kwCase),
    ("switch", .kwSwitch), ("until", .kwUntil), ("continue", .kwContinue),
    ("break", .kwBreak), ("else", .kwElse), ("repeat", .kwRepeat), ("exit", .kwExit),
    ("then", .kwThen), ("mod", .modulo), ("div", .intDivide), ("function", .kwFunction),
    ("new", .kwNew), ("delete", .kwDelete), ("throw", .kwThrow), ("try", .kwTry),
    ("catch", .kwCatch), ("finally", .kwFinally), ("static", .kwStatic),
    ("constructor", .kwConstructor)]

def ofKeyword? (word : String) : Option Mark := keywords.lookup word

def isAssign : Mark → Bool
  | .assign | .assignAdd | .assignSub | .assignMul | .assignDiv | .assignMod | .assignAnd
  | .assignOr | .assignXor | .assignCoalesce => true
  | _ => false

end Mark

inductive Scalar where
  | number (value : Double)
  /-- An integer that double precision cannot hold. -/
  | int64 (value : Int64)
  | string (text : String)
deriving DecidableEq, Repr

/-- A literal, or the value that a name stands for. -/
structure Constant where
  value : Scalar
  name : Option String := none
  /-- `true` or `false`, where booleans have a type. -/
  isBoolean : Bool := false
deriving DecidableEq, Repr

inductive Kind where
  | eof
  /-- Text that is no token; nothing after it is read. -/
  | invalid
  | mark (m : Mark)
  /-- A name whose meaning is not known yet. -/
  | identifier
  | constant
  | var
  /-- A name in front of an opening parenthesis. -/
  | function
deriving DecidableEq, Repr

def Kind.name : Kind → String
  | .eof => "Eof"
  | .invalid => "Error"
  | .mark m => m.name
  | .identifier => "Identifier"
  | .constant => "Constant"
  | .var => "Variable"
  | .function => "Function"

inductive Payload where
  | none
  | identifier (name : String)
  | constant (c : Constant)
  | var (name : String) (builtin : Option BuiltinVariable)
  | function (name : String) (builtin : Option BuiltinFunction)
deriving DecidableEq, Repr

def Payload.name? : Payload → Option String
  | .identifier name | .var name _ | .function name _ => some name
  | .constant c => c.name
  | .none => Option.none

/-- A kind and a payload.  Those of scanned texts fit each other, as in the lexemes
below. -/
structure Lexeme where
  kind : Kind
  payload : Payload
deriving DecidableEq, Repr

namespace Lexeme

@[match_pattern] abbrev eof : Lexeme := ⟨.eof, .none⟩

@[match_pattern] abbrev invalid : Lexeme := ⟨.invalid, .none⟩

@[match_pattern] abbrev mark (m : Mark) : Lexeme := ⟨.mark m, .none⟩

@[match_pattern] abbrev identifier (name : String) : Lexeme :=
  ⟨.identifier, .identifier name⟩

@[match_pattern] abbrev constant (c : Constant) : Lexeme := ⟨.constant, .constant c⟩

@[match_pattern] abbrev var (name : String) (builtin : Option BuiltinVariable) : Lexeme :=
  ⟨.var, .var name builtin⟩

@[match_pattern] abbrev function (name : String) (builtin : Option BuiltinFunction) :
    Lexeme :=
  ⟨.function, .function name builtin⟩

/-- The name that a token of a kind that has names carries. -/
def name? (lexeme : Lexeme) : Option String :=
  match lexeme.kind with
  | .identifier | .constant | .var | .function => lexeme.payload.name?
  | .eof | .invalid | .mark _ => none

end Lexeme

end GameScript.Token

namespace GameScript

/-- A lexeme and the position of its first character. -/
structure Token where
  lexeme : Token.Lexeme
  pos : Position
deriving DecidableEq, Repr

namespace Token

def isMark (token : Token) (mark : Mark) : Bool := token.lexeme.kind == .mark mark

end Token

/-- Bodies of the macros defined so far, in the order of their definition. -/
structure MacroTable where
  bodies : List (String × List Token) := []
deriving DecidableEq, Repr

namespace MacroTable

def get? (table : MacroTable) (name : String) : Option (List Token) :=
  table.bodies.lookup name

def contains (table : MacroTable) (name : String) : Bool := (table.get? name).isSome

/-- A name keeps its first body. -/
def insert (table : MacroTable) (name : String) (body : List Token) : MacroTable :=
  if table.contains name then table else ⟨table.bodies ++ [(name, body)]⟩

def names (table : MacroTable) : List String := table.bodies.map (·.1)

end MacroTable

inductive LexFault where
  | invalidToken
  | invalidNumber (text : String)
  | invalidHex (digits : String)
  | duplicateMacro (name : String)
  | unknownDirective (name : String)
  | unclosedString
  | rawNewline
  | unicodeRange
  | hexEscape
  | octalEscape
  | macroDepth (name : String)
deriving DecidableEq, Repr

namespace LexFault

def message : LexFault → String
  | .invalidToken => "Invalid token"
  | .invalidNumber text => s!"Invalid number \"{text}\""
  | .invalidHex digits => s!"Invalid hex literal \"{digits}\""
  | .duplicateMacro name => s!"Duplicate macro \"{name}\" found"
  | .unknownDirective name => s!"Unrecognized directive \"{name}\""
  | .unclosedString => "Unenclosed string"
  | .rawNewline => "Cannot have raw newlines in normal strings"
  | .unicodeRange => "\\u value in string not in valid range"
  | .hexEscape => "\\x value in string is missing valid hex characters"
  | .octalEscape => "octal escape in string is missing valid octal characters"
  | .macroDepth name => s!"macro \"{name}\" expands too deeply"

/-- Nothing is read after the text at fault. -/
def isHalting : LexFault → Bool
  | .invalidToken | .invalidNumber _ | .invalidHex _ => true
  | _ => false

end LexFault

structure LexError where
  pos : Position
  fault : LexFault
deriving DecidableEq, Repr

namespace LexError

def message (error : LexError) : String := s!"{error.fault.message} at offset {error.pos}"

end LexError

end GameScript
