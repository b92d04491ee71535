/-! The closed vocabularies of the bytecode: operations, operand types,
comparisons, instances, kinds of variable access and extended operations. -/

namespace GameScript.Bytecode

inductive Opcode where
  | convert | mul | div | rem | mod | add | sub | and | or | xor | neg | not | shl | shr
  | compare | pop | duplicate | ret | exit | discard
  | branch | branchTrue | branchFalse | enterWith | leaveWith
  | push | pushLocal | pushGlobal | pushBuiltin | pushImmediate
  | call | callValue | extended
deriving DecidableEq, Repr, Inhabited

/-- Operations that share one encoding. -/
inductive OpcodeClass where
  | singleType | doubleType | comparison | branch | pop | push | call | extended
deriving DecidableEq, Repr

namespace Opcode

def all : List Opcode :=
  [.convert, .mul, .div, .rem, .mod, .add, .sub, .and, .or, .xor, .neg, .not, .shl, .shr,
    .compare, .pop, .duplicate, .ret, .exit, .discard,
    .branch, .branchTrue, .branchFalse, .enterWith, .leaveWith,
    .push, .pushLocal, .pushGlobal, .pushBuiltin, .pushImmediate,
    .call, .callValue, .extended]

def code : Opcode → UInt8
  | .convert => 0x07
  | .mul => 0x08
  | .div => 0x09
  | .rem => 0x0A
  | .mod => 0x0B
  | .add => 0x0C
  | .sub => 0x0D
  | .and => 0x0E
  | .or => 0x0F
  | .xor => 0x10
  | .neg => 0x11
  | .not => 0x12
  | .shl => 0x13
  | .shr => 0x14
  | .compare => 0x15
  | .pop => 0x45
  | .duplicate => 0x86
  | .ret => 0x9C
  | .exit => 0x9D
  | .discard => 0x9E
  | .branch => 0xB6
  | .branchTrue => 0xB7
  | .branchFalse => 0xB8
  | .enterWith => 0xBA
  | .leaveWith => 0xBB
  | .push => 0xC0
  | .pushLocal => 0xC1
  | .pushGlobal => 0xC2
  | .pushBuiltin => 0xC3
  | .pushImmediate => 0x84
  | .call => 0xD9
  | .callValue => 0x99
  | .extended => 0xFF

def ofCode? (byte : UInt8) : Option Opcode := all.find? (·.code == byte)

def name : Opcode → String
  | .convert => "conv"
  | .mul => "mul"
  | .div => "div"
  | .rem => "rem"
  | .mod => "mod"
  | .add => "add"
  | .sub => "sub"
  | .and => "and"
  | .or => "or"
  | .xor => "xor"
  | .neg => "neg"
  | .not => "not"
  | .shl => "shl"
  | .shr => "shr"
  | .compare => "cmp"
  | .pop => "pop"
  | .duplicate => "dup"
  | .ret => "ret"
  | .exit => "exit"
  | .discard => "popz"
  | .branch => "b"
  | .branchTrue => "bt"
  | .branchFalse => "bf"
  | .enterWith => "pushenv"
  | .leaveWith => "popenv"
  | .push => "push"
  | .pushLocal => "pushloc"
  | .pushGlobal => "pushglb"
  | .pushBuiltin => "pushbltn"
  | .pushImmediate => "pushi"
  | .call => "call"
  | .callValue => "callv"
  | .extended => "break"

def ofName? (text : String) : Option Opcode := all.find? (·.name == text)

def opcodeClass : Opcode → OpcodeClass
  | .neg | .not | .duplicate | .ret | .exit | .discard | .callValue => .singleType
  | .convert | .mul | .div | .rem | .mod | .add | .sub | .and | .or | .xor | .shl | .shr =>
    .doubleType
  | .compare => .comparison
  | .branch | .branchTrue | .branchFalse | .enterWith | .leaveWith => .branch
  | .pop => .pop
  | .push | .pushLocal | .pushGlobal | .pushBuiltin | .pushImmediate => .push
  | .call => .call
  | .extended => .extended

def isBinaryOperator : Opcode → Bool
  | .mul | .div | .rem | .mod | .add | .sub | .and | .or | .xor | .shl | .shr => true
  | _ => false

def isVariablePush : Opcode → Bool
  | .push | .pushLocal | .pushGlobal | .pushBuiltin => true
  | _ => false

end Opcode

inductive DataType where
  | double | float | int32 | int64 | boolean | variant | string | int16
deriving DecidableEq, Repr, Inhabited

namespace DataType

def all : List DataType :=
  [.double, .float, .int32, .int64, .boolean, .variant, .string, .int16]

def code : DataType → Nat
  | .double => 0
  | .float => 1
  | .int32 => 2
  | .int64 => 3
  | .boolean => 4
  | .variant => 5
  | .string => 6
  | .int16 => 15

def ofCode? (nibble : Nat) : Option DataType := all.find? (·.code == nibble)

def letter : DataType → Char
  | .double => 'd'
  | .float => 'f'
  | .int32 => 'i'
  | .int64 => 'l'
  | .boolean => 'b'
  | .variant => 'v'
  | .string => 's'
  | .int16 => 'e'

def ofLetter? (c : Char) : Option DataType := all.find? (·.letter == c)

def name (type : DataType) : String := type.letter.toString

/-- Strength in the choice of a binary operator's result type. -/
def bias : DataType → Nat
  | .double | .int64 => 1
  | .variant => 2
  | _ => 0

end DataType

inductive Comparison where
  | less | lessEqual | equal | notEqual | greaterEqual | greater
deriving DecidableEq, Repr, Inhabited

namespace Comparison

def all : List Comparison :=
  [.less, .lessEqual, .equal, .notEqual, .greaterEqual, .greater]

def code : Comparison → UInt8
  | .less => 1
  | .lessEqual => 2
  | .equal => 3
  | .notEqual => 4
  | .greaterEqual => 5
  | .greater => 6

def ofCode? (byte : UInt8) : Option Comparison := all.find? (·.code == byte)

def name : Comparison → String
  | .less => "LT"
  | .lessEqual => "LTE"
  | .equal => "EQ"
  | .notEqual => "NEQ"
  | .greaterEqual => "GTE"
  | .greater => "GT"

def ofName? (text : String) : Option Comparison := all.find? (·.name == text)

def symbol : Comparison → String
  | .less => "<"
  | .lessEqual => "<="
  | .equal => "=="
  | .notEqual => "!="
  | .greaterEqual => ">="
  | .greater => ">"

end Comparison

/-- Where a variable lives: an object id, or one of the negative codes below. -/
structure Instance where
  code : Int16
deriving DecidableEq, Repr, Inhabited

namespace Instance

/-- Not specified; the same code as object zero. -/
def unspecified : Instance := ⟨0⟩
def self : Instance := ⟨-1⟩
def other : Instance := ⟨-2⟩
def everyone : Instance := ⟨-3⟩
def noone : Instance := ⟨-4⟩
def global : Instance := ⟨-5⟩
def builtin : Instance := ⟨-6⟩
def locals : Instance := ⟨-7⟩
/-- The instance is the value on top of the stack. -/
def stackTop : Instance := ⟨-9⟩
def argument : Instance := ⟨-15⟩
def static : Instance := ⟨-16⟩

def named : List (Instance × String) :=
  [(unspecified, "undefined"), (self, "self"), (other, "other"), (everyone, "all"),
    (noone, "noone"), (global, "global"), (builtin, "builtin"), (locals, "local"),
    (stackTop, "stacktop"), (argument, "argument"), (static, "static")]

def name? (inst : Instance) : Option String := named.lookup inst

def render (inst : Instance) : String :=
  match inst.name? with
  | some name => name
  | none => toString inst.code.toInt

def isObject (inst : Instance) : Bool := 0 ≤ inst.code

/-- Instance under which the name tables store a variable: object ids and
`other`, `all`, `noone` share the storage of `self`. -/
def scope (inst : Instance) : Instance :=
  if inst ∈ [global, builtin, locals, argument, static, self] then inst else self

end Instance

inductive Access where
  | array | stackTop | normal | owned | nested | nestedStore
deriving DecidableEq, Repr, Inhabited

namespace Access

def all : List Access := [.array, .stackTop, .normal, .owned, .nested, .nestedStore]

def code : Access → UInt8
  | .array => 0x00
  | .stackTop => 0x80
  | .normal => 0xA0
  | .owned => 0xE0
  | .nested => 0x10
  | .nestedStore => 0x90

def ofCode? (byte : UInt8) : Option Access := all.find? (·.code == byte)

def name : Access → String
  | .array => "array"
  | .stackTop => "stacktop"
  | .normal => "normal"
  | .owned => "instance"
  | .nested => "multipush"
  | .nestedStore => "multipushpop"

def ofName? (text : String) : Option Access := all.find? (·.name == text)

/-- Values that the access takes from the stack before the stored one. -/
def stackOperands : Access → Nat
  | .array | .nested | .nestedStore => 2
  | .stackTop => 1
  | .normal | .owned => 0

end Access

inductive Extension where
  | checkIndex | readElement | storeElement | enterElement | setOwner
  | staticsReady | markStatics | saveReference | restoreReference | isNullish
deriving DecidableEq, Repr, Inhabited

namespace Extension

def all : List Extension :=
  [.checkIndex, .readElement, .storeElement, .enterElement, .setOwner,
    .staticsReady, .markStatics, .saveReference, .restoreReference, .isNullish]

def code : Extension → Int16
  | .checkIndex => -1
  | .readElement => -2
  | .storeElement => -3
  | .enterElement => -4
  | .setOwner => -5
  | .staticsReady => -6
  | .markStatics => -7
  | .saveReference => -8
  | .restoreReference => -9
  | .isNullish => -10

def ofCode? (number : Int16) : Option Extension := all.find? (·.code == number)

def name : Extension → String
  | .checkIndex => "chkindex"
  | .readElement => "pushaf"
  | .storeElement => "popaf"
  | .enterElement => "pushac"
  | .setOwner => "setowner"
  | .staticsReady => "isstaticok"
  | .markStatics => "setstatic"
  | .saveReference => "savearef"
  | .restoreReference => "restorearef"
  | .isNullish => "isnullish"

def ofName? (text : String) : Option Extension := all.find? (·.name == text)

end Extension

end GameScript.Bytecode
