import GameScript.Bytecode.Kinds
import GameScript.Number.Binary

/-! One instruction of the stack machine. -/

namespace GameScript.Bytecode

open Number

inductive Immediate where
  | int16 (value : Int16)
  | int32 (value : Int32)
  | int64 (value : Int64)
  | float (value : Single)
  | double (value : Double)
  | boolean (value : Bool)
  /-- Index in the table of strings. -/
  | string (id : Nat)
deriving DecidableEq, Repr

namespace Immediate

/-- The integer that an integral immediate stands for. -/
def toInt? : Immediate → Option Int
  | .int16 value => some value.toInt
  | .int32 value => some value.toInt
  | .int64 value => some value.toInt
  | .boolean value => some (if value then 1 else 0)
  | .float _ | .double _ | .string _ => none

/-- Equality of values, floating-point numbers being compared as numbers. -/
def equals : Immediate → Immediate → Bool
  | .float x, .float y => x.equals y
  | .double x, .double y => x.equals y
  | x, y => x == y

end Immediate

/-- A name used by an instruction, as an index in the name tables. -/
inductive Reference where
  | var (id : Nat) (access : Access)
  | function (id : Nat)
deriving DecidableEq, Repr

structure Instruction where
  /-- Byte offset in the code of the entry. -/
  address : Nat := 0
  opcode : Opcode
  type1 : DataType := .int32
  type2 : DataType := .int32
  comparison : Option Comparison := none
  swap : UInt8 := 0
  /-- Extra copies of a duplication, or the argument count of a value call. -/
  extra : UInt8 := 0
  owner : Instance := .unspecified
  /-- Distance of a branch, in words of four bytes. -/
  jump : Int := 0
  leavesForGood : Bool := false
  immediate : Option Immediate := none
  reference : Option Reference := none
deriving DecidableEq, Repr

namespace Instruction

instance : Inhabited Instruction := ⟨{ opcode := .exit }⟩

def length (ins : Instruction) : Nat :=
  match ins.opcode.opcodeClass with
  | .pop => if ins.type1 = .int16 then 4 else 8
  | .push =>
    match ins.type1 with
    | .int16 => 4
    | .double | .int64 => 12
    | _ => 8
  | .call => 8
  | _ => 4

theorem four_le_length (ins : Instruction) : 4 ≤ ins.length := by
  unfold length
  split
  · split <;> omega
  · split <;> omega
  · omega
  · omega

def target (ins : Instruction) : Int := ins.address + ins.jump * 4

def extension? (ins : Instruction) : Option Extension :=
  match ins.opcode, ins.immediate with
  | .extended, some (.int16 number) => Extension.ofCode? number
  | _, _ => none

def argumentCount (ins : Instruction) : Nat :=
  match ins.opcode with
  | .call =>
    match ins.immediate with
    | some (.int16 count) => count.toInt.toNat
    | _ => 0
  | .callValue => ins.extra.toNat
  | _ => 0

def access? (ins : Instruction) : Option Access :=
  match ins.reference with
  | some (.var _ access) => some access
  | _ => none

def function? (ins : Instruction) : Option Nat :=
  match ins.reference with
  | some (.function id) => some id
  | _ => none

def isSwap (ins : Instruction) : Bool := ins.opcode == .pop && ins.type1 == .int16

def immediateInt? (ins : Instruction) : Option Int := ins.immediate.bind Immediate.toInt?

/-- Equality field by field, immediates being compared as values. -/
def equals (x y : Instruction) : Bool :=
  let sameImmediate := match x.immediate, y.immediate with
    | some a, some b => a.equals b
    | none, none => true
    | _, _ => false
  sameImmediate && decide ({ x with immediate := none } = { y with immediate := none })

end Instruction

def assignAddressesFrom : Nat → List Instruction → List Instruction
  | _, [] => []
  | start, ins :: rest =>
    { ins with address := start } :: assignAddressesFrom (start + ins.length) rest

def assignAddresses (code : List Instruction) : List Instruction :=
  assignAddressesFrom 0 code

def codeLength (code : List Instruction) : Nat :=
  code.foldr (fun ins size => ins.length + size) 0

end GameScript.Bytecode
