import GameScript.Bisection
import GameScript.Bytecode.Codec

/-! Code entries: the units of compiled code. -/

namespace GameScript.Bytecode

/-- A function whose body lies inside the code of an entry. -/
structure ChildFunction where
  name : String
  /-- Address of the first instruction of the body. -/
  offset : Nat
  argumentCount : Nat
  locals : Nat
  isConstructor : Bool
deriving DecidableEq, Repr

structure CodeEntry where
  name : String
  instructions : Array Instruction
  length : Nat
  locals : List String := []
  argumentCount : Nat := 0
  children : List ChildFunction := []
deriving DecidableEq, Repr

namespace CodeEntry

def ofInstructions (name : String) (code : List Instruction) : CodeEntry :=
  { name, instructions := (assignAddresses code).toArray, length := codeLength code }

def ofBytes (name : String) (bytes : List UInt8) : Except CodecError CodeEntry :=
  (Codec.decode bytes).map (ofInstructions name)

def toBytes (entry : CodeEntry) : List UInt8 := Codec.encode entry.instructions.toList

def indexOf? (entry : CodeEntry) (address : Nat) : Option Nat :=
  let notAfter (index : Nat) : Bool := entry.instructions[index]?.any (·.address ≤ address)
  let index := bisect notAfter 0 entry.instructions.size
  match entry.instructions[index]? with
  | some ins => if ins.address = address then some index else none
  | none => none

def indexOfInt? (entry : CodeEntry) (address : Int) : Option Nat :=
  if 0 ≤ address then entry.indexOf? address.toNat else none

def childAt? (entry : CodeEntry) (offset : Nat) : Option ChildFunction :=
  entry.children.find? (·.offset == offset)

/-- Address of the instruction at an index, the length of the code past the last one. -/
def addressAt (entry : CodeEntry) (index : Nat) : Nat :=
  match entry.instructions[index]? with
  | some ins => ins.address
  | none => entry.length

end CodeEntry

end GameScript.Bytecode
