import GameScript.Bytecode.Depth
import GameScript.Number.Decimal

/-! Listings of code entries. -/

namespace GameScript

open Builtin Bytecode Number

namespace Bytecode.CodeEntry

/-- Addresses that the instruction at an index makes the start of a block: where
branches lead to, and what follows a branch or the end of a function.  A `try`
makes blocks of its `catch`, of its `finally` and of its own opening. -/
def blockStartsOf (entry : CodeEntry) (tables : NameTables) (index : Nat)
    (ins : Instruction) : List Int :=
  let next : Int := ins.address + ins.length
  match ins.opcode with
  | .branch | .branchTrue | .branchFalse | .enterWith => [next, ins.target]
  | .leaveWith => if ins.leavesForGood then [] else [ins.target]
  | .exit | .ret => [next]
  | .call =>
    if 4 ≤ index && ins.calls tables Internal.tryHook then
      let held (distance : Nat) : Int :=
        ((entry.instructions[index - distance]?).bind Instruction.immediateInt?).getD (-1)
      [held 4] ++ (if held 2 = -1 then [] else [held 2]) ++
        [(ins.address : Int) - 24, ins.address + 12]
    else []
  | _ => []

def blockAddresses (entry : CodeEntry) (tables : NameTables) : List Nat :=
  if entry.instructions.isEmpty then []
  else
    let starts := (entry.instructions.toList.zipIdx).flatMap fun (ins, index) =>
      entry.blockStartsOf tables index ins
    let addresses := (starts.filter (isUnsignedWord 32)).map Int.toNat
    ((0 :: addresses).mergeSort (· ≤ ·)).eraseReps

end Bytecode.CodeEntry

namespace Listing

def escape (c : Char) : List Char :=
  match c with
  | '\\' => ['\\', '\\']
  | '"' => ['\\', '"']
  | '\n' => ['\\', 'n']
  | '\r' => ['\\', 'r']
  | '\t' => ['\\', 't']
  | '\x08' => ['\\', 'b']
  | '\x0C' => ['\\', 'f']
  | '\x0B' => ['\\', 'v']
  | '\x07' => ['\\', 'a']
  | c => [c]

def sanitize (text : String) : String := String.ofList (text.toList.flatMap escape)

def immediate : Option Immediate → String
  | none => ""
  | some (.int16 value) => toString value.toInt
  | some (.int32 value) => toString value.toInt
  | some (.int64 value) => toString value.toInt
  | some (.float value) => value.render .plain
  | some (.double value) => value.render .plain
  | some (.boolean value) => if value then "true" else "false"
  | some (.string id) => s!"#{id}"

def variableText (tables : NameTables) (ins : Instruction) : Except TableError String := do
  match ins.reference with
  | some (.var id access) =>
    let owner := if ins.owner = .unspecified then "" else ins.owner.render ++ "."
    let stored ← tables.storedVariable id
    if access = .normal then return owner ++ stored.name
    else return s!"{owner}[{access.name}]{stored.scope.render}.{stored.name}"
  | _ => return "?"

def destination (entry : CodeEntry) (blocks : List Nat) (ins : Instruction) : String :=
  if ins.target = entry.length then " [end]"
  else if ins.leavesForGood then " [magic]"
  else
    let block? := if 0 ≤ ins.target then blocks.idxOf? ins.target.toNat else none
    match block? with
    | some block => s!" [{block}]"
    | none => s!" [{ins.target}]"

def operands (entry : CodeEntry) (tables : NameTables) (blocks : List Nat)
    (ins : Instruction) : Except TableError String := do
  let type1 := ins.type1.name
  let type2 := ins.type2.name
  match ins.opcode.opcodeClass with
  | .singleType =>
    let copies :=
      match ins.opcode with
      | .callValue => s!" {ins.extra.toNat}"
      | .duplicate =>
        s!" {ins.extra.toNat}" ++
          (if ins.swap = 0 then "" else s!" {ins.swap.toNat % 128}")
      | _ => ""
    return s!".{type1}{copies}"
  | .doubleType => return s!".{type1}.{type2}"
  | .comparison =>
    let kind := (ins.comparison.map Comparison.name).getD "?"
    return s!".{type1}.{type2} {kind}"
  | .branch => return destination entry blocks ins
  | .pop =>
    let target ← if ins.type1 = .int16 then pure (toString ins.owner.code.toInt)
      else variableText tables ins
    return s!".{type1}.{type2} {target}"
  | .push =>
    let value ←
      if ins.type1 = .variant then variableText tables ins
      else
        match ins.immediate, ins.reference with
        | some (.string id), _ => do
          let text ← tables.string id
          pure ("\"" ++ sanitize text ++ "\"")
        | _, some (.function id) => tables.function id
        | value, _ => pure (immediate value)
    return s!".{type1} {value}"
  | .call =>
    let name ← match ins.reference with
      | some (.function id) => tables.function id
      | _ => pure "?"
    return s!".{type1} {name} {ins.argumentCount}"
  | .extended =>
    let name := (ins.extension?.map Extension.name).getD "?"
    return s!"{name}.{type1}"

def instruction (entry : CodeEntry) (tables : NameTables) (blocks : List Nat)
    (ins : Instruction) : Except TableError String := do
  let name := if ins.opcode = .extended then "" else ins.opcode.name
  let heading :=
    match blocks.idxOf? ins.address with
    | some block => s!"\n:[{block}]\n"
    | none => ""
  let operands ← operands entry tables blocks ins
  return heading ++ name ++ operands ++ "\n"

end Listing

def Bytecode.CodeEntry.listing (entry : CodeEntry) (tables : NameTables) :
    Except TableError String := do
  let blocks := entry.blockAddresses tables
  let lines ← entry.instructions.toList.mapM (Listing.instruction entry tables blocks)
  return "# Name: " ++ entry.name ++ "\n" ++ String.join lines ++ "\n:[end]"

end GameScript
