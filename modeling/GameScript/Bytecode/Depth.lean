import GameScript.Builtin.Registry
import GameScript.Bytecode.Entry
import GameScript.Names

/-! Depth of the stack of values before each instruction.

Depths spread from the start of the code, from the bodies of child functions and
from `catch` blocks, which start with the exception on the stack. -/

namespace GameScript.Bytecode

open Builtin

namespace Instruction

def calls (ins : Instruction) (tables : NameTables) (name : String) : Bool :=
  ins.opcode == .call && ins.function?.bind tables.functions.get? == some name

def isTerminator (ins : Instruction) : Bool :=
  ins.opcode == .branch || ins.opcode == .exit || ins.opcode == .ret

/-- `pushi.e -9`: the instance is the value below. -/
def isStackTopMarker (ins : Instruction) : Bool :=
  ins.opcode == .pushImmediate && ins.immediate == some (.int16 Instance.stackTop.code)

end Instruction

/-- Values on the stack, the top first: whether each is a marker that the
instance is the value below. -/
abbrev MarkerStack := List Bool

namespace MarkerStack

/-- Takes an instance off, with the value below its marker if it has one. -/
def dropInstance : MarkerStack → MarkerStack
  | true :: _ :: rest => rest
  | _ :: rest => rest
  | [] => []

def store (stack : MarkerStack) (access : Option Access) (valueOnTop : Bool) :
    MarkerStack :=
  match access with
  | some .stackTop =>
    if valueOnTop then dropInstance (stack.drop 1) else (dropInstance stack).drop 1
  | some .array | some .nested | some .nestedStore =>
    if valueOnTop then dropInstance (stack.drop 2)
    else (dropInstance (stack.drop 1)).drop 1
  | _ => stack.drop 1

def apply (ins : Instruction) (stack : MarkerStack) : MarkerStack :=
  match ins.opcode with
  | .convert | .neg | .not =>
    match stack with
    | [] => []
    | _ :: rest => false :: rest
  | .mul | .div | .rem | .mod | .add | .sub | .and | .or | .xor | .shl | .shr | .compare =>
    false :: stack.drop 2
  | .duplicate => if ins.swap = 0 then stack.take (ins.extra.toNat + 1) ++ stack else stack
  | .discard | .ret | .branchTrue | .branchFalse => stack.drop 1
  | .exit | .branch | .leaveWith => stack
  | .enterWith => dropInstance stack
  | .push | .pushLocal | .pushGlobal | .pushBuiltin | .pushImmediate =>
    match ins.access? with
    | none => ins.isStackTopMarker :: stack
    | some .normal | some .owned => false :: stack
    | some .stackTop => false :: dropInstance stack
    | some .array | some .nested | some .nestedStore =>
      false :: dropInstance (stack.drop 1)
  | .pop => if ins.isSwap then stack else stack.store ins.access? (ins.type1 == .int32)
  | .call => false :: stack.drop ins.argumentCount
  | .callValue => false :: stack.drop (ins.argumentCount + 2)
  | .extended =>
    match ins.extension? with
    | some .enterElement | some .readElement => false :: stack.drop 2
    | some .storeElement => stack.drop 3
    | some .setOwner => stack.drop 1
    | some .staticsReady => false :: stack
    | _ => stack

end MarkerStack

namespace CodeEntry

/-- Indices of the instructions that may follow the one at an index. -/
def successors (entry : CodeEntry) (index : Nat) : List Nat :=
  match entry.instructions[index]? with
  | none => []
  | some ins =>
    let next := if index + 1 < entry.instructions.size then [index + 1] else []
    let target := (entry.indexOfInt? ins.target).toList
    match ins.opcode with
    | .branch => target
    | .exit | .ret => []
    | .branchTrue | .branchFalse | .enterWith => next ++ target
    | .leaveWith => if ins.leavesForGood then next else next ++ target
    | _ => next

end CodeEntry

/-- Stacks known so far, and the indices whose successors are still to be told. -/
structure Flow where
  levels : Array (Option MarkerStack)
  work : List Nat := []

namespace Flow

/-- The first stack that reaches an instruction stays. -/
def seed (flow : Flow) (index : Nat) (stack : MarkerStack) : Flow :=
  match flow.levels[index]? with
  | some none =>
    { levels := flow.levels.set! index (some stack), work := index :: flow.work }
  | _ => flow

/-- Tells the successors of waiting instructions; each instruction waits once. -/
def run (entry : CodeEntry) : Nat → Flow → Flow
  | 0, flow => flow
  | fuel + 1, flow =>
    match flow.work with
    | [] => flow
    | index :: work =>
      let flow := { flow with work }
      match flow.levels[index]?, entry.instructions[index]? with
      | some (some stack), some ins =>
        let after := stack.apply ins
        run entry fuel <|
          (entry.successors index).foldl (fun flow next => flow.seed next after) flow
      | _, _ => run entry fuel flow

end Flow

namespace CodeEntry

/-- Number of values that were dropped to leave loops, just before the
terminator at an index. -/
def unwindsBefore (entry : CodeEntry) : Nat → Nat
  | 0 => 0
  | index + 1 =>
    match entry.instructions[index]? with
    | none => 0
    | some ins =>
      match ins.opcode with
      | .discard => entry.unwindsBefore index + 1
      | .pushLocal => entry.unwindsBefore index
      | .leaveWith => if ins.leavesForGood then entry.unwindsBefore index else 0
      | _ => 0

/-- Guesses the stack of an unreached instruction that follows a terminator: the
depth before loops were left. -/
def guess (entry : CodeEntry) (flow : Flow) (index : Nat) : Option MarkerStack := do
  guard (flow.levels[index]? == some none)
  let ins ← entry.instructions[index - 1]?
  guard ins.isTerminator
  let stack ← (← flow.levels[index - 1]?)
  some (List.replicate ((stack.apply ins).length + entry.unwindsBefore (index - 1)) false)

def guessAll (entry : CodeEntry) (flow : Flow) : Flow × Bool :=
  let size := entry.instructions.size
  (List.range size).foldl (fun (flow, progressed) index =>
    if index = 0 then (flow, progressed)
    else
      match entry.guess flow index with
      | some stack => (Flow.run entry (size + 1) (flow.seed index stack), true)
      | none => (flow, progressed)) (flow, false)

/-- Passes until nothing more can be guessed. -/
def guessUntilStable (entry : CodeEntry) : Nat → Flow → Flow
  | 0, flow => flow
  | fuel + 1, flow =>
    match entry.guessAll flow with
    | (flow, true) => entry.guessUntilStable fuel flow
    | (flow, false) => flow

def catchStarts (entry : CodeEntry) (tables : NameTables) : List Nat :=
  (List.range entry.instructions.size).filterMap fun index => do
    let ins ← entry.instructions[index]?
    guard (2 ≤ index && ins.calls tables Internal.tryHook)
    let address ← entry.instructions[index - 2]?
    entry.indexOfInt? (address.immediateInt?.getD (-1))

/-- What is known without following the code. -/
def seeds (entry : CodeEntry) (tables : NameTables) : List (Nat × MarkerStack) :=
  (0, []) ::
    (entry.children.filterMap fun child => (entry.indexOf? child.offset).map (·, [])) ++
    (entry.catchStarts tables).map (·, [false])

def depths (entry : CodeEntry) (tables : NameTables) : Array (Option Nat) :=
  let size := entry.instructions.size
  let seeded :=
    (entry.seeds tables).foldl (fun (flow : Flow) (index, stack) => flow.seed index stack)
    ⟨Array.replicate size none, []⟩
  let flow := entry.guessUntilStable (size + 1) (Flow.run entry (size + 1) seeded)
  flow.levels.map (·.map List.length)

end CodeEntry

end GameScript.Bytecode
