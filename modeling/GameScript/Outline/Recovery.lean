import GameScript.Bytecode.Depth
import GameScript.Outline.Basic

/-! Recovery of outlines from code.

A range of instructions is run on a stack of nodes.  Branches are recognised by
the shapes that loops, `switch`, `with`, `try`, static variables, lazy operators
and conditional expressions have in code; each such shape recovers the ranges
inside it.

A forward branch inside a loop may be a `continue` whose destination is not known
yet.  It interrupts the loop, which is then recovered again with that
destination. -/

namespace GameScript.Outline

open Builtin Bytecode Number

inductive ShapeFault where
  | insideInstruction (address : Nat)
  | outsideEntry (address : Int)
  | valuesLeft (count : Nat)
  | notOneValue
  | strayLeaveWith
  | emptyPush
  | pushWithoutVariable
  | swapPop
  | popWithoutVariable
  | callWithoutFunction
  | swapDuplicate
  | indexWithoutArray
  | unreachableSwitch
  | unexplainedJump (address : Nat)
  | backwardBranch
  | strayBranchTrue
  | valueInBranch
  | longForStep
  | valuesInCondition
  | repeatEpilogue
  | unmatchedEnterWith
  | testWithoutCompare
  | testsOffEntry
  | unexpectedAmongTests
  | unclosedSwitch
  | malformedTry
  | tryWithoutFinally
  | tryBody
  | catchBody
  | valueInCatch
  | catchWithoutVariable
  | unclosedFinally
  | staticsWithoutBranch
  | unclosedStatics
  | strayContinue
deriving DecidableEq, Repr

namespace ShapeFault

def message : ShapeFault → String
  | .insideInstruction address => s!"jump to {address} lands inside an instruction"
  | .outsideEntry address => s!"jump to {address} leaves the entry"
  | .valuesLeft count => s!"{count} value(s) left on the stack"
  | .notOneValue => "expected a single value"
  | .strayLeaveWith => "popenv outside of its with"
  | .emptyPush => "push without an operand"
  | .pushWithoutVariable => "variable push without a reference"
  | .swapPop => "swap pop is not produced by this compiler"
  | .popWithoutVariable => "pop without a variable"
  | .callWithoutFunction => "call without a function"
  | .swapDuplicate => "dup with swap is not produced by this compiler"
  | .indexWithoutArray => "array break without an array access"
  | .unreachableSwitch => "switch in unreachable code"
  | .unexplainedJump address => s!"unexplained jump to {address}"
  | .backwardBranch => "backward bf outside of a do-until"
  | .strayBranchTrue => "bt outside of a short-circuit, repeat or switch"
  | .valueInBranch => "value left in an if branch"
  | .longForStep => "for step with several statements"
  | .valuesInCondition => "do-until condition leaves values behind"
  | .repeatEpilogue => "repeat without its counter epilogue"
  | .unmatchedEnterWith => "pushenv without its popenv"
  | .testWithoutCompare => "switch test without cmp"
  | .testsOffEntry => "switch tests run off the entry"
  | .unexpectedAmongTests => "unexpected instruction among switch tests"
  | .unclosedSwitch => "switch without its closing popz"
  | .malformedTry => "malformed try hook"
  | .tryWithoutFinally => "try without finally address"
  | .tryBody => "try body"
  | .catchBody => "catch body"
  | .valueInCatch => "value left in a catch block"
  | .catchWithoutVariable => "catch without its variable"
  | .unclosedFinally => "finally without its closing call"
  | .staticsWithoutBranch => "isstaticok without its branch"
  | .unclosedStatics => "static block without setstatic"
  | .strayContinue => "continue outside of a loop"

end ShapeFault

inductive RecoveryError where
  | shape (address : Nat) (fault : ShapeFault)
  | underflow (address : Nat)
  | conditionalShape (address : Nat)
  | table (error : TableError)
  /-- The code leads back to code that was recovered before, without end. -/
  | endless
deriving DecidableEq, Repr

namespace RecoveryError

def message : RecoveryError → String
  | .shape address fault => s!"unrecognized structure at {address}: {fault.message}"
  | .underflow address => s!"stack underflow at {address}"
  | .conditionalShape address => s!"malformed conditional expression at {address}"
  | .table error => error.message
  | .endless => "the code has no end"

end RecoveryError

inductive Fault where
  | error (cause : RecoveryError)
  /-- A `continue` of the loop with the given number of loops around it leads to
  an address that was not expected. -/
  | interrupted (loop address : Nat)
deriving DecidableEq, Repr

namespace Fault

/-- Outside of its loop a `continue` is an error. -/
def settle : Fault → RecoveryError
  | .error cause => cause
  | .interrupted _ address => .shape address .strayContinue

end Fault

structure Slot where
  id : NodeId
  /-- It marks the value below as the instance. -/
  isMarker : Bool := false
  isConverted : Bool := false
deriving DecidableEq, Repr

/-- Statements of a range, and the values left on its stack, the top first. -/
structure Range where
  stmts : List NodeId := []
  stack : List Slot := []
deriving DecidableEq, Repr

inductive LoopShape where
  | whileLoop | forLoop | doUntil | repeatLoop | withLoop | switch
deriving DecidableEq, Repr

/-- A loop or `switch` that is being recovered. -/
structure LoopFrame where
  shape : LoopShape
  breakTo : Option Nat
  continueTo : Option Nat
  bodyEnd : Nat
  /-- The destination of `continue` may still turn out to be another one. -/
  isTentative : Bool := false
  continueUsed : Bool := false
deriving DecidableEq, Repr

structure RecoveryContext where
  entry : CodeEntry
  tables : NameTables
  depths : Array (Option Nat)

structure RecoveryState where
  nodes : Arena := #[]
  /-- Open loops, the innermost first. -/
  loops : List LoopFrame := []
  functions : List (String × NodeId) := []

/-- The state outlives faults. -/
abbrev RecoverM := ReaderT RecoveryContext (ExceptT Fault (StateM RecoveryState))

abbrev RangeM := StateT Range RecoverM

/-- Recovers the range between two indices from a given stack. -/
abbrev SubRange := Nat → Nat → List Slot → RecoverM Range

def fail (error : RecoveryError) : RecoverM α := throw (.error error)

def attempt (work : RecoverM α) : RecoverM (Except Fault α) :=
  tryCatch (Except.ok <$> work) fun fault => pure (Except.error fault)

def instruction? (index : Nat) : RecoverM (Option Instruction) := do
  return (← read).entry.instructions[index]?

def instructionIs (index : Nat) (test : Instruction → Bool) : RecoverM Bool := do
  return (← instruction? index).any test

def addressAt (index : Nat) : RecoverM Nat := do
  return (← read).entry.addressAt index

def depthAt (index : Nat) : RecoverM (Option Nat) := do
  return ((← read).depths[index]?).join

def failShape (index : Nat) (fault : ShapeFault) : RecoverM α := do
  fail (.shape (← addressAt index) fault)

def indexOf (index address : Nat) : RecoverM Nat := do
  let entry := (← read).entry
  if address = entry.length then return entry.instructions.size
  else
    match entry.indexOf? address with
    | some found => return found
    | none => failShape index (.insideInstruction address)

def jumpTarget (index : Nat) : RecoverM Nat := do
  let target := ((← instruction? index).map Instruction.target).getD 0
  if isUnsignedWord 32 target then return target.toNat
  else failShape index (.outsideEntry target)

def liftTable (result : Except TableError α) : RecoverM α :=
  match result with
  | .ok value => pure value
  | .error error => fail (.table error)

def nodeAt (id : NodeId) : RecoverM Node := do
  return (← get).nodes.node id

def addNode (node : Node) : RecoverM NodeId := do
  let id := (← get).nodes.size
  modify fun s => { s with nodes := s.nodes.push node }
  return id

def replaceNode (id : NodeId) (node : Node) : RecoverM Unit :=
  modify fun s => { s with nodes := s.nodes.replace id node }

/-- A small integer that is used as a boolean without conversion is one. -/
def makeBoolean (slot : Slot) (type : DataType) : RecoverM Unit := do
  if type = .boolean && !slot.isConverted then
    match ← nodeAt slot.id with
    | .int16 value .none =>
      if value = 0 || value = 1 then replaceNode slot.id (.boolean (value == 1))
    | _ => pure ()

def pushSlot (slot : Slot) : RangeM Unit :=
  modify fun range => { range with stack := slot :: range.stack }

def pushNode (node : Node) : RangeM Unit := do
  pushSlot { id := ← addNode node }

def addStatementId (id : NodeId) : RangeM Unit :=
  modify fun range => { range with stmts := range.stmts ++ [id] }

def addStatement (node : Node) : RangeM Unit := do
  addStatementId (← addNode node)

def underflow (index : Nat) : RecoverM α := do
  fail (.underflow (← addressAt index))

def take (index : Nat) : RangeM Slot := do
  match (← get).stack with
  | [] => underflow index
  | slot :: stack =>
    modify fun range => { range with stack }
    return slot

def takeInstance (index : Nat) : RangeM Slot := do
  let slot ← take index
  if slot.isMarker then take index else return slot

def takeArguments (index : Nat) : Nat → RangeM (List NodeId)
  | 0 => return []
  | count + 1 => do
    let slot ← take index
    let rest ← takeArguments index count
    return slot.id :: rest

def statements (run : SubRange) (start stop : Nat) : RecoverM (List NodeId) := do
  let range ← run start stop []
  if range.stack.isEmpty then return range.stmts
  else failShape start (.valuesLeft range.stack.length)

def expression (run : SubRange) (start stop : Nat) : RecoverM Slot := do
  match ← run start stop [] with
  | ⟨[], [slot]⟩ => return slot
  | _ => failShape start .notOneValue

def blockNode (run : SubRange) (start stop : Nat) : RecoverM NodeId := do
  addNode (.block (← statements run start stop))

def insideLoop (frame : LoopFrame) (work : RecoverM α) :
    RecoverM (Except Fault α × LoopFrame) := do
  modify fun s => { s with loops := frame :: s.loops }
  let outcome ← attempt work
  let left := (← get).loops.headD frame
  modify fun s => { s with loops := s.loops.tail }
  return (outcome, left)

def withinLoop (frame : LoopFrame) (work : RecoverM α) : RecoverM α := do
  match ← insideLoop frame work with
  | (.ok value, _) => return value
  | (.error fault, _) => throw fault

def convert (index : Nat) (ins : Instruction) : RangeM Unit := do
  let slot ← take index
  makeBoolean slot ins.type1
  pushSlot { slot with isConverted := true }

def unary (index : Nat) (ins : Instruction) : RangeM Unit := do
  let operand ← take index
  makeBoolean operand ins.type1
  pushNode (.unary ins.opcode operand.id ins.type1)

def binary (index : Nat) (ins : Instruction) : RangeM Unit := do
  let right ← take index
  let left ← take index
  makeBoolean right ins.type1
  makeBoolean left ins.type2
  pushNode (.binary ins.opcode ins.comparison left.id right.id ins.type2 ins.type1)

def variableParts (index : Nat) (ins : Instruction) (access : Access) :
    RangeM (Holder × List NodeId) := do
  match access with
  | .normal | .owned => return (.fixed ins.owner, [])
  | .stackTop => return (.expr (← takeInstance index).id, [])
  | .array | .nested | .nestedStore =>
    let element ← take index
    let holder ← takeInstance index
    match ← nodeAt holder.id with
    | .int16 value .none =>
      if holder.isConverted then return (.expr holder.id, [element.id])
      else return (.fixed ⟨value⟩, [element.id])
    | _ => return (.expr holder.id, [element.id])

def immediateNode (index : Nat) (ins : Instruction) : RecoverM Node := do
  let tables := (← read).tables
  match ins.reference, ins.immediate with
  | some (.function id), _ => return .functionRef (← liftTable (tables.function id))
  | _, some (.int16 value) =>
    return .int16 value (if ins.opcode = .push then .after else .none)
  | _, some (.int32 value) => return .int32 value
  | _, some (.int64 value) => return .int64 value
  | _, some (.float value) => return .float value
  | _, some (.double value) => return .double value
  | _, some (.boolean value) => return .boolean value
  | _, some (.string id) => return .string (← liftTable (tables.string id))
  | _, none => failShape index .emptyPush

def pushValue (index : Nat) (ins : Instruction) : RangeM Unit := do
  if ins.type1 = .variant then
    match ins.reference with
    | some (.var id access) =>
      let tables := (← read).tables
      let stored ← liftTable (tables.storedVariable id)
      let (holder, indices) ← variableParts index ins access
      pushNode (.var ⟨stored.name, holder, access, indices, ins.opcode⟩)
    | _ => failShape index .pushWithoutVariable
  else
    let id ← addNode (← immediateNode index ins)
    pushSlot { id, isMarker := ins.isStackTopMarker }

/-- The step that an assignment of `value` makes if `top` stays on the stack, and
the literal one in it. -/
def stepKind? (nodes : Arena) (value top : NodeId) : Option (AssignKind × NodeId) :=
  match nodes.node value with
  | .binary opcode _ left right _ _ =>
    match nodes.node right with
    | .int16 1 .after | .int16 1 .before =>
      if opcode = .add || opcode = .sub then
        if top = value then some (.stepBefore (opcode == .add), right)
        else if top = left then some (.stepAfter (opcode == .add), right)
        else none
      else none
    | _ => none
  | _ => none

/-- An assignment, or a step whose value stays on the stack. -/
def popValue (index : Nat) (ins : Instruction) : RangeM Unit := do
  if ins.isSwap then failShape index .swapPop
  match ins.reference with
  | some (.var id access) =>
    let tables := (← read).tables
    let stored ← liftTable (tables.storedVariable id)
    let valueOnTop := ins.type1 = .int32
    let early ← if valueOnTop then some <$> take index else pure none
    let (holder, indices) ← variableParts index ins access
    let value ← match early with
      | some value => pure value
      | none => take index
    makeBoolean value ins.type2
    let target ← addNode (.var ⟨stored.name, holder, access, indices, .pop⟩)
    let nodes := (← getThe RecoveryState).nodes
    let top := (← get).stack.head?
    let step :=
      if valueOnTop || !(access == .normal || access == .owned) then none
      else top.bind fun top => stepKind? nodes value.id top.id
    match step with
    | some (kind, one) =>
      match kind with
      | .stepBefore _ => replaceNode one (.int16 1 .before)
      | _ => pure ()
      let id ← addNode (.assign { target, value := target, kind })
      modify fun range => { range with stack := { id } :: range.stack.tail }
    | none => addStatement (.assign { target, value := value.id, valueOnTop })
  | _ => failShape index .popWithoutVariable

/-- A dropped value is a statement; with nothing to drop a loop is being left. -/
def discardValue : RangeM Unit := do
  match (← get).stack with
  | [] => pure ()
  | slot :: stack =>
    modify fun range => { range with stack }
    match ← nodeAt slot.id with
    | .call name [value] =>
      if name = Internal.throw then addStatement (.throw value) else addStatementId slot.id
    | _ => addStatementId slot.id

def callValue (index : Nat) (ins : Instruction) : RangeM Unit := do
  let callee ← take index
  let owner ← take index
  let args ← takeArguments index ins.argumentCount
  pushNode (.callValue callee.id owner.id args)

def duplicate (index count : Nat) : RangeM Unit := do
  let stack := (← get).stack
  if stack.length < count then underflow index
  modify fun range => { range with stack := stack.take count ++ stack }

def addIndex (index : Nat) (array element : NodeId) : RecoverM Unit := do
  match ← nodeAt array with
  | .var v => replaceNode array (.var { v with indices := v.indices ++ [element] })
  | _ => failShape index .indexWithoutArray

def enclosingLoop? : List LoopFrame → Option (LoopFrame × Nat)
  | [] => none
  | frame :: outer =>
    if frame.shape = .switch then enclosingLoop? outer else some (frame, outer.length)

def markContinue : List LoopFrame → List LoopFrame
  | [] => []
  | frame :: outer =>
    if frame.shape = .switch then frame :: markContinue outer
    else { frame with continueUsed := true } :: outer

def isExplained (loops : List LoopFrame) (address : Nat) : Bool :=
  loops.head?.any (·.breakTo == some address) ||
    (enclosingLoop? loops).any (·.1.continueTo == some address)

def jumpNode (index address : Nat) : RecoverM Node := do
  let loops := (← get).loops
  if loops.head?.any (·.breakTo == some address) then return .breakLoop
  if (enclosingLoop? loops).any (·.1.continueTo == some address) then
    modify fun s => { s with loops := markContinue s.loops }
    return .continueLoop
  if address = (← read).entry.length then return .exit
  match enclosingLoop? loops with
  | some (frame, depth) =>
    if frame.isTentative && (frame.shape == .whileLoop || frame.shape == .doUntil) &&
        (← addressAt index) < address && address ≤ frame.bodyEnd then
      throw (.interrupted depth address)
    else failShape index (.unexplainedJump address)
  | none => failShape index (.unexplainedJump address)

/-- The instruction at `target` pushes what a lazy operator skips to, and the one
before it jumps over that push. -/
def isLazyEnd (target : Nat) (value : Int16) : RecoverM Bool := do
  let isPush ← instructionIs target fun ins =>
    ins.opcode == .push && ins.type1 == .int16 && ins.immediate == some (.int16 value)
  let next ← addressAt (target + 1)
  let isJump ← instructionIs (target - 1) fun ins =>
    ins.opcode == .branch && ins.target == next
  return 1 ≤ target && isPush && isJump

def lazyOperands (run : SubRange) (opcode : Opcode) (skip : Nat) (stop : Nat) :
    Nat → Nat → Nat → RecoverM (List NodeId)
  | 0, start, _ => do
    let slot ← expression run start stop
    makeBoolean slot .boolean
    return [slot.id]
  | count + 1, start, index => do
    if ← instructionIs index fun ins => ins.opcode == opcode && ins.target == skip then
      let slot ← expression run start index
      makeBoolean slot .boolean
      let rest ← lazyOperands run opcode skip stop count (index + 1) (index + 1)
      return slot.id :: rest
    else lazyOperands run opcode skip stop count start (index + 1)

def lazyLogic (run : SubRange) (isAnd : Bool) (first : Slot) (index target : Nat) :
    RangeM Nat := do
  let opcode := if isAnd then Opcode.branchFalse else .branchTrue
  let skip ← addressAt target
  let stop := target - 1
  let rest ← lazyOperands run opcode skip stop (stop - (index + 1)) (index + 1) (index + 1)
  pushNode (.lazyLogic isAnd (first.id :: rest))
  return target + 1

def ifThen (run : SubRange) (condition : Slot) (index target : Nat) : RangeM Nat := do
  let yes ← blockNode run (index + 1) target
  addStatement (.ifElse condition.id yes none false)
  return target

/-- `if` with `else`, or a conditional expression: the second part starts at
`target` and ends at the address `stopAddress`. -/
def ifElse (run : SubRange) (condition : Slot) (index target stopAddress : Nat) :
    RangeM Nat := do
  let stop ← indexOf (target - 1) stopAddress
  if target = stop && isExplained (← getThe RecoveryState).loops stopAddress then
    ifThen run condition index target
  else
    let yes ← run (index + 1) (target - 1) []
    match yes with
    | ⟨[], [slot]⟩ =>
      match ← attempt (expression run target stop) with
      | .ok no =>
        pushNode (.conditional condition.id slot.id no.id)
        return stop
      | .error _ => fail (.conditionalShape (← addressAt target))
    | ⟨stmts, []⟩ =>
      let no ← statements run target stop
      let yes ← addNode (.block stmts)
      let no ← addNode (.block no)
      addStatement (.ifElse condition.id yes (some no) false)
      return stop
    | _ => failShape index .valueInBranch

/-- `while`, or `for` if a `continue` shows where the step starts. -/
def whileLoop (run : SubRange) (condition : Slot) (index target head : Nat) :
    RangeM Nat := do
  let bodyEnd ← addressAt (target - 1)
  let exit ← addressAt target
  let start ← addressAt head
  let depth := (← getThe RecoveryState).loops.length
  let frame : LoopFrame := ⟨.whileLoop, some exit, some start, bodyEnd, true, false⟩
  let (outcome, left) ← insideLoop frame (statements run (index + 1) (target - 1))
  let node ← match outcome with
    | .ok body => do
      let body ← addNode (.block body)
      pure (.whileLoop (some condition.id) body left.continueUsed)
    | .error (.interrupted loop address) =>
      if loop = depth then do
        let stepStart ← indexOf (target - 1) address
        let frame : LoopFrame := ⟨.forLoop, some exit, some address, bodyEnd, false, false⟩
        let body ← withinLoop frame (statements run (index + 1) stepStart)
        let step ← match ← statements run stepStart (target - 1) with
          | [] => pure none
          | [step] => pure (some step)
          | _ => failShape stepStart .longForStep
        let body ← addNode (.block body)
        pure (.forLoop none (some condition.id) step body)
      else throw (.interrupted loop address)
    | .error fault => throw fault
  addStatement node
  return target

/-- `bf`: a lazy operator, a loop, or an `if`. -/
def branchFalse (run : SubRange) (stop stmtStart index : Nat) : RangeM Nat := do
  let condition ← take index
  makeBoolean condition .boolean
  let address ← jumpTarget index
  if address ≤ (← addressAt index) then failShape index .backwardBranch
  let target ← indexOf index address
  if ← isLazyEnd target 0 then lazyLogic run true condition index target
  else if index + 1 < target && (← instructionIs (target - 1) (·.opcode == .branch)) then
    let back ← jumpTarget (target - 1)
    if back = (← addressAt stmtStart) && (← get).stack.isEmpty then
      whileLoop run condition index target stmtStart
    else if (← addressAt (target - 1)) < back && back ≤ (← addressAt stop) then
      ifElse run condition index target back
    else ifThen run condition index target
  else ifThen run condition index target

def branchTrue (run : SubRange) (index : Nat) : RangeM Nat := do
  let condition ← take index
  makeBoolean condition .boolean
  let address ← jumpTarget index
  let target ← indexOf index address
  if (← addressAt index) < address && (← isLazyEnd target 1) then
    lazyLogic run false condition index target
  else failShape index .strayBranchTrue

def lastBranchTo (address : Nat) (start : Nat) : Nat → RecoverM (Option Nat)
  | 0 => return none
  | count + 1 => do
    let index := start + count
    if ← instructionIs index fun ins =>
      ins.opcode == .branchFalse && ins.target == address then
      return some index
    else lastBranchTo address start count

/-- `do` with its `until`, if one starts at `start`. -/
def doUntil (run : SubRange) (start stop : Nat) : RangeM (Option Nat) := do
  match ← lastBranchTo (← addressAt start) start (stop - start) with
  | none => return none
  | some index =>
    let exit ← addressAt (index + 1)
    let bodyEnd ← addressAt index
    let depth := (← getThe RecoveryState).loops.length
    let frame : LoopFrame := ⟨.doUntil, some exit, none, bodyEnd, true, false⟩
    let (outcome, _) ← insideLoop frame (run start index [])
    let (body, condition) ← match outcome with
      | .ok ⟨stmts, [condition]⟩ => pure (stmts, condition)
      | .ok ⟨_, []⟩ => underflow index
      | .ok _ => failShape index .valuesInCondition
      | .error (.interrupted loop address) =>
        if loop = depth then do
          let conditionStart ← indexOf index address
          let frame : LoopFrame :=
            ⟨.doUntil, some exit, some address, bodyEnd, false, false⟩
          let body ← withinLoop frame (statements run start conditionStart)
          let condition ← expression run conditionStart index
          pure (body, condition)
        else throw (.interrupted loop address)
      | .error fault => throw fault
    makeBoolean condition .boolean
    let body ← addNode (.block body)
    addStatement (.doUntil body condition.id)
    return some (index + 1)

def isRepeat (index : Nat) (ins : Instruction) : RecoverM Bool := do
  let isZero ← instructionIs (index + 1) fun ins =>
    ins.opcode == .pushImmediate && ins.immediate == some (.int16 0)
  let isCompare ← instructionIs (index + 2) fun ins =>
    ins.opcode == .compare && ins.comparison == some .lessEqual
  let isBranch ← instructionIs (index + 3) fun ins =>
    ins.opcode == .branchTrue && (ins.address : Int) < ins.target
  return ins.type1 == .int32 && isZero && isCompare && isBranch

def repeatLoop (run : SubRange) (index : Nat) : RangeM Nat := do
  let count ← take index
  let address ← jumpTarget (index + 3)
  let stop ← indexOf (index + 3) address
  if stop < index + 9 || !(← instructionIs stop (·.opcode == .discard)) then
    failShape index .repeatEpilogue
  let decrement := stop - 5
  let exit ← addressAt stop
  let next ← addressAt decrement
  let frame : LoopFrame := ⟨.repeatLoop, some exit, some next, next, false, false⟩
  let body ← withinLoop frame (statements run (index + 4) decrement)
  let body ← addNode (.block body)
  addStatement (.repeatLoop count.id body)
  return stop + 1

/-- Where a `break` of the `with` that ends at `leave` leads to, and where the
code after the `with` starts. -/
def withExit (leave : Nat) : RecoverM (Option Nat × Nat) := do
  if ← instructionIs (leave + 1) (·.opcode == .branch) then
    let work : RecoverM Nat := do
      indexOf (leave + 1) (← jumpTarget (leave + 1))
    match ← attempt work with
    | .ok stop =>
      let isExit ← instructionIs (stop - 1) fun ins =>
        ins.opcode == .leaveWith && ins.leavesForGood
      if 1 ≤ stop && isExit then return (some (← addressAt (stop - 1)), stop)
      else return (none, leave + 1)
    | .error _ => return (none, leave + 1)
  else return (none, leave + 1)

def withLoop (run : SubRange) (index : Nat) : RangeM Nat := do
  let target ← takeInstance index
  let leave ← indexOf index (← jumpTarget index)
  if !(← instructionIs leave fun ins =>
    ins.opcode == .leaveWith && !ins.leavesForGood) then
    failShape index .unmatchedEnterWith
  let (breakTo, resume) ← withExit leave
  let next ← addressAt leave
  let frame : LoopFrame := ⟨.withLoop, breakTo, some next, next, false, false⟩
  let body ← withinLoop frame (statements run (index + 1) leave)
  let body ← addNode (.block body)
  addStatement (.withLoop target.id body)
  return resume

/-- The comparison of the first test after `index` of a `switch` whose value is
at the given depth. -/
def switchTest (depth : Nat) : Nat → Nat → RecoverM (Option Nat)
  | 0, _ => return none
  | count + 1, index => do
    match ← depthAt index with
    | none => return none
    | some found =>
      if found ≤ depth then return none
      let isCompare ← instructionIs index fun ins =>
        ins.opcode == .compare && ins.comparison == some .equal
      let isBranch ← instructionIs (index + 1) fun ins =>
        ins.opcode == .branchTrue && (ins.address : Int) < ins.target
      if found = depth + 2 && isCompare && isBranch then return some index
      else switchTest depth count (index + 1)

def switchTestAfter (depth index : Nat) : RecoverM (Option Nat) := do
  switchTest depth ((← read).entry.instructions.size - (index + 1)) (index + 1)

def isSwitch (index : Nat) : RecoverM Bool := do
  match ← depthAt index with
  | none => return false
  | some depth => return (← switchTestAfter depth index).isSome

structure SwitchLabel where
  value : NodeId
  address : Nat

/-- Tests of the `switch` at `first`, from `index` on; returns the labels and the
index of the branch that ends them. -/
def switchLabels (run : SubRange) (depth first : Nat) :
    Nat → Nat → RecoverM (List SwitchLabel × Nat)
  | 0, _ => failShape first .testsOffEntry
  | fuel + 1, index => do
    match ← instruction? index with
    | none => failShape first .testsOffEntry
    | some ins =>
      if ins.opcode = .branch then return ([], index)
      else if ins.opcode = .duplicate && ins.extra =
        0 && (← depthAt index) = some depth then
        match ← switchTestAfter depth index with
        | none => failShape index .testWithoutCompare
        | some compare =>
          let label ← expression run (index + 1) compare
          let type := ((← instruction? compare).map Instruction.type1).getD .int32
          makeBoolean label type
          let address ← jumpTarget (compare + 1)
          let (labels, stop) ← switchLabels run depth first fuel (compare + 2)
          return (⟨label.id, address⟩ :: labels, stop)
      else failShape index .unexpectedAmongTests

/-- Index after the values that are dropped to leave loops. -/
def skipUnwinding : Nat → Nat → RecoverM Nat
  | 0, index => return index
  | count + 1, index => do
    let isUnwinding ← instructionIs index fun ins =>
      ins.opcode == .discard || ins.opcode == .pushLocal ||
        (ins.opcode == .leaveWith && ins.leavesForGood)
    if isUnwinding then skipUnwinding count (index + 1) else return index

/-- A dropped value that belongs to the leaving of loops. -/
def isUnwind (index depth : Nat) : RecoverM Bool := do
  let last ← skipUnwinding (← read).entry.instructions.size index
  let deepAfter := (← depthAt (last + 1)).any (depth ≤ ·)
  return (← instructionIs last Instruction.isTerminator) && deepAfter

def switchEnd (depth : Nat) : Nat → Nat → RecoverM (Option Nat)
  | 0, _ => return none
  | count + 1, index => do
    let isDiscard ← instructionIs index (·.opcode == .discard)
    if isDiscard && (← depthAt index) == some depth && !(← isUnwind index depth) then
      return some index
    else switchEnd depth count (index + 1)

def switchArms (run : SubRange) (index : Nat) (labels : List SwitchLabel)
    (fallback : Option Nat) (stop : Nat) : List Nat → RecoverM (List NodeId)
  | [] => return []
  | start :: rest => do
    let cases ← (labels.filter (·.address == start)).mapM fun label =>
      addNode (.switchCase label.value)
    let default ← if fallback = some start then (fun id => [id]) <$> addNode .switchDefault
      else pure []
    let first ← indexOf index start
    let last ← match rest with
      | next :: _ => indexOf index next
      | [] => pure stop
    let body ← statements run first last
    let others ← switchArms run index labels fallback stop rest
    return cases ++ default ++ body ++ others

def greatestIndex (index : Nat) : Nat → List Nat → RecoverM Nat
  | found, [] => return found
  | found, address :: rest => do
    greatestIndex index (max found (← indexOf index address)) rest

/-- The arms of a `switch` whose tests end with the branch at `index`. -/
def switchBody (run : SubRange) (index : Nat) (value : Slot) (labels : List SwitchLabel)
    (fallback depth : Nat) : RangeM Nat := do
  let start ← greatestIndex index (index + 1) (labels.map (·.address) ++ [fallback])
  match ← switchEnd depth ((← read).entry.instructions.size - start) start with
  | none => failShape index .unclosedSwitch
  | some stop =>
    let exit ← addressAt stop
    let default := if fallback = exit then none else some fallback
    let starts :=
      ((labels.map (·.address) ++ default.toList).mergeSort (· ≤ ·)).eraseReps
    let frame : LoopFrame := ⟨.switch, some exit, none, exit, false, false⟩
    let body ← withinLoop frame (switchArms run index labels default stop starts)
    addStatement (.switch value.id body)
    return stop + 1

def switch (run : SubRange) (index : Nat) (value : Slot) : RangeM Nat := do
  match ← depthAt index with
  | none => failShape index .unreachableSwitch
  | some depth =>
    let size := (← read).entry.instructions.size
    let (labels, stop) ← switchLabels run depth index (size + 1) index
    let fallback ← jumpTarget stop
    switchBody run stop value labels fallback depth

/-! `try`, static variables and functions. -/

def finallyEnd (start : Nat) : Nat → Nat → Nat → RecoverM Nat
  | 0, _, _ => failShape start .unclosedFinally
  | count + 1, nesting, index => do
    let tables := (← read).tables
    if ← instructionIs index (·.calls tables Internal.tryHook) then
      finallyEnd start count (nesting + 1) (index + 1)
    else if ← instructionIs index (·.calls tables Internal.finishFinally) then
      if nesting = 0 then return index
      else finallyEnd start count (nesting - 1) (index + 1)
    else finallyEnd start count nesting (index + 1)

def heldAddress? (index : Nat) : RecoverM (Option Nat) := do
  match (← instruction? index).bind Instruction.immediateInt? with
  | some n => return if isUnsignedWord 32 n then some n.toNat else none
  | none => return none

/-- The variable to which a `catch` assigns the exception first. -/
def catchVariable? (nodes : Arena) (exception : NodeId) (stmts : List NodeId) :
    Option (String × List NodeId) :=
  match stmts with
  | [] => none
  | first :: rest =>
    match nodes.node first with
    | .assign assignment =>
      if assignment.value = exception then
        (nodes.varNode? assignment.target).map fun v => (v.name, rest)
      else none
    | _ => none

/-- The range from `start` to `gap` instructions before `stop`. -/
def shortened? (start gap stop : Nat) : Option Nat :=
  if start + gap ≤ stop then some (stop - gap) else none

def catchBlock (run : SubRange) (start cleanup : Nat) : RecoverM (String × NodeId) := do
  match shortened? start 2 cleanup with
  | none => failShape start .catchBody
  | some stop =>
    let exception ← addNode .exception
    let handler ← run start stop [{ id := exception }]
    if !handler.stack.isEmpty then failShape start .valueInCatch
    match catchVariable? (← get).nodes exception handler.stmts with
    | none => failShape start .catchWithoutVariable
    | some (name, stmts) => return (name, ← addNode (.block stmts))

def tryBlock (run : SubRange) (index : Nat) : RangeM Nat := do
  discard <| take index
  discard <| take index
  if index < 4 || !(← instructionIs (index + 1) (·.opcode == .discard)) then
    failShape index .malformedTry
  let cleanup ← match ← heldAddress? (index - 4) with
    | some address => indexOf index address
    | none => failShape index .tryWithoutFinally
  let (body, handler) ← match ← heldAddress? (index - 2) with
    | none =>
      match shortened? (index + 2) 2 cleanup with
      | none => failShape index .tryBody
      | some stop => do
        let body ← statements run (index + 2) stop
        pure (body, none)
    | some address => do
      let start ← indexOf index address
      match shortened? (index + 2) 3 start with
      | none => failShape index .tryBody
      | some stop => do
        let body ← statements run (index + 2) stop
        let handler ← catchBlock run start cleanup
        pure (body, some handler)
  let size := (← read).entry.instructions.size
  let close ← finallyEnd cleanup (size - cleanup) 0 cleanup
  let stmts ← statements run cleanup close
  let finallyBlock ←
    if handler.isNone || !stmts.isEmpty then some <$> addNode (.block stmts) else pure none
  let body ← addNode (.block body)
  addStatement (.tryBlock body handler finallyBlock)
  return close + 2

def staticBlock (run : SubRange) (index : Nat) : RangeM Nat := do
  if !(← instructionIs (index + 1) (·.opcode == .branchTrue)) then
    failShape index .staticsWithoutBranch
  let target ← indexOf (index + 1) (← jumpTarget (index + 1))
  let isClosed ← instructionIs (target - 1) (·.extension? == some .markStatics)
  if target < index + 3 || !isClosed then failShape index .unclosedStatics
  let items ← statements run (index + 2) (target - 1)
  addStatement (.statics items)
  return target

/-- A function whose body is jumped over; its last `exit` is not part of it. -/
def childFunction (run : SubRange) (index : Nat) (child : ChildFunction) (address : Nat) :
    RecoverM Nat := do
  let target ← indexOf index address
  let endsWithExit ← instructionIs (target - 1) (·.opcode == .exit)
  let stop := if index + 1 < target && endsWithExit then target - 1 else target
  let loops := (← get).loops
  modify fun s => { s with loops := [] }
  let outcome ← attempt (statements run (index + 1) stop)
  modify fun s => { s with loops }
  match outcome with
  | .error fault => fail fault.settle
  | .ok body =>
    let body ← addNode (.block body)
    let id ← addNode
      (.function { name := child.name, argumentCount := child.argumentCount
                   isConstructor := child.isConstructor, body })
    modify fun s => { s with functions := putPair child.name id s.functions }
    return target

def call (run : SubRange) (index : Nat) (ins : Instruction) : RangeM Nat := do
  match ins.function? with
  | none => failShape index .callWithoutFunction
  | some id =>
    let tables := (← read).tables
    let name ← liftTable (tables.function id)
    if name = Internal.tryHook then tryBlock run index
    else
      let args ← takeArguments index ins.argumentCount
      pushNode (.call name args)
      return index + 1

def duplication (run : SubRange) (index : Nat) (ins : Instruction) : RangeM Nat := do
  if ins.swap ≠ 0 then failShape index .swapDuplicate
  if ins.extra = 0 && (← isRepeat index ins) then repeatLoop run index
  else if ins.extra = 0 && (← isSwitch index) then
    let value ← take index
    makeBoolean value ins.type1
    switch run index value
  else
    duplicate index (ins.extra.toNat + 1)
    return index + 1

def extended (run : SubRange) (index : Nat) (ins : Instruction) : RangeM Nat := do
  match ins.extension? with
  | some .staticsReady => staticBlock run index
  | some .enterElement | some .readElement =>
    let element ← take index
    let array ← take index
    addIndex index array.id element.id
    pushSlot { id := array.id }
    return index + 1
  | some .storeElement =>
    let element ← take index
    let array ← take index
    let value ← take index
    addIndex index array.id element.id
    addStatement (.assign { target := array.id, value := value.id })
    return index + 1
  | some .setOwner =>
    discard <| take index
    return index + 1
  | _ => return index + 1

/-- `b`: a function, a `switch` without labels, or the leaving of a loop. -/
def branch (run : SubRange) (index : Nat) : RangeM Nat := do
  let address ← jumpTarget index
  let entry := (← read).entry
  match entry.childAt? (← addressAt (index + 1)) with
  | some child => childFunction run index child address
  | none =>
    if (← get).stack.isEmpty then
      addStatement (← jumpNode index address)
      return index + 1
    else
      let value ← take index
      match ← depthAt index with
      | none => failShape index .unreachableSwitch
      | some depth => switchBody run index value [] address depth

def runInstruction (run : SubRange) (stop stmtStart index : Nat) (ins : Instruction) :
    RangeM Nat := do
  match ins.opcode with
  | .convert =>
    convert index ins
    return index + 1
  | .neg | .not =>
    unary index ins
    return index + 1
  | .mul | .div | .rem | .mod | .add | .sub | .and | .or | .xor | .shl | .shr | .compare =>
    binary index ins
    return index + 1
  | .duplicate => duplication run index ins
  | .push | .pushLocal | .pushGlobal | .pushBuiltin | .pushImmediate =>
    pushValue index ins
    return index + 1
  | .pop =>
    popValue index ins
    return index + 1
  | .discard =>
    discardValue
    return index + 1
  | .call => call run index ins
  | .callValue =>
    callValue index ins
    return index + 1
  | .ret =>
    let value ← take index
    addStatement (.returnValue value.id)
    return index + 1
  | .exit =>
    addStatement .exit
    return index + 1
  | .branch => branch run index
  | .branchFalse => branchFalse run stop stmtStart index
  | .branchTrue => branchTrue run index
  | .enterWith => withLoop run index
  | .leaveWith =>
    if ins.leavesForGood then return index + 1 else failShape index .strayLeaveWith
  | .extended => extended run index ins

/-- Runs what starts at an index; returns the next index and the index at which
the current statement started. -/
def runStep (run : SubRange) (stop stmtStart index : Nat) : RangeM (Nat × Nat) := do
  let startsStatement := (← get).stack.isEmpty
  let stmtStart := if startsStatement then index else stmtStart
  let loop ← if startsStatement then doUntil run index stop else pure none
  match loop with
  | some next => return (next, stmtStart)
  | none =>
    match ← instruction? index with
    | none => return (stop, stmtStart)
    | some ins => return (← runInstruction run stop stmtStart index ins, stmtStart)

/-- Recovers the range from `index` to `stop`.  Every step, and every range
inside another one, takes one unit of `fuel`. -/
def recoverRange : Nat → Nat → Nat → Nat → Range → RecoverM Range
  | 0, _, _, _, _ => fail .endless
  | fuel + 1, stop, stmtStart, index, range =>
    if index < stop then do
      let run : SubRange := fun start stop stack =>
        recoverRange fuel stop start start { stack }
      let ((next, stmtStart), range) ← (runStep run stop stmtStart index).run range
      recoverRange fuel stop stmtStart next range
    else return range

/-- More steps than code without a way back to itself can take. -/
def stepBound (entry : CodeEntry) : Nat :=
  4 * ((entry.instructions.size + 2) * (entry.instructions.size + 2))

def recoverWithin (fuel : Nat) (entry : CodeEntry) (tables : NameTables) :
    Except RecoveryError Outline :=
  let run : SubRange := fun start stop stack =>
    recoverRange fuel stop start start { stack }
  let work : RecoverM NodeId := blockNode run 0 entry.instructions.size
  match (work.run ⟨entry, tables, entry.depths tables⟩).run {} with
  | (.ok root, state) => .ok { nodes := state.nodes, root, functions := state.functions }
  | (.error fault, _) => .error fault.settle

def recover (entry : CodeEntry) (tables : NameTables) : Except RecoveryError Outline :=
  recoverWithin (stepBound entry) entry tables

end GameScript.Outline
