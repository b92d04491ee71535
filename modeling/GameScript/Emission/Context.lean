import GameScript.Bytecode.Entry
import GameScript.Bytecode.Patch
import GameScript.Names
import GameScript.Syntax.Display

/-! State of the emission of one code entry.

Names stay symbolic while code is emitted.  A stack of types follows the stack
of values, a stack of scopes the functions being emitted, and a stack of loops
the statements that `break` and `continue` can leave; each stack has its top at
the head of the list. -/

namespace GameScript.Emission

open Builtin Bytecode Number Syntax

/-- Constructs that have a syntax but no code. -/
inductive Feature where
  | coalescing | coalescingAssignment | manyDimensions | compoundOnNested
  | oldMethodCall | oldNew
  | memberStep | elementStep | oldFunction | inheritance | defaultParameter | oldStruct
  | misplacedStatic | oldTry | delete
deriving DecidableEq, Repr

namespace Feature

def name : Feature → String
  | .coalescing => "null coalescing"
  | .coalescingAssignment => "null coalescing assignment"
  | .manyDimensions => "arrays with more than two dimensions"
  | .compoundOnNested => "compound assignment on multi-dimensional arrays"
  | .oldMethodCall => "method calls before GMS2.3"
  | .oldNew => "new before GMS2.3"
  | .memberStep => "increment of a member in an expression"
  | .elementStep => "increment of an array element in an expression"
  | .oldFunction => "functions before GMS2.3"
  | .inheritance => "constructor inheritance"
  | .defaultParameter => "default parameter values"
  | .oldStruct => "struct literals before GMS2.3"
  | .misplacedStatic => "static outside of a function"
  | .oldTry => "try before GMS2.3"
  | .delete => "delete"

end Feature

inductive OperandFault where
  | emptyIndex
  | emptyChain
  | assignToCall
  /-- Neither a variable nor a member, with the tree as messages show it. -/
  | notAssignable (target : String)
  | stringOperand (op : UnaryOp)
  | tooManyArguments (count : Nat) (name : String)
  | tooManyMethodArguments (count : Nat)
deriving DecidableEq, Repr

namespace OperandFault

def message : OperandFault → String
  | .emptyIndex => "empty index list"
  | .emptyChain => "empty operator chain"
  | .assignToCall => "cannot assign to a call"
  | .notAssignable target => "cannot assign to " ++ target
  | .stringOperand op => s!"string operand for unary {op.name}"
  | .tooManyArguments count name => s!"{count} arguments passed to {name}"
  | .tooManyMethodArguments count => s!"{count} arguments passed to a method"

end OperandFault

inductive EmitFault where
  | unsupported (feature : Feature)
  | arityMismatch (name : String) (expected supplied : Nat)
  | invalidOperand (fault : OperandFault)
  | unresolvedName (name : String)
  | breakOutsideLoop
  | continueOutsideLoop
  | typeUnderflow
  | typeImbalance (count : Nat)
deriving DecidableEq, Repr

namespace EmitFault

def message : EmitFault → String
  | .unsupported feature => feature.name ++ " is not supported"
  | .arityMismatch name expected supplied =>
    s!"Built-in function \"{name}\" expects {expected} arguments; {supplied} supplied"
  | .invalidOperand fault => "invalid operand: " ++ fault.message
  | .unresolvedName name => s!"unresolved name \"{name}\""
  | .breakOutsideLoop => "break used outside of a loop or switch"
  | .continueOutsideLoop => "continue used outside of a loop"
  | .typeUnderflow => "type stack underflow"
  | .typeImbalance count => s!"type stack holds {count} entries at the end of the entry"

end EmitFault

structure EmitError where
  pos : Position
  fault : EmitFault
deriving DecidableEq, Repr

namespace EmitError

def message (error : EmitError) : String :=
  s!"{error.fault.message} at offset {error.pos}"

end EmitError

/-- What all entries of a session share. -/
structure Environment where
  target : Target
  registry : Registry
  /-- User functions that any entry may call. -/
  functions : Roster String
  name : String

inductive Symbol where
  | string (text : String)
  | var (name : String) (scope : Instance) (access : Access)
  | function (name : String)
deriving DecidableEq, Repr

/-- What `break`, `continue` and `return` have to undo. -/
inductive LoopKind where
  | plain
  | withLoop
  | switch (type : DataType)
  | repeatLoop
deriving DecidableEq, Repr

structure LoopContext where
  kind : LoopKind
  breaks : ForwardPatch := {}
  continues : ForwardPatch := {}
  /-- Address that `continue` leads to, when it is known beforehand. -/
  continueTarget : Option Nat := none
  breakUsed : Bool := false
deriving DecidableEq, Repr

structure FunctionScope where
  locals : Roster String := {}
  statics : Roster String := {}
  params : List String := []
  inFunction : Bool := false
deriving DecidableEq, Repr, Inhabited

structure VariableUse where
  name : String
  owner : Instance
  scope : Instance
  access : Access
deriving DecidableEq, Repr

namespace VariableUse

def plain (name : String) (owner : Instance) : VariableUse := ⟨name, owner, owner, .normal⟩

def onStack (name : String) (scope : Instance) (access : Access) : VariableUse :=
  ⟨name, .self, scope, access⟩

def symbol (use : VariableUse) : Symbol := .var use.name use.scope use.access

end VariableUse

structure Emitter where
  code : Code := #[]
  length : Nat := 0
  types : List DataType := []
  /-- Symbols by instruction index, in order of emission. -/
  symbols : Array (Nat × Symbol) := #[]
  scopes : List FunctionScope := [{}]
  globals : Roster String := {}
  loops : List LoopContext := []
  children : Array ChildFunction := #[]
  /-- Functions declared anywhere in the statement lists met so far. -/
  declared : Roster String := {}
  structCount : Nat := 0
  anonymousCount : Nat := 0
  pos : Position := 0

/-- Emitted code whose names are still symbolic. -/
structure PendingEntry where
  name : String
  code : Code
  length : Nat
  symbols : Array (Nat × Symbol)
  locals : List String
  argumentCount : Nat
  children : Array ChildFunction
deriving DecidableEq, Repr

abbrev EmitM := ReaderT Environment (StateT Emitter (Except EmitError))

def fail (fault : EmitFault) : EmitM α := do
  throw ⟨(← get).pos, fault⟩

def unsupported (feature : Feature) : EmitM α := fail (.unsupported feature)

def goTo (pos : Position) : EmitM Unit := modify fun s => { s with pos }

def pushType (type : DataType) : EmitM Unit :=
  modify fun s => { s with types := type :: s.types }

def popType : EmitM DataType := do
  match (← get).types with
  | [] => fail .typeUnderflow
  | type :: types =>
    modify fun s => { s with types }
    return type

def peekType : EmitM DataType := do
  match (← get).types with
  | [] => fail .typeUnderflow
  | type :: _ => return type

def emit (ins : Instruction) : EmitM Nat := do
  let s ← get
  set { s with
    code := s.code.push { ins with address := s.length }
    length := s.length + ins.length }
  return s.code.size

def emitSymbol (ins : Instruction) (symbol : Symbol) : EmitM Nat := do
  let index ← emit ins
  modify fun s => { s with symbols := s.symbols.push (index, symbol) }
  return index

def emitOp (opcode : Opcode) (type1 type2 : DataType) : EmitM Unit := do
  discard <| emit { opcode, type1, type2 }

def emitSingle (opcode : Opcode) (type : DataType) : EmitM Unit := do
  discard <| emit { opcode, type1 := type }

def emitCompare (kind : Comparison) (type1 type2 : DataType) : EmitM Unit := do
  discard <| emit { opcode := .compare, type1, type2, comparison := some kind }

def emitDuplicate (type : DataType) (extra : UInt8) : EmitM Unit := do
  discard <| emit { opcode := .duplicate, type1 := type, extra }

def emitBranch (opcode : Opcode) : EmitM Nat := emit { opcode }

def emitBranchTo (opcode : Opcode) (target : Nat) : EmitM Unit := do
  let site ← emitBranch opcode
  modify fun s =>
    { s with code := (BackwardPatch.add { target } site).resolve s.code }

def emitPushImmediate (value : Int16) : EmitM Unit := do
  discard <| emit
    { opcode := .pushImmediate, type1 := .int16, immediate := some (.int16 value) }

/-- `push.e`, which marks steps and the results of lazy operators. -/
def emitPushShort (value : Int16) : EmitM Unit := do
  discard <| emit { opcode := .push, type1 := .int16, immediate := some (.int16 value) }

def emitPushInt32 (value : Int32) : EmitM Nat :=
  emit { opcode := .push, type1 := .int32, immediate := some (.int32 value) }

def emitPushInt64 (value : Int64) : EmitM Unit := do
  discard <| emit { opcode := .push, type1 := .int64, immediate := some (.int64 value) }

def emitPushDouble (value : Double) : EmitM Unit := do
  discard <| emit { opcode := .push, type1 := .double, immediate := some (.double value) }

def emitPushString (text : String) : EmitM Unit := do
  discard <| emitSymbol { opcode := .push, type1 := .string } (.string text)

def emitPushFunction (name : String) : EmitM Unit := do
  discard <| emitSymbol
    { opcode := .push, type1 := .int32, immediate := some (.int32 0) } (.function name)

def emitCall (name : String) (count : Nat) : EmitM Unit := do
  if count < wordCount 15 then
    discard <| emitSymbol
      { opcode := .call, type1 := .int32, immediate := some (.int16 (Int16.ofInt count)) }
      (.function name)
  else fail (.invalidOperand (.tooManyArguments count name))

def emitCallDiscard (name : String) (count : Nat) : EmitM Unit := do
  emitCall name count
  emitSingle .discard .variant

def emitCallValue (count : Nat) : EmitM Unit := do
  if count < wordCount 8 then
    discard <| emit { opcode := .callValue, type1 := .variant, extra := UInt8.ofNat count }
  else fail (.invalidOperand (.tooManyMethodArguments count))

def emitExtension (extension : Extension) : EmitM Unit := do
  discard <| emit
    { opcode := .extended, type1 := .int16, immediate := some (.int16 extension.code) }

def emitPushVariable (opcode : Opcode) (use : VariableUse) : EmitM Unit := do
  discard <| emitSymbol { opcode, type1 := .variant, owner := use.owner } use.symbol

def emitPopVariable (type1 type2 : DataType) (use : VariableUse) : EmitM Unit := do
  discard <| emitSymbol { opcode := .pop, type1, type2, owner := use.owner } use.symbol

def emitLeaveForGood : EmitM Unit := do
  discard <| emit { opcode := .leaveWith, leavesForGood := true }

def land (patch : ForwardPatch) : EmitM Unit :=
  modify fun s => { s with code := patch.resolve s.code s.length }

def landAddress (patch : AddressPatch) : EmitM Unit :=
  modify fun s => { s with code := patch.resolve s.code s.length }

/-- Takes the top type off and converts the value to `wanted` if it differs;
tells whether it did. -/
def convertTo (wanted : DataType) : EmitM Bool := do
  let type ← popType
  if type = wanted then return false
  emitOp .convert type wanted
  return true

def convertToInstance : EmitM Unit := do
  if (← read).target.hasFunctions && (← peekType) == .variant then
    discard popType
    emitPushImmediate Instance.stackTop.code
  else discard <| convertTo .int32

def emitDiscard : EmitM Unit := do
  emitSingle .discard (← popType)

def currentScope : EmitM FunctionScope := do
  return (← get).scopes.headD {}

def modifyScope (change : FunctionScope → FunctionScope) : EmitM Unit :=
  modify fun s =>
    match s.scopes with
    | [] => s
    | scope :: outer => { s with scopes := change scope :: outer }

def declareLocal (name : String) : EmitM Unit :=
  modifyScope fun scope => { scope with locals := scope.locals.insert name }

def declareStatic (name : String) : EmitM Unit :=
  modifyScope fun scope => { scope with statics := scope.statics.insert name }

namespace FunctionScope

def owns (scope : FunctionScope) (name : String) : Bool :=
  scope.locals.contains name || scope.statics.contains name || scope.params.contains name

end FunctionScope

def Emitter.knowsFunction (s : Emitter) (env : Environment) (name : String) : Bool :=
  (env.registry.function? name).isSome || env.functions.contains name ||
    s.declared.contains name || s.children.any (·.name == name) || name == Internal.method

def Emitter.resolve (s : Emitter) (env : Environment) (v : Variable) : String × Instance :=
  let scope := s.scopes.headD {}
  match v.owner with
  | some owner => (v.name, owner)
  | none =>
    if scope.locals.contains v.name then (v.name, .locals)
    else if s.globals.contains v.name then (v.name, .global)
    else if !env.target.hasFunctions then (v.name, .self)
    else if scope.statics.contains v.name then (v.name, .static)
    else if isArgument v.name then (v.name, .argument)
    else
      match scope.params.idxOf? v.name with
      | some index => (s!"argument{index}", .argument)
      | none =>
        match v.builtin with
        | some builtin => (v.name, if builtin.isGlobal then .builtin else .self)
        | none => (v.name, .self)

def knowsFunction (name : String) : EmitM Bool := do
  return (← get).knowsFunction (← read) name

def ownsName (name : String) : EmitM Bool := do
  return (← currentScope).owns name

def resolveVariable (v : Variable) : EmitM (String × Instance) := do
  return (← get).resolve (← read) v

/-- Operation that reads an unindexed variable. -/
def pushOpcode (v : Variable) (owner : Instance) : Opcode :=
  if owner = .global then .pushGlobal
  else if owner = .builtin then .pushBuiltin
  else if owner = .locals then .pushLocal
  else if v.builtin.any (·.isGlobal) then .pushBuiltin
  else .push

def nextAnonymousName : EmitM String := do
  let count := (← get).anonymousCount
  let entry := (← read).name
  modify fun s => { s with anonymousCount := count + 1 }
  return s!"anon_{count}_{entry}"

def nextStructName : EmitM String := do
  let count := (← get).structCount
  let entry := (← read).name
  modify fun s => { s with structCount := count + 1 }
  return s!"___struct___{count}_{entry}"

/-- Counts of arguments and locals are kept in 16 bits. -/
def capped (count : Nat) : Nat := min count 65535

def addChild (child : ChildFunction) : EmitM Unit :=
  modify fun s => { s with children := s.children.push child }

def pushLoop (context : LoopContext) : EmitM Unit :=
  modify fun s => { s with loops := context :: s.loops }

def popLoop : EmitM LoopContext := do
  match (← get).loops with
  | [] => fail .breakOutsideLoop
  | context :: loops =>
    modify fun s => { s with loops }
    return context

end GameScript.Emission
