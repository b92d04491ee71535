import GameScript.Emission.Context

/-! Code of expressions and statements.

The code of an expression leaves one more value, and its type, on the stacks;
the code of a statement leaves them as they were. -/

namespace GameScript.Emission

open Builtin Bytecode Number Syntax

/-- Operation of an operator that compares nothing.  Exclusive disjunction has
the operation of disjunction. -/
def arithmeticOpcode : BinaryOp → Opcode
  | .add => .add
  | .sub => .sub
  | .mul => .mul
  | .div => .div
  | .intDiv => .rem
  | .mod => .mod
  | .shl => .shl
  | .shr => .shr
  | .and | .bitAnd => .and
  | .or | .bitOr | .xor | .bitXor => .or
  | .eq | .neq | .lt | .lte | .gt | .gte => .compare

/-- Type of a result: the stronger operand's, or the lower code of two equally
strong ones. -/
def resultType (top second : DataType) : DataType :=
  if top.bias = second.bias then (if top.code ≤ second.code then top else second)
  else if second.bias < top.bias then top
  else second

def operandType (op : BinaryOp) (type : DataType) : DataType :=
  match op with
  | .div => if type = .double || type = .variant then type else .double
  | .add | .sub | .mul | .intDiv | .mod => if type = .boolean then .int32 else type
  | .bitAnd | .bitOr | .bitXor =>
    match type with
    | .variant | .double | .int64 => .int64
    | _ => .int32
  | .shl | .shr => .int64
  | .and | .or | .xor => .boolean
  | .eq | .neq | .lt | .lte | .gt | .gte => type

def unaryOperandType (op : UnaryOp) (type : DataType) : DataType :=
  match op with
  | .not => .boolean
  | .neg => if type = .boolean then .int32 else type
  | .bitNot =>
    match type with
    | .double | .float | .variant => .int32
    | _ => type

def coerceTop (wanted : DataType) : EmitM Unit := do
  if (← peekType) ≠ wanted then
    discard <| convertTo wanted
    pushType wanted

def convertOperand (op : BinaryOp) : EmitM Unit := do
  coerceTop (operandType op (← peekType))

def applyBinary (op : BinaryOp) : EmitM Unit := do
  let top ← popType
  let second ← popType
  match op.comparison? with
  | some kind =>
    emitCompare kind top second
    pushType .boolean
  | none =>
    emitOp (arithmeticOpcode op) top second
    pushType (resultType top second)

def stepOp (increment : Bool) : BinaryOp := if increment then .add else .sub

def emitInteger (value : Int) : EmitM Unit := do
  if isSignedWord 16 value then
    emitPushImmediate (Int16.ofInt value)
    pushType .int32
  else if isSignedWord 32 value then
    discard <| emitPushInt32 (Int32.ofInt value)
    pushType .int32
  else
    emitPushInt64 (Int64.ofInt value)
    pushType .int64

/-- The integer of 64 bits that a number is, if it is one. -/
def integerOf? (value : Double) : Option Int :=
  value.toInt?.filter (isSignedWord 64)

def emitLiteral : Literal → EmitM Unit
  | .boolean value => do
    emitPushImmediate (if value then 1 else 0)
    pushType .boolean
  | .number value =>
    match integerOf? value with
    | some n => emitInteger n
    | none => do
      emitPushDouble value
      pushType .double
  | .int64 value => do
    emitPushInt64 value
    pushType .int64
  | .string text => do
    emitPushString text
    pushType .string

def emitRead (v : Variable) : EmitM Unit := do
  let (name, owner) ← resolveVariable v
  emitPushVariable (pushOpcode v owner) (.plain name owner)

def emitStore (v : Variable) : EmitM Unit := do
  let type ← popType
  let (name, owner) ← resolveVariable v
  emitPopVariable .variant type (.plain name owner)

def emitStep (v : Variable) (increment : Bool) : EmitM Unit := do
  emitRead v
  pushType .variant
  emitPushShort 1
  pushType .int32
  applyBinary (stepOp increment)
  emitStore v

/-- Further indices follow the first one. -/
def Environment.isNested (env : Environment) (indices : List Expr) : Bool :=
  env.target.hasFunctions && 1 < indices.length

/-- Reads an array element, its instance being on the stack; `first` and `others`
put its indices there. -/
def emitElementRead (name : String) (scope : Instance) (isNested : Bool)
    (first others : EmitM Unit) : EmitM Unit := do
  first
  if isNested then
    emitPushVariable .push (.onStack name scope .nested)
    others
  else emitPushVariable .push (.onStack name scope .array)
  pushType .variant

/-- Stores in an array element, its value and instance being on the stack. -/
def emitElementStore (name : String) (scope : Instance) (isNested : Bool)
    (first others : EmitM Unit) : EmitM Unit := do
  first
  if isNested then
    emitPushVariable .push (.onStack name scope .nestedStore)
    others
  else emitPopVariable .variant .variant (.onStack name scope .array)

/-- The name stands for a function and not for a variable. -/
def namesFunction (v : Variable) : EmitM Bool := do
  if v.owner.isSome || v.builtin.isSome then return false
  else return !(← ownsName v.name) && (← knowsFunction v.name)

def emitName (v : Variable) : EmitM Unit := do
  goTo v.pos
  if ← namesFunction v then
    emitPushFunction v.name
    pushType .int32
  else
    emitRead v
    pushType .variant

def emitStepValue (v : Variable) (before increment : Bool) : EmitM Unit := do
  let (name, owner) ← resolveVariable v
  let use := VariableUse.plain name owner
  let opcode := arithmeticOpcode (stepOp increment)
  emitPushVariable (pushOpcode v owner) use
  if before then
    emitPushShort 1
    emitOp opcode .int32 .variant
    emitDuplicate .variant 0
  else
    emitDuplicate .variant 0
    emitPushShort 1
    emitOp opcode .int32 .variant
  emitPopVariable .variant .variant use
  pushType .variant

def checkArity (callee : Callee) (supplied : Nat) : EmitM Unit := do
  match callee.builtin with
  | some ⟨name, some expected, _⟩ =>
    if expected ≠ supplied then fail (.arityMismatch name expected supplied)
  | _ => pure ()

def emitCallee (callee : Callee) (count : Nat) : EmitM Unit := do
  let isKnown ← knowsFunction callee.name
  let isOwned ← ownsName callee.name
  if callee.builtin.isSome then emitCall callee.name count
  else if (← read).target.hasFunctions && (isOwned || !isKnown) then
    let v : Variable := { pos := callee.pos, name := callee.name }
    emitCall Internal.this 0
    emitRead v
    emitCallValue count
  else if isKnown then emitCall callee.name count
  else fail (.unresolvedName callee.name)

def emitBind (function : String) (owner : Instance) : EmitM Unit := do
  emitPushFunction function
  emitOp .convert .int32 .variant
  emitPushImmediate owner.code
  emitOp .convert .int32 .variant
  emitCall Internal.method 2

/-- Constructor of a struct: each argument goes to its field. -/
def emitFieldStores : Nat → List String → EmitM Unit
  | _, [] => pure ()
  | index, field :: rest => do
    emitPushVariable .push (.plain s!"argument{index}" .argument)
    emitPopVariable .variant .variant (.plain field .self)
    emitFieldStores (index + 1) rest

def emitStructBody (fields : List String) : EmitM String := do
  let name ← nextStructName
  let skip ← emitBranch .branch
  let offset := (← get).length
  emitFieldStores 0 fields
  emitSingle .exit .int32
  addChild ⟨name, offset, capped fields.length, 0, true⟩
  land (.ofSite skip)
  return name

def emitBreak : EmitM Unit := do
  match (← get).loops with
  | [] => fail .breakOutsideLoop
  | _ =>
    let site ← emitBranch .branch
    modify fun s =>
      match s.loops with
      | [] => s
      | context :: outer =>
        let context :=
          { context with breaks := context.breaks.add site, breakUsed := true }
        { s with loops := context :: outer }

/-- The loops up to the innermost one that `continue` can refer to: the types
of the `switch` values inside it, and itself. -/
def continueLoop? : List LoopContext → Option (List DataType × LoopContext)
  | [] => none
  | context :: outer =>
    match context.kind with
    | .switch type =>
      (continueLoop? outer).map fun (types, found) => (type :: types, found)
    | _ => some ([], context)

/-- Adds a waiting `continue` to the innermost loop that is no `switch`. -/
def addContinue (site : Nat) : List LoopContext → List LoopContext
  | [] => []
  | context :: outer =>
    match context.kind with
    | .switch _ => context :: addContinue site outer
    | _ => { context with continues := context.continues.add site } :: outer

def emitDiscards : List DataType → EmitM Unit
  | [] => pure ()
  | type :: rest => do
    emitSingle .discard type
    emitDiscards rest

def emitContinue : EmitM Unit := do
  match continueLoop? (← get).loops with
  | none => fail .continueOutsideLoop
  | some (types, context) =>
    emitDiscards types
    match context.continueTarget with
    | some target => emitBranchTo .branch target
    | none =>
      let site ← emitBranch .branch
      modify fun s => { s with loops := addContinue site s.loops }

def emitUnwinding : List LoopContext → EmitM Unit
  | [] => pure ()
  | context :: outer => do
    match context.kind with
    | .withLoop => emitLeaveForGood
    | .switch type => emitSingle .discard type
    | .repeatLoop => emitSingle .discard .int32
    | .plain => pure ()
    emitUnwinding outer

def emitExit : EmitM Unit := do
  emitUnwinding (← get).loops
  emitSingle .exit .int32

def emitReturn : EmitM Unit := do
  let loops := (← get).loops
  if loops.any (·.kind != .plain) then
    let temp := VariableUse.plain Internal.returnTemp .locals
    emitPopVariable .variant .variant temp
    emitUnwinding loops
    emitPushVariable .pushLocal temp
  emitSingle .ret .variant

mutual

def declaredBy : Stmt → List String
  | .function decl => decl.name.toList
  | .block body => declaredByAll body.stmts
  | _ => []

def declaredByAll : List Stmt → List String
  | [] => []
  | stmt :: rest => declaredBy stmt ++ declaredByAll rest

end

/-- Functions may be called before their declaration. -/
def predeclare (stmts : List Stmt) : EmitM Unit :=
  modify fun s => { s with declared := s.declared.insertAll (declaredByAll stmts) }

/-! Constructs around code of their parts.

Each action below takes the actions that emit the parts of its construct. -/

def emitElement (v : Variable) (indices : List Expr) (first others : EmitM Unit) :
    EmitM Unit := do
  goTo v.pos
  let (name, owner) ← resolveVariable v
  emitPushImmediate owner.code
  emitElementRead name owner ((← read).isNested indices) first others

def emitMember (pos : Position) (field : Variable) (indices : List Expr)
    (object first others : EmitM Unit) : EmitM Unit := do
  goTo pos
  object
  convertToInstance
  goTo field.pos
  if indices.isEmpty then
    emitPushVariable .push (.onStack field.name .self .stackTop)
    pushType .variant
  else emitElementRead field.name .self ((← read).isNested indices) first others

def emitFunctionCall (callee : Callee) (count : Nat) (args : EmitM Unit) : EmitM Unit := do
  goTo callee.pos
  checkArity callee count
  args
  goTo callee.pos
  emitCallee callee count
  pushType .variant

def emitMethodCall (pos : Position) (callee : Callee) (count : Nat)
    (args object : EmitM Unit) : EmitM Unit := do
  goTo pos
  if !(← read).target.hasFunctions then unsupported .oldMethodCall
  args
  object
  if ← convertTo .variant then emitCall Internal.getInstance 1
  goTo callee.pos
  emitDuplicate .variant 0
  emitPushImmediate Instance.stackTop.code
  emitPushVariable .push (.onStack callee.name .self .stackTop)
  emitCallValue count
  pushType .variant

def emitConstruct (callee : Callee) (count : Nat) (args : EmitM Unit) : EmitM Unit := do
  goTo callee.pos
  if !(← read).target.hasFunctions then unsupported .oldNew
  if !(← knowsFunction callee.name) then fail (.unresolvedName callee.name)
  args
  emitPushFunction callee.name
  emitOp .convert .int32 .variant
  emitCall Internal.newObject (count + 1)
  pushType .variant

def BinaryOp.isLazy (target : Target) (op : BinaryOp) : Bool :=
  (op == .and || op == .or) && target.lazyLogic

def skipOpcode (op : BinaryOp) : Opcode := if op == .and then .branchFalse else .branchTrue

/-- A chain of one operator; `skipping` emits the operands after the first one with
branches that skip them, `others` without. -/
def emitChain (op : BinaryOp) (first : EmitM Unit) (skipping : EmitM (List Nat))
    (others : EmitM Unit) : EmitM Unit := do
  first
  if BinaryOp.isLazy (← read).target op then
    let skip ← skipping
    discard <| convertTo .boolean
    let finish ← emitBranch .branch
    land ⟨skip⟩
    emitPushShort (if op == .or then 1 else 0)
    pushType .boolean
    land (.ofSite finish)
  else
    convertOperand op
    others

def emitUnary (op : UnaryOp) (operand : EmitM Unit) : EmitM Unit := do
  operand
  if (← peekType) == .string then fail (.invalidOperand (.stringOperand op))
  coerceTop (unaryOperandType op (← peekType))
  emitSingle (if op == .neg then .neg else .not) (← peekType)

def emitConditional (condition yes no : EmitM Unit) : EmitM Unit := do
  condition
  discard <| convertTo .boolean
  let toElse ← emitBranch .branchFalse
  yes
  discard <| convertTo .variant
  let finish ← emitBranch .branch
  land (.ofSite toElse)
  no
  discard <| convertTo .variant
  pushType .variant
  land (.ofSite finish)

def emitArray (count : Nat) (elements : EmitM Unit) : EmitM Unit := do
  elements
  emitCall Internal.newArray count
  pushType .variant

def emitStruct (fields : List String) (values : EmitM Unit) : EmitM Unit := do
  if !(← read).target.hasFunctions then unsupported .oldStruct
  let name ← emitStructBody fields
  values
  emitBind name .static
  emitCall Internal.newObject (fields.length + 1)
  pushType .variant

def functionName : Option String → EmitM String
  | some name => pure name
  | none => nextAnonymousName

/-- Body of a function, which the code around it jumps over; returns its name. -/
def emitFunctionBody (name : Option String) (params : List String) (isConstructor : Bool)
    (declared : List String) (body : EmitM Unit) : EmitM String := do
  let name ← functionName name
  let skip ← emitBranch .branch
  let offset := (← get).length
  let loops := (← get).loops
  let scope : FunctionScope := { params, inFunction := true }
  modify fun s => { s with scopes := scope :: s.scopes, loops := [] }
  modify fun s => { s with declared := s.declared.insertAll declared }
  body
  let scope ← currentScope
  modify fun s => { s with scopes := s.scopes.tail, loops }
  emitSingle .exit .int32
  addChild
    ⟨name, offset, capped params.length, capped scope.locals.items.length, isConstructor⟩
  land (.ofSite skip)
  return name

/-- The first of two indices.  Before functions exist two indices are one number. -/
def emitPairIndex (first second : EmitM Unit) : EmitM Unit := do
  first
  discard <| convertTo .int32
  if !(← read).target.hasFunctions then
    discard <| emitPushInt32 32000
    emitOp .mul .int32 .int32
    second
    discard <| convertTo .int32
    emitOp .add .int32 .int32

def emitManyIndex (first : EmitM Unit) : EmitM Unit := do
  if !(← read).target.hasFunctions then unsupported .manyDimensions
  first
  discard <| convertTo .int32

/-- Puts the instance and the index of an element on the stack and duplicates them. -/
def emitElementPlace (v : Variable) (indices : List Expr) (first : EmitM Unit) :
    EmitM VariableUse := do
  let (name, owner) ← resolveVariable v
  if (← read).isNested indices then unsupported .compoundOnNested
  emitPushImmediate owner.code
  first
  emitDuplicate .int32 1
  return .onStack name owner .array

/-- Puts the object of a member, and its index, on the stack and duplicates them. -/
def emitMemberPlace (field : Variable) (indices : List Expr) (object first : EmitM Unit) :
    EmitM VariableUse := do
  object
  discard <| convertTo .int32
  if indices.isEmpty then
    emitDuplicate .int32 0
    return .onStack field.name .self .stackTop
  else
    if (← read).isNested indices then unsupported .compoundOnNested
    first
    emitDuplicate .int32 1
    return .onStack field.name .self .array

def emitElementPlaceStore (v : Variable) (indices : List Expr)
    (first others : EmitM Unit) : EmitM Unit := do
  let (name, owner) ← resolveVariable v
  emitPushImmediate owner.code
  emitElementStore name owner ((← read).isNested indices) first others

def emitMemberStore (field : Variable) (indices : List Expr)
    (object first others : EmitM Unit) : EmitM Unit := do
  object
  convertToInstance
  if indices.isEmpty then
    emitPopVariable .variant .variant (.onStack field.name .self .stackTop)
  else emitElementStore field.name .self ((← read).isNested indices) first others

/-- Reads a variable, applies an operator to it and `value`, and stores the result. -/
def emitUpdate (v : Variable) (op : BinaryOp) (value : EmitM Unit) : EmitM Unit := do
  emitName v
  convertOperand op
  value
  convertOperand op
  applyBinary op
  emitStore v

/-- Reads a place, applies an operator to it and `value`, and stores the result. -/
def emitPlaceUpdate (op : BinaryOp) (place : EmitM VariableUse) (value : EmitM Unit) :
    EmitM Unit := do
  let use ← place
  emitPushVariable .push use
  pushType .variant
  convertOperand op
  value
  applyBinary op
  emitPopVariable .int32 (← popType) use

def emitStepOne : EmitM Unit := do
  emitPushShort 1
  pushType .int32

def emitStaticBlock (bindings : EmitM Unit) : EmitM Unit := do
  if !(← read).target.hasFunctions || !(← currentScope).inFunction then
    unsupported .misplacedStatic
  emitExtension .staticsReady
  let skip ← emitBranch .branchTrue
  bindings
  emitExtension .markStatics
  land (.ofSite skip)

def emitIf (condition yes : EmitM Unit) : EmitM Unit := do
  condition
  discard <| convertTo .boolean
  let toElse ← emitBranch .branchFalse
  yes
  land (.ofSite toElse)

def emitIfElse (condition yes no : EmitM Unit) : EmitM Unit := do
  condition
  discard <| convertTo .boolean
  let toElse ← emitBranch .branchFalse
  yes
  let finish ← emitBranch .branch
  land (.ofSite toElse)
  no
  land (.ofSite finish)

def emitWhile (condition body : EmitM Unit) : EmitM Unit := do
  let head := (← get).length
  condition
  discard <| convertTo .boolean
  let finish ← emitBranch .branchFalse
  pushLoop { kind := .plain, continueTarget := some head }
  body
  let context ← popLoop
  emitBranchTo .branch head
  land (.ofSite finish)
  land context.breaks

/-- The condition of a `for` as a boolean; a missing one is true. -/
def emitForCondition : Option (EmitM Unit) → EmitM Unit
  | none => emitPushImmediate 1
  | some condition => do
    condition
    discard <| convertTo .boolean

/-- A `for` without its start; `condition` leaves a boolean and no type. -/
def emitFor (condition step body : EmitM Unit) : EmitM Unit := do
  let head := (← get).length
  condition
  let finish ← emitBranch .branchFalse
  pushLoop { kind := .plain }
  body
  let context ← popLoop
  land context.continues
  step
  emitBranchTo .branch head
  land (.ofSite finish)
  land context.breaks

def emitDoUntil (body condition : EmitM Unit) : EmitM Unit := do
  let head := (← get).length
  pushLoop { kind := .plain }
  body
  let context ← popLoop
  land context.continues
  condition
  discard <| convertTo .boolean
  emitBranchTo .branchFalse head
  land context.breaks

def emitRepeat (count body : EmitM Unit) : EmitM Unit := do
  count
  discard <| convertTo .int32
  emitDuplicate .int32 0
  emitPushImmediate 0
  emitCompare .lessEqual .int32 .int32
  let finish ← emitBranch .branchTrue
  let head := (← get).length
  pushLoop { kind := .repeatLoop }
  body
  let context ← popLoop
  land context.continues
  discard <| emitPushInt32 1
  emitOp .sub .int32 .int32
  emitDuplicate .int32 0
  emitOp .convert .int32 .boolean
  emitBranchTo .branchTrue head
  land (.ofSite finish)
  land context.breaks
  emitSingle .discard .int32

def emitWith (target body : EmitM Unit) : EmitM Unit := do
  target
  convertToInstance
  let toLeave ← emitBranch .enterWith
  let head := (← get).length
  pushLoop { kind := .withLoop }
  body
  let context ← popLoop
  land (.ofSite toLeave)
  land context.continues
  emitBranchTo .leaveWith head
  if context.breakUsed then
    let finish ← emitBranch .branch
    land context.breaks
    emitLeaveForGood
    land (.ofSite finish)

/-- A `switch` whose `tests` return the branches to the arms and whose `arms`
return the branch that no `default` received. -/
def emitSwitch (value : EmitM Unit) (tests : DataType → EmitM (List ForwardPatch))
    (arms : List ForwardPatch → ForwardPatch → EmitM ForwardPatch) : EmitM Unit := do
  value
  let type ← popType
  let jumps ← tests type
  let fallback ← emitBranch .branch
  pushLoop { kind := .switch type }
  let unused ← arms jumps (.ofSite fallback)
  let context ← popLoop
  land unused
  land context.breaks
  emitSingle .discard type

def emitTest (type : DataType) (label : EmitM Unit) : EmitM ForwardPatch := do
  emitDuplicate type 0
  label
  emitCompare .equal (← popType) type
  return .ofSite (← emitBranch .branchTrue)

/-- One arm of a `switch`: the first `default` receives `fallback`; what is left of
it is returned. -/
def emitArm (jump fallback : ForwardPatch) (isDefault : Bool) (body : EmitM Unit) :
    EmitM ForwardPatch := do
  land jump
  let unused ← if isDefault then do
      land fallback
      pure ({} : ForwardPatch)
    else pure fallback
  body
  return unused

/-- A `catch` block; `catchSite` waits for its address.  Returns the branch that
skips it. -/
def emitHandler (catchSite : Nat) (name : String) (body : EmitM Unit) :
    EmitM ForwardPatch := do
  let site ← emitBranch .branch
  landAddress ⟨[catchSite]⟩
  declareLocal name
  emitPopVariable .variant .variant (.plain name .locals)
  body
  emitCallDiscard Internal.finishCatch 0
  return .ofSite site

/-- A `try` whose `handler`, given the site that waits for its address, returns the
branches to the `finally` block. -/
def emitTry (hasHandler : Bool) (body : EmitM Unit) (handler : Nat → EmitM ForwardPatch)
    (cleanup : EmitM Unit) : EmitM Unit := do
  if !(← read).target.hasFunctions then unsupported .oldTry
  let finallySite ← emitPushInt32 0
  emitOp .convert .int32 .variant
  let catchSite ← emitPushInt32 (if hasHandler then 0 else -1)
  emitOp .convert .int32 .variant
  emitCallDiscard Internal.tryHook 2
  body
  emitCallDiscard Internal.tryUnhook 0
  let toFinally ← handler catchSite
  landAddress ⟨[finallySite]⟩
  land toFinally
  cleanup
  emitCallDiscard Internal.finishFinally 0

def emitLocalValue (pos : Position) (name : String) (value : EmitM Unit) : EmitM Unit := do
  goTo pos
  value
  emitPopVariable .variant (← popType) (.plain name .locals)

def emitStaticValue (pos : Position) (name : String) (value : EmitM Unit) :
    EmitM Unit := do
  goTo pos
  value
  emitPopVariable .variant (← popType) (.plain name .static)

/-! Expressions and statements. -/

mutual

def emitExpr : Expr → EmitM Unit
  | .literal pos value => do
    goTo pos
    emitLiteral value
  | .var v indices =>
    if indices.isEmpty then emitName v
    else
      emitElement v indices (emitFirstIndex indices) (emitTailIndices .readElement indices)
  | .member pos object field indices =>
    emitMember pos field indices (emitExpr object)
      (emitFirstIndex indices) (emitTailIndices .readElement indices)
  | .call callee args => emitFunctionCall callee args.length (emitArguments args)
  | .methodCall pos object callee args =>
    emitMethodCall pos callee args.length (emitArguments args) (emitExpr object)
  | .construct callee args => emitConstruct callee args.length (emitArguments args)
  | .binary pos op operands => do
    goTo pos
    match operands with
    | [] => fail (.invalidOperand .emptyChain)
    | first :: rest =>
      emitChain op (emitExpr first) (emitLazyOperands (skipOpcode op) rest)
        (emitOperands op rest)
  | .unary pos op operand => do
    goTo pos
    emitUnary op (emitExpr operand)
  | .step pos before increment target => do
    goTo pos
    match target with
    | .var v [] => emitStepValue v before increment
    | .var _ _ => unsupported .elementStep
    | _ => unsupported .memberStep
  | .conditional pos condition yes no => do
    goTo pos
    emitConditional (emitExpr condition) (emitExpr yes) (emitExpr no)
  | .coalesce pos _ _ => do
    goTo pos
    unsupported .coalescing
  | .array pos elements => do
    goTo pos
    emitArray elements.length (emitArguments elements)
  | .struct pos fields => do
    goTo pos
    emitStruct (fields.map (·.1)) (emitFieldValues fields)
  | .function decl => do
    goTo decl.pos
    let name ← emitFunction decl
    emitBind name .self
    pushType .variant

def emitFunction : FunctionDecl → EmitM String
  | .mk pos name params isConstructor parent body => do
    goTo pos
    if !(← read).target.hasFunctions then unsupported .oldFunction
    if parent.isSome then unsupported .inheritance
    if params.any (·.value.isSome) then unsupported .defaultParameter
    emitFunctionBody name (params.map (·.name)) isConstructor (declaredByAll body.stmts)
      (emitStmts body.stmts)

/-- Arguments from the last to the first, each made a variant. -/
def emitArguments : List Expr → EmitM Unit
  | [] => pure ()
  | arg :: rest => do
    emitArguments rest
    emitExpr arg
    discard <| convertTo .variant

/-- Values of the fields from the last to the first, each made a variant. -/
def emitFieldValues : List (String × Expr) → EmitM Unit
  | [] => pure ()
  | (_, value) :: rest => do
    emitFieldValues rest
    emitExpr value
    discard <| convertTo .variant

def emitOperands (op : BinaryOp) : List Expr → EmitM Unit
  | [] => pure ()
  | operand :: rest => do
    emitExpr operand
    convertOperand op
    applyBinary op
    emitOperands op rest

/-- Operands after the first one of a lazy operator; returns the branches that
skip them. -/
def emitLazyOperands (skip : Opcode) : List Expr → EmitM (List Nat)
  | [] => pure []
  | operand :: rest => do
    discard <| convertTo .boolean
    let site ← emitBranch skip
    emitExpr operand
    let sites ← emitLazyOperands skip rest
    return site :: sites

def emitFirstIndex : List Expr → EmitM Unit
  | [] => fail (.invalidOperand .emptyIndex)
  | [only] => do
    emitExpr only
    discard <| convertTo .int32
  | [first, second] => emitPairIndex (emitExpr first) (emitExpr second)
  | first :: _ => emitManyIndex (emitExpr first)

/-- The indices after the first one; `final` ends them. -/
def emitInnerIndices (final : Extension) : List Expr → EmitM Unit
  | [] => pure ()
  | index :: rest => do
    emitExpr index
    discard <| convertTo .int32
    emitExtension (if rest.isEmpty then final else .enterElement)
    emitInnerIndices final rest

def emitTailIndices (final : Extension) : List Expr → EmitM Unit
  | [] => pure ()
  | _ :: rest => emitInnerIndices final rest

/-- Puts the instance and the index of a target on the stack and duplicates
them; returns how the target is then accessed. -/
def emitPlace : Expr → EmitM VariableUse
  | .var v indices => emitElementPlace v indices (emitFirstIndex indices)
  | .member _ object field indices =>
    emitMemberPlace field indices (emitExpr object) (emitFirstIndex indices)
  | .methodCall _ _ _ _ => fail (.invalidOperand .assignToCall)
  | target => fail (.invalidOperand (.notAssignable target.display))

/-- Stores the top value, already a variant, in an element or a member. -/
def emitPlaceStore : Expr → EmitM Unit
  | .var v indices =>
    emitElementPlaceStore v indices (emitFirstIndex indices)
      (emitTailIndices .storeElement indices)
  | .member _ object field indices =>
    emitMemberStore field indices (emitExpr object) (emitFirstIndex indices)
      (emitTailIndices .storeElement indices)
  | .methodCall _ _ _ _ => fail (.invalidOperand .assignToCall)
  | target => fail (.invalidOperand (.notAssignable target.display))

def emitStmt : Stmt → EmitM Unit
  | .expr pos value => do
    goTo pos
    emitExpr value
    emitDiscard
  | .assign pos op target value => do
    goTo pos
    match op.binary? with
    | none =>
      if op == .coalesce then unsupported .coalescingAssignment
      match target with
      | .var v [] =>
        emitExpr value
        emitStore v
      | _ =>
        emitExpr value
        discard <| convertTo .variant
        emitPlaceStore target
    | some binary =>
      match target with
      | .var v [] => emitUpdate v binary (emitExpr value)
      | _ =>
        emitPlaceUpdate binary (emitPlace target) do
          emitExpr value
          convertOperand binary
  | .step pos _ increment target => do
    goTo pos
    match target with
    | .var v [] => emitStep v increment
    | _ => emitPlaceUpdate (stepOp increment) (emitPlace target) emitStepOne
  | .locals pos bindings => do
    goTo pos
    emitLocals bindings
  | .globals pos names => do
    goTo pos
    modify fun s => { s with globals := s.globals.insertAll names }
  | .statics pos bindings => do
    goTo pos
    emitStaticBlock (emitStatics bindings)
  | .block body => do
    goTo body.pos
    emitStmts body.stmts
  | .ifElse pos condition yes no => do
    goTo pos
    match no with
    | none => emitIf (emitExpr condition) (emitStmt yes)
    | some no => emitIfElse (emitExpr condition) (emitStmt yes) (emitStmt no)
  | .whileLoop pos condition body => do
    goTo pos
    emitWhile (emitExpr condition) (emitStmt body)
  | .forLoop pos init condition step body => do
    goTo pos
    match init with
    | none => pure ()
    | some init => emitStmt init
    emitFor
      (match condition with
        | none => emitForCondition none
        | some condition => emitForCondition (some (emitExpr condition)))
      (match step with
        | none => pure ()
        | some step => emitStmt step)
      (emitStmt body)
  | .doUntil pos body condition => do
    goTo pos
    emitDoUntil (emitStmt body) (emitExpr condition)
  | .repeatLoop pos count body => do
    goTo pos
    emitRepeat (emitExpr count) (emitStmt body)
  | .withLoop pos target body => do
    goTo pos
    emitWith (emitExpr target) (emitStmt body)
  | .switch pos value arms => do
    goTo pos
    emitSwitch (emitExpr value) (emitTests · arms) (emitArms · · arms)
  | .breakLoop pos => do
    goTo pos
    emitBreak
  | .continueLoop pos => do
    goTo pos
    emitContinue
  | .exit pos => do
    goTo pos
    emitExit
  | .returnValue pos value => do
    goTo pos
    match value with
    | none => emitExit
    | some value =>
      emitExpr value
      discard <| convertTo .variant
      emitReturn
  | .throw pos value => do
    goTo pos
    emitExpr value
    discard <| convertTo .variant
    emitCallDiscard Internal.throw 1
  | .tryBlock pos body handler cleanup => do
    goTo pos
    emitTry handler.isSome (emitStmts body.stmts)
      (match handler with
        | none => fun _ => pure {}
        | some (name, handlerBody) => (emitHandler · name (emitStmts handlerBody.stmts)))
      (match cleanup with
        | none => pure ()
        | some cleanup => emitStmts cleanup.stmts)
  | .function decl => do
    goTo decl.pos
    let name ← emitFunction decl
    emitBind name .self
    emitPopVariable .variant .variant (.plain name .self)
  | .enumeration pos _ _ => goTo pos
  | .delete pos _ => do
    goTo pos
    unsupported .delete
  | .empty pos => goTo pos

def emitStmts : List Stmt → EmitM Unit
  | [] => pure ()
  | stmt :: rest => do
    emitStmt stmt
    emitStmts rest

def emitLocals : List (Binding Expr) → EmitM Unit
  | [] => pure ()
  | ⟨pos, name, value⟩ :: rest => do
    declareLocal name
    match value with
    | none => pure ()
    | some value => emitLocalValue pos name (emitExpr value)
    emitLocals rest

def emitStatics : List (Binding Expr) → EmitM Unit
  | [] => pure ()
  | ⟨pos, name, value⟩ :: rest => do
    declareStatic name
    match value with
    | none => pure ()
    | some value => emitStaticValue pos name (emitExpr value)
    emitStatics rest

def emitTests (type : DataType) : List SwitchArm → EmitM (List ForwardPatch)
  | [] => pure []
  | .mk _ label _ :: rest => do
    let jump ← match label with
      | none => pure ({} : ForwardPatch)
      | some label => emitTest type (emitExpr label)
    let jumps ← emitTests type rest
    return jump :: jumps

def emitArms (jumps : List ForwardPatch) (fallback : ForwardPatch) :
    List SwitchArm → EmitM ForwardPatch
  | [] => pure fallback
  | .mk _ label body :: rest => do
    let unused ← emitArm (jumps.headD {}) fallback label.isNone (emitStmts body)
    emitArms jumps.tail unused rest

end

def finishEntry : EmitM PendingEntry := do
  let s ← get
  let env ← read
  if s.types.isEmpty then
    return {
      name := env.name, code := s.code, length := s.length, symbols := s.symbols
      locals := (s.scopes.headD {}).locals.items
      argumentCount := 0, children := s.children }
  else fail (.typeImbalance s.types.length)

def emitProgram (env : Environment) (program : Program) : Except EmitError PendingEntry :=
  let run : EmitM PendingEntry := do
    predeclare program
    emitStmts program
    finishEntry
  (run.run env {}).map (·.1)

end GameScript.Emission
