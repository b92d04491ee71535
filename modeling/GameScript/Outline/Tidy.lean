import GameScript.Builtin.Registry
import GameScript.Bytecode.Entry
import GameScript.Outline.Walk

/-! Tidying of recovered outlines.

Calls of the runtime become what they stand for; assignments become compound
assignments and steps; `for`, `continue` and `else if` take the place of the
loops and branches that are equal to them; and every local and static variable
gets its declaration. -/

namespace GameScript.Outline

open Builtin Bytecode

def boundFunction? (arena : Arena) (functions : List (String × NodeId)) (id : NodeId) :
    Option NodeId :=
  match arena.node id with
  | .call name [_, f] =>
    if name = Internal.method then
      match arena.node f with
      | .functionRef name => functions.lookup name
      | _ => none
    else none
  | _ => none

def argumentNumber? (v : VariableNode) : Option Nat :=
  if v.holder = .fixed .argument && v.name.startsWith "argument" then
    let digits := v.name.toList.drop "argument".length
    decimalValue? (if digits.head? = some '+' then digits.drop 1 else digits)
  else none

def structField? (arena : Arena) (values : List NodeId) (item : NodeId) :
    Option (String × NodeId) := do
  let .assign assignment := arena.node item | none
  guard (assignment.kind = .plain)
  let field ← arena.varNode? assignment.target
  let argument ← arena.varNode? assignment.value
  let value ← values[← argumentNumber? argument]?
  return (field.name, value)

/-- A constructor that only gives its arguments to fields is a struct. -/
def structNode? (arena : Arena) (constructor : NodeId) (values : List NodeId) :
    Option Node := do
  let .function f := arena.node constructor | none
  guard f.isConstructor
  let .block items := arena.node f.body | none
  return .struct (← items.mapM (structField? arena values))

def runtimeCall? (arena : Arena) (functions : List (String × NodeId)) (id : NodeId) :
    Option Node :=
  match arena.node id with
  | .call name args =>
    if name = Internal.getInstance then
      match args with
      | [value] => some (arena.node value)
      | _ => none
    else if name = Internal.this && args.isEmpty then some (.owner .self)
    else if name = Internal.other && args.isEmpty then some (.owner .other)
    else if name = Internal.global && args.isEmpty then some (.owner .global)
    else if name = Internal.newArray then some (.array args)
    else if name = Internal.newObject then
      match args with
      | [] => none
      | constructor :: values =>
        match arena.node constructor with
        | .functionRef name => some (.construct name values)
        | _ =>
          (boundFunction? arena functions constructor).bind
            (structNode? arena · values)
    else if name = Internal.method then
      (boundFunction? arena functions id).map arena.node
    else none
  | _ => none

def settleCall (functions : List (String × NodeId)) (id : NodeId) : Nat → Arena → Arena
  | 0, arena => arena
  | fuel + 1, arena =>
    match runtimeCall? arena functions id with
    | some node => settleCall functions id fuel (arena.replace id node)
    | none => arena

def settleCalls (outline : Outline) : Arena :=
  let enter (arena : Arena) (id : NodeId) : Arena × List NodeId :=
    let arena := settleCall outline.functions id (arena.size + 1) arena
    (arena, arena.children id)
  (walk id enter (walkBound outline.nodes) [outline.root] [] outline.nodes).2

def isSameAccess (arena : Arena) (target read : NodeId) (valueOnTop : Bool) : Bool :=
  match arena.varNode? target, arena.varNode? read with
  | some t, some r =>
    t.name == r.name && t.holder == r.holder &&
      (if valueOnTop then t.indices == r.indices else t.isSimple && r.isSimple)
  | _, _ => false

/-- The code that a compound assignment reads with; before format 15 any reading
may be one. -/
def isCompoundSource (arena : Arena) (read : NodeId) (isOldFormat : Bool) : Bool :=
  (arena.varNode? read).any fun r =>
    isOldFormat || r.opcode == .push || r.holder == .fixed .self

def isCompound (opcode : Opcode) (leftType rightType : DataType) : Bool :=
  match opcode with
  | .add | .sub | .mul | .div | .mod | .xor => true
  | .and | .or => leftType != .boolean && rightType != .boolean
  | _ => false

def stepMarkOf (arena : Arena) (opcode : Opcode) (right : NodeId) : StepMark :=
  match arena.node right with
  | .int16 value step =>
    if value = 1 && (opcode = .add || opcode = .sub) then step else .none
  | _ => .none

/-- `x = x op y` is `x op= y`, and with a marked one it is a step. -/
def foldCompound (isOldFormat : Bool) (arena : Arena) (id : NodeId) : Arena :=
  match arena.node id with
  | .assign assignment =>
    match arena.node assignment.value with
    | .binary opcode none left right leftType rightType =>
      let target := assignment.target
      let fold (kind : AssignKind) (value : NodeId) : Arena :=
        arena.replace id (.assign { assignment with kind, value })
      if assignment.kind ≠ .plain ||
          !isSameAccess arena target left assignment.valueOnTop then arena
      else
        match stepMarkOf arena opcode right with
        | .after => fold (.stepAfter (opcode == .add)) target
        | .before => fold (.stepBefore (opcode == .add)) target
        | .none =>
          if isCompoundSource arena left isOldFormat &&
            isCompound opcode leftType rightType
          then fold (.compound opcode) right
          else arena
    | _ => arena
  | _ => arena

/-- `a[i * 32000 + j]` is `a[i, j]`. -/
def splitIndex (arena : Arena) (id : NodeId) : Arena :=
  match arena.node id with
  | .var v =>
    match v.indices with
    | [only] =>
      match arena.node only with
      | .binary .add _ product second _ _ =>
        match arena.node product with
        | .binary .mul _ first scale _ _ =>
          if arena.node scale = .int32 32000 then
            arena.replace id (.var { v with indices := [first, second] })
          else arena
        | _ => arena
      | _ => arena
    | _ => arena
  | _ => arena

/-- `with (-2)` is `with (other)`. -/
def nameWithTarget (arena : Arena) (id : NodeId) : Arena :=
  match arena.node id with
  | .withLoop target _ =>
    match arena.node target with
    | .int16 value .none =>
      if -5 ≤ value && value ≤ -1 then arena.replace target (.owner ⟨value⟩) else arena
    | _ => arena
  | _ => arena

/-- `name = function` is a declaration if the function has that name. -/
def nameFunctions : Arena → List NodeId → Arena × List NodeId
  | arena, [] => (arena, [])
  | arena, item :: rest =>
    let (arena, item) :=
      match arena.node item with
      | .assign assignment =>
        match assignment.kind, arena.varNode? assignment.target,
          arena.node assignment.value with
        | .plain, some v, .function f =>
          if !f.isNamed && v.isSimple && v.holder == .fixed .self && v.name == f.name then
            (arena.replace assignment.value (.function { f with isNamed := true }),
              assignment.value)
          else (arena, item)
        | _, _, _ => (arena, item)
      | _ => (arena, item)
    let (arena, rest) := nameFunctions arena rest
    (arena, item :: rest)

def isReturnTemp (arena : Arena) (id : NodeId) : Bool :=
  (arena.varNode? id).any (·.name == Internal.returnTemp)

/-- The value that is kept for the `return` which follows. -/
def keptValue? (arena : Arena) (store ret : NodeId) : Option NodeId :=
  match arena.node store, arena.node ret with
  | .assign assignment, .returnValue value =>
    if assignment.kind = .plain && isReturnTemp arena assignment.target &&
        isReturnTemp arena value then some assignment.value
    else none
  | _, _ => none

/-- A value that is kept and then returned is returned. -/
def returnDirectly : Arena → List NodeId → Arena × List NodeId
  | arena, [] => (arena, [])
  | arena, [item] => (arena, [item])
  | arena, store :: ret :: rest =>
    match keptValue? arena store ret with
    | some value =>
      let (arena, rest) := returnDirectly (arena.replace ret (.returnValue value)) rest
      (arena, ret :: rest)
    | none =>
      let (arena, rest) := returnDirectly arena (ret :: rest)
      (arena, store :: rest)

def isPlainAssign (arena : Arena) (id : NodeId) : Bool :=
  match arena.node id with
  | .assign assignment => assignment.kind == .plain
  | _ => false

def isAssign (arena : Arena) (id : NodeId) : Bool :=
  match arena.node id with
  | .assign _ => true
  | _ => false

/-- The `for` that an assignment and the loop after it make: a `while` without
`continue` whose body ends with an assignment, or a `for` without a start. -/
def makeFor? (arena : Arena) (init loop : NodeId) : Option Arena :=
  if isPlainAssign arena init then
    match arena.node loop with
    | .whileLoop condition body false =>
      match arena.node body with
      | .block items =>
        match items.getLast? with
        | some step =>
          if isAssign arena step then
            let arena := arena.replace body (.block items.dropLast)
            some (arena.replace loop (.forLoop (some init) condition (some step) body))
          else none
        | none => none
      | _ => none
    | .forLoop none condition step body =>
      some (arena.replace loop (.forLoop (some init) condition step body))
    | _ => none
  else none

def makeForsAfter (previous : NodeId) : Arena → List NodeId → Arena × List NodeId
  | arena, [] => (arena, [previous])
  | arena, item :: rest =>
    match makeFor? arena previous item with
    | some arena => makeForsAfter item arena rest
    | none =>
      let (arena, rest) := makeForsAfter item arena rest
      (arena, previous :: rest)

def makeFors (arena : Arena) : List NodeId → Arena × List NodeId
  | [] => (arena, [])
  | first :: rest => makeForsAfter first arena rest

def tidyList (arena : Arena) (id : NodeId) : Arena :=
  let tidy (items : List NodeId) : Arena × List NodeId :=
    let (arena, items) := nameFunctions arena items
    let (arena, items) := returnDirectly arena items
    makeFors arena items
  match arena.node id with
  | .block items =>
    let (arena, items) := tidy items
    arena.replace id (.block items)
  | .switch value items =>
    let (arena, items) := tidy items
    arena.replace id (.switch value items)
  | _ => arena

def isEmptyBlock (arena : Arena) (id : NodeId) : Bool :=
  arena.node id == .block []

/-- In the body of a loop that ends with `if (c) { } else { … }` the empty branch
is a `continue`. -/
def foldContinueIn (body : NodeId) : Nat → Arena → Arena
  | 0, arena => arena
  | fuel + 1, arena =>
    match arena.node body with
    | .block items =>
      match items.getLast? with
      | some last =>
        match arena.node last with
        | .ifElse condition yes (some no) false =>
          match arena.node no with
          | .block rest =>
            if isEmptyBlock arena yes then
              let jump := arena.size
              let arena := arena.replace no (.block [])
              let arena := arena.add .continueLoop
              let arena := arena.replace yes (.block [jump])
              let arena := arena.replace last (.ifElse condition yes none false)
              let arena := arena.replace body (.block (items ++ rest))
              foldContinueIn body fuel arena
            else arena
          | _ => arena
        | _ => arena
      | none => arena
    | _ => arena

/-- Only loops whose `continue` leads to the end of the body. -/
def foldContinue (arena : Arena) (id : NodeId) : Arena :=
  match arena.node id with
  | .forLoop _ _ _ body | .doUntil body _ | .repeatLoop _ body =>
    foldContinueIn body (arena.size + 1) arena
  | _ => arena

/-- An `else` that holds nothing but an `if` is an `else if`. -/
def markElseIf (arena : Arena) (id : NodeId) : Arena :=
  match arena.node id with
  | .ifElse condition yes (some no) false =>
    match arena.node no with
    | .block [only] =>
      match arena.node only with
      | .ifElse .. => arena.replace id (.ifElse condition yes (some no) true)
      | _ => arena
    | _ => arena
  | _ => arena

/-- Where a walk through one function goes on: targets of assignments come
before their values, and functions inside it are not entered. -/
def scopeChildren (arena : Arena) (id : NodeId) : List NodeId :=
  match arena.node id with
  | .function _ => []
  | .assign assignment =>
    if assignment.kind.isStep then arena.children
      id else [assignment.target, assignment.value]
  | _ => arena.children id

structure ScopeLocals where
  declared : List String := []
  /-- Names that are read before they are assigned. -/
  preamble : List String := []
  declarations : List NodeId := []

namespace ScopeLocals

def declare (locals : ScopeLocals) (name : String) : ScopeLocals :=
  if locals.declared.contains name then locals
  else { locals with declared := locals.declared ++ [name] }

end ScopeLocals

def localName? (arena : Arena) (id : NodeId) : Option String := do
  let v ← arena.varNode? id
  if v.holder = .fixed .locals && v.name ≠ Internal.returnTemp then some v.name else none

def noteLocal (arena : Arena) (locals : ScopeLocals) (id : NodeId) : ScopeLocals :=
  match arena.node id with
  | .assign assignment =>
    let isSimple := (arena.varNode? assignment.target).any VariableNode.isSimple
    match assignment.kind, isSimple, localName? arena assignment.target with
    | .plain, true, some name =>
      if locals.declared.contains name then locals
      else { locals.declare name with declarations := locals.declarations ++ [id] }
    | _, _, _ => locals
  | .tryBlock _ (some (name, _)) _ => locals.declare name
  | .var _ =>
    match localName? arena id with
    | some name =>
      if locals.declared.contains name then locals
      else { locals.declare name with preamble := locals.preamble ++ [name] }
    | none => locals
  | _ => locals

def declareAt (arena : Arena) (id : NodeId) : Arena :=
  match arena.node id with
  | .assign assignment => arena.replace id (.assign { assignment with declares := true })
  | _ => arena

def emptyStatic : String := "__static_unused"

def staticItems? (arena : Arena) (id : NodeId) : Option (List NodeId) :=
  match arena.node id with
  | .statics items => some items
  | _ => none

def staticName? (arena : Arena) (item : NodeId) : Option String :=
  let target :=
    match arena.node item with
    | .assign assignment => assignment.target
    | _ => item
  (arena.varNode? target).map VariableNode.name

def addStatic (block : NodeId) (arena : Arena) (name : String) : Arena :=
  let id := arena.size
  let arena := arena.add (.var ⟨name, .fixed .static, .normal, [], .pop⟩)
  match arena.node block with
  | .statics items => arena.replace block (.statics (items ++ [id]))
  | _ => arena

/-- Declares the static variables of a function that are used but not declared. -/
def completeStatics (arena : Arena) (order : List NodeId) : Arena :=
  let blocks := order.filter fun id => (staticItems? arena id).isSome
  match blocks with
  | [] => arena
  | first :: _ =>
    let items := (blocks.filterMap (staticItems? arena)).flatten
    let declared := items.filterMap (staticName? arena)
    let used := (order.filterMap arena.varNode?).filter fun v =>
      v.holder == .fixed .static && !declared.contains v.name
    let missing := (used.map VariableNode.name).eraseDups
    let arena := missing.foldl (addStatic first) arena
    blocks.foldl (fun arena block =>
      if staticItems? arena block = some [] then addStatic block arena emptyStatic
      else arena) arena

/-- Declares the variables of the function with the given body; returns its
locals and the functions inside it. -/
def declareScope (arena : Arena) (body : NodeId) : Arena × ScopeLocals × List NodeId :=
  let order := reachedBy arena (scopeChildren arena) body
  let isFunction (id : NodeId) : Bool :=
    match arena.node id with
    | .function _ => true
    | _ => false
  let nested := order.filter isFunction
  let locals := order.foldl (noteLocal arena) {}
  let arena := locals.declarations.foldl declareAt arena
  (completeStatics arena order, locals, nested)

def declareFunctions : Nat → List NodeId → Arena → Arena
  | 0, _, arena => arena
  | depth + 1, functions, arena =>
    functions.foldl (fun arena id =>
      match arena.node id with
      | .function f =>
        let (arena, locals, nested) := declareScope arena f.body
        let arena :=
          match arena.node id with
          | .function f =>
            arena.replace id (.function { f with preamble := locals.preamble })
          | _ => arena
        declareFunctions depth nested.reverse arena
      | _ => arena) arena

/-- Locals of the entry that are declared at its start: those that are read
before they are assigned and those that are never used. -/
def rootPreamble : List String → ScopeLocals → List String → List String
  | [], _, waiting => waiting
  | name :: rest, locals, waiting =>
    if waiting.contains name || !locals.declared.contains name then
      name :: rootPreamble rest locals (waiting.erase name)
    else rootPreamble rest locals waiting

def tidy (target : Target) (entry : CodeEntry) (outline : Outline) : Outline :=
  let arena := settleCalls outline
  let nodes := reachable arena outline.root
  let arena := nodes.foldl (fun arena id =>
    let arena := foldCompound target.isOldFormat arena id
    let arena := if target.hasFunctions then arena else splitIndex arena id
    nameWithTarget arena id) arena
  let arena := nodes.foldl (fun arena id =>
    markElseIf (foldContinue (tidyList arena id) id) id) arena
  let (arena, locals, nested) := declareScope arena outline.root
  let preamble := rootPreamble entry.locals locals locals.preamble
  let arena := declareFunctions (arena.size + 1) nested.reverse arena
  { outline with nodes := arena, preamble }

end GameScript.Outline
