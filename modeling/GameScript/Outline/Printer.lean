import GameScript.Names
import GameScript.Number.Decimal
import GameScript.Outline.Walk
import GameScript.Target
import GameScript.Text.Quoted

/-! Source text of outlines.

Braces stand on lines of their own and a level is four blanks.  Parameters are
written `argument0` and so on, a member with the name of a local keeps its
`self.`, and a static variable that is used before its declaration its
`static.`. -/

namespace GameScript.Outline

open Bytecode Number

/-- How tightly an expression holds together. -/
abbrev Binding := Nat

namespace Binding

def conditional : Binding := 1
def logicOr : Binding := 3
def logicAnd : Binding := 4
def logicXor : Binding := 5
def bitOr : Binding := 6
def bitXor : Binding := 7
def bitAnd : Binding := 8
def comparison : Binding := 9
def shift : Binding := 10
def sum : Binding := 11
def product : Binding := 12
def unary : Binding := 13
def primary : Binding := 14

end Binding

/-- The operator of a binary node.  If `&&` and `||` skip operands, an `or` of
booleans that skips nothing is `^^`. -/
def binaryOperator (isLazy : Bool) (opcode : Opcode) (left right : DataType) :
    String × Binding :=
  let isLogic := left == .boolean && right == .boolean
  match opcode with
  | .mul => ("*", .product)
  | .div => ("/", .product)
  | .rem => ("div", .product)
  | .mod => ("%", .product)
  | .add => ("+", .sum)
  | .sub => ("-", .sum)
  | .shl => ("<<", .shift)
  | .shr => (">>", .shift)
  | .and => if isLogic then ("&&", .logicAnd) else ("&", .bitAnd)
  | .or =>
    if isLogic then if isLazy then ("^^", .logicXor) else ("||", .logicOr)
    else ("|", .bitOr)
  | .xor => ("^", .bitXor)
  | _ => ("?", .comparison)

def Node.binding (isLazy : Bool) : Node → Binding
  | .conditional .. => .conditional
  | .lazyLogic isAnd _ => if isAnd then .logicAnd else .logicOr
  | .binary opcode comparison _ _ left right =>
    match comparison with
    | some _ => .comparison
    | none => (binaryOperator isLazy opcode left right).2
  | .unary .. => .unary
  | .assign assignment =>
    match assignment.kind with
    | .stepBefore _ => .unary
    | _ => .primary
  | .int16 value _ => if value < 0 then .unary else .primary
  | .int32 value => if value < 0 then .unary else .primary
  | .int64 value => if value < 0 then .unary else .primary
  | .double value => if value.isNegative then .unary else .primary
  | .float value => if value.isNegative then .unary else .primary
  | _ => .primary

def unaryOperator (opcode : Opcode) (type : DataType) : String :=
  match opcode with
  | .neg => "-"
  | .not => if type = .boolean then "!" else "~"
  | _ => "~"

def compoundOperator : Opcode → String
  | .add => "+="
  | .sub => "-="
  | .mul => "*="
  | .div => "/="
  | .mod => "%="
  | .and => "&="
  | .or => "|="
  | .xor => "^="
  | _ => "="

structure PrintScope where
  locals : List String
  statics : List String := []

def localNames (arena : Arena) (body : NodeId) (preamble : List String) : List String :=
  let next (id : NodeId) : List NodeId :=
    match arena.node id with
    | .function _ => if id = body then arena.children id else []
    | _ => arena.children id
  let name? (id : NodeId) : Option String :=
    match arena.node id with
    | .var v => if v.holder = .fixed .locals then some v.name else none
    | .tryBlock _ (some (name, _)) _ => some name
    | _ => none
  preamble ++ (reachedBy arena next body).filterMap name?

structure PrintContext where
  arena : Arena
  target : Target
  assets : AssetTable

abbrev PrintM := ReaderT PrintContext (StateM PrintScope)

def inScope (body : NodeId) (preamble : List String) (action : PrintM String) :
    PrintM String := do
  let outer ← get
  let context ← read
  set ({ locals := localNames context.arena body preamble } : PrintScope)
  let text ← action
  set outer
  return text

def nodeOf (id : NodeId) : PrintM Node := return (← read).arena.node id

def indentation (level : Nat) : String := String.join (List.replicate level "    ")

def line (level : Nat) (text : String) : String := indentation level ++ text ++ "\n"

def preambleLine (level : Nat) (names : List String) : String :=
  if names.isEmpty then ""
  else line level ("var " ++ String.intercalate ", " names ++ ";")

def braced (level : Nat) (inner : String) : String :=
  line level "\x7b" ++ inner ++ line level "\x7d"

/-! The printers of expressions and statements take the printers of the nodes
below; all know the level of the line that they are on. -/

abbrev NodePrinter := Nat → NodeId → PrintM String

/-- An operand, in parentheses if it does not hold together as tightly as asked. -/
def operandText (expr : NodePrinter) (level : Nat) (id : NodeId) (least : Binding) :
    PrintM String := do
  let text ← expr level id
  let node ← nodeOf id
  if node.binding (← read).target.lazyLogic < least then return "(" ++ text ++ ")"
  else return text

def listText (expr : NodePrinter) (level : Nat) (separator : String)
    (items : List NodeId) : PrintM String := do
  let texts ← items.mapM (expr level)
  return String.intercalate separator texts

/-- An instance by name; an object without a name by its number. -/
def ownerText (owner : Instance) : PrintM String := do
  if owner.isObject then
    match (← read).assets.nameOf? ⟨.object, owner.code.toInt⟩ with
    | some name => return name
    | none => return "(" ++ toString owner.code.toInt ++ ")"
  else return owner.render

def variableText (expr : NodePrinter) (level : Nat) (v : VariableNode) :
    PrintM String := do
  let scope ← get
  let owner ←
    match v.holder with
    | .expr id => do
      let text ← operandText expr level id .primary
      pure (text ++ ".")
    | .fixed inst =>
      if inst = .self && scope.locals.contains v.name then pure "self."
      else if [Instance.self, .locals, .argument, .builtin].contains inst then pure ""
      else if inst = .static && scope.statics.contains v.name then pure ""
      else do
        let text ← ownerText inst
        pure (text ++ ".")
  let indices ← v.indices.mapM (expr level)
  if indices.isEmpty then return owner ++ v.name
  else if (← read).target.hasFunctions then
    return owner ++ v.name ++ String.join (indices.map fun index => "[" ++ index ++ "]")
  else return owner ++ v.name ++ "[" ++ String.intercalate ", " indices ++ "]"

def assignmentText (expr : NodePrinter) (level : Nat) (assignment : Assignment) :
    PrintM String := do
  let target ← expr level assignment.target
  match assignment.kind with
  | .plain =>
    let value ← expr level assignment.value
    return (if assignment.declares then "var " else "") ++ target ++ " = " ++ value
  | .compound opcode =>
    let value ← expr level assignment.value
    return target ++ " " ++ compoundOperator opcode ++ " " ++ value
  | .stepBefore increment => return (if increment then "++" else "--") ++ target
  | .stepAfter increment => return target ++ (if increment then "++" else "--")

def bodyText (stmt : NodePrinter) (level : Nat) (id : NodeId) : PrintM String := do
  match ← nodeOf id with
  | .block items =>
    let texts ← items.mapM (stmt level)
    return String.join texts
  | _ => stmt level id

def blockText (stmt : NodePrinter) (level : Nat) (id : NodeId) : PrintM String := do
  let inner ← bodyText stmt (level + 1) id
  return braced level inner

def functionText (stmt : NodePrinter) (level : Nat) (f : FunctionNode) :
    PrintM String := do
  let parameters := (List.range f.argumentCount).map fun k => "argument" ++ toString k
  let head := "function" ++ (if f.isNamed then " " ++ f.name else "") ++
    "(" ++ String.intercalate ", " parameters ++ ")" ++
    (if f.isConstructor then " constructor" else "") ++ "\n"
  let inner ← inScope f.body f.preamble (bodyText stmt (level + 1) f.body)
  return head ++ line level "\x7b" ++ preambleLine (level + 1) f.preamble ++ inner ++
    indentation level ++ "\x7d"

def startsWithSign (text : String) : Bool :=
  text.toList.head?.any fun c => c == '-' || c == '+' || c == '!' || c == '~'

def fieldText (expr : NodePrinter) (level : Nat) (field : String × NodeId) :
    PrintM String := do
  let value ← expr level field.2
  return field.1 ++ ": " ++ value

def expressionText (expr stmt : NodePrinter) (level : Nat) (id : NodeId) :
    PrintM String := do
  let target := (← read).target
  match ← nodeOf id with
  | .int16 value _ => return toString value.toInt
  | .int32 value => return toString value.toInt
  | .int64 value => return toString value.toInt
  | .float value => return value.render .plain
  | .double value => return value.render .plain
  | .string text => return Text.literal target.hasEscapes text
  | .boolean value => return if value then "true" else "false"
  | .constant text | .functionRef text => return text
  | .owner owner => ownerText owner
  | .var v => variableText expr level v
  | .binary opcode comparison left right leftType rightType =>
    let (operator, binding) :=
      match comparison with
      | some c => (c.symbol, .comparison)
      | none => binaryOperator target.lazyLogic opcode leftType rightType
    let left ← operandText expr level left binding
    let right ← operandText expr level right (binding + 1)
    return left ++ " " ++ operator ++ " " ++ right
  | .unary opcode operand type =>
    let text ← operandText expr level operand .unary
    let text := if startsWithSign text then "(" ++ text ++ ")" else text
    return unaryOperator opcode type ++ text
  | .lazyLogic isAnd operands =>
    let (operator, binding) : String × Binding :=
      if isAnd then (" && ", .logicAnd) else (" || ", .logicOr)
    let texts ← operands.mapM (operandText expr level · (binding + 1))
    return String.intercalate operator texts
  | .conditional condition yes no =>
    let condition ← operandText expr level condition (.conditional + 1)
    let yes ← operandText expr level yes (.conditional + 1)
    let no ← operandText expr level no (.conditional + 1)
    return condition ++ " ? " ++ yes ++ " : " ++ no
  | .call name args =>
    let args ← listText expr level ", " args
    return name ++ "(" ++ args ++ ")"
  | .callValue callee _ args =>
    let callee ← operandText expr level callee .primary
    let args ← listText expr level ", " args
    return callee ++ "(" ++ args ++ ")"
  | .construct name args =>
    let args ← listText expr level ", " args
    return "new " ++ name ++ "(" ++ args ++ ")"
  | .struct [] => return "\x7b\x7d"
  | .struct fields =>
    let texts ← fields.mapM (fieldText expr level)
    return "\x7b " ++ String.intercalate ", " texts ++ " \x7d"
  | .array items =>
    let items ← listText expr level ", " items
    return "[" ++ items ++ "]"
  | .function f => functionText stmt level f
  | .assign assignment => assignmentText expr level assignment
  | .exception => return "undefined"
  | _ => return ""

def switchItemText (expr stmt : NodePrinter) (level : Nat) (id : NodeId) :
    PrintM String := do
  match ← nodeOf id with
  | .switchCase label =>
    let label ← expr level label
    return line level ("case " ++ label ++ ":")
  | .switchDefault => return line level "default:"
  | _ => stmt (level + 1) id

def staticText (expr : NodePrinter) (level : Nat) (id : NodeId) : PrintM String := do
  let arena := (← read).arena
  let (name, value?) :=
    match arena.node id with
    | .assign assignment =>
      ((arena.varNode? assignment.target).elim "" VariableNode.name, some assignment.value)
    | .var v => (v.name, none)
    | _ => ("", none)
  let text ←
    match value? with
    | some value => do
      let value ← expr level value
      pure (name ++ " = " ++ value)
    | none => pure name
  modify fun scope => { scope with statics := name :: scope.statics }
  return text

def partText (expr : NodePrinter) (level : Nat) : Option NodeId → PrintM String
  | some id => expr level id
  | none => return ""

/-- An `if` whose first line starts with `lead`; `elseIf` writes the `if` of an
`else if`. -/
def ifText (expr stmt elseIf : NodePrinter) (lead : String) (level : Nat) (id : NodeId) :
    PrintM String := do
  match ← nodeOf id with
  | .ifElse condition yes no isElseIf =>
    let condition ← expr level condition
    let yes ← blockText stmt level yes
    let text := line level (lead ++ "if (" ++ condition ++ ")") ++ yes
    match no with
    | none => return text
    | some no =>
      match ← nodeOf no, isElseIf with
      | .block [only], true =>
        let rest ← elseIf level only
        return text ++ rest
      | _, _ =>
        let no ← blockText stmt level no
        return text ++ line level "else" ++ no
  | _ => return ""

def statementText (expr stmt elseIf : NodePrinter) (level : Nat) (id : NodeId) :
    PrintM String := do
  match ← nodeOf id with
  | .block _ => blockText stmt level id
  | .assign assignment =>
    let text ← assignmentText expr level assignment
    return line level (text ++ ";")
  | .breakLoop => return line level "break;"
  | .continueLoop => return line level "continue;"
  | .exit => return line level "exit;"
  | .returnValue value =>
    let value ← expr level value
    return line level ("return " ++ value ++ ";")
  | .throw value =>
    let value ← expr level value
    return line level ("throw " ++ value ++ ";")
  | .ifElse .. => ifText expr stmt elseIf "" level id
  | .whileLoop (some condition) body _ =>
    let condition ← expr level condition
    let body ← blockText stmt level body
    return line level ("while (" ++ condition ++ ")") ++ body
  | .whileLoop none body _ =>
    let body ← blockText stmt level body
    return line level "for (;;)" ++ body
  | .forLoop init condition step body =>
    let init ← partText expr level init
    let condition ← partText expr level condition
    let step ← partText expr level step
    let body ← blockText stmt level body
    return line level ("for (" ++ init ++ "; " ++ condition ++ "; " ++ step ++ ")") ++ body
  | .doUntil body condition =>
    let body ← blockText stmt level body
    let condition ← expr level condition
    return line level "do" ++ body ++ line level ("until (" ++ condition ++ ");")
  | .repeatLoop count body =>
    let count ← expr level count
    let body ← blockText stmt level body
    return line level ("repeat (" ++ count ++ ")") ++ body
  | .withLoop target body =>
    let target ← expr level target
    let body ← blockText stmt level body
    return line level ("with (" ++ target ++ ")") ++ body
  | .switch value items =>
    let value ← expr level value
    let texts ← items.mapM (switchItemText expr stmt (level + 1))
    return line level ("switch (" ++ value ++ ")") ++ braced level (String.join texts)
  | .switchCase label =>
    let label ← expr level label
    return line level ("case " ++ label ++ ":")
  | .switchDefault => return line level "default:"
  | .tryBlock body handler cleanup =>
    let body ← blockText stmt level body
    let handler ←
      match handler with
      | some (name, block) => do
        let block ← blockText stmt level block
        pure (line level ("catch (" ++ name ++ ")") ++ block)
      | none => pure ""
    let cleanup ←
      match cleanup with
      | some block => do
        let block ← blockText stmt level block
        pure (line level "finally" ++ block)
      | none => pure ""
    return line level "try" ++ body ++ handler ++ cleanup
  | .statics items =>
    let texts ← items.mapM (staticText expr level)
    return line level ("static " ++ String.intercalate ", " texts ++ ";")
  | .function f =>
    let text ← functionText stmt level f
    return line level (if f.isNamed then text else text ++ ";")
  | _ =>
    let text ← expressionText expr stmt level id
    return line level (text ++ ";")

/-! The printers of nodes above at most so many others. -/

mutual

def exprWithin : Nat → NodePrinter
  | 0, _, _ => return ""
  | depth + 1, level, id => expressionText (exprWithin depth) (stmtWithin depth) level id

def stmtWithin : Nat → NodePrinter
  | 0, _, _ => return ""
  | depth + 1, level, id =>
    statementText (exprWithin depth) (stmtWithin depth) (elseIfWithin depth) level id

def elseIfWithin : Nat → NodePrinter
  | 0, _, _ => return ""
  | depth + 1, level, id =>
    ifText (exprWithin depth) (stmtWithin depth) (elseIfWithin depth) "else " level id

end

def render (target : Target) (assets : AssetTable) (outline : Outline) : String :=
  let printer := bodyText (stmtWithin (outline.nodes.size + 1)) 0 outline.root
  let text := inScope outline.root outline.preamble printer
  let (text, _) := (text.run ⟨outline.nodes, target, assets⟩).run { locals := [] }
  preambleLine 0 outline.preamble ++ text

end GameScript.Outline
