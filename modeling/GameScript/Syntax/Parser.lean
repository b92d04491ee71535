import GameScript.Syntax.Basic
import GameScript.Syntax.Enumeration
import GameScript.Token.Basic

/-! From tokens to syntax trees.

Inside an expression `=` compares.  The constructs take the parsers of their
expressions and statements as arguments, and every use of such a parser comes
after a token of the construct itself, so that the nesting is never deeper than
the number of tokens. -/

namespace GameScript.Syntax

open Builtin Bytecode Number
open Token (Mark Kind Payload Lexeme Scalar Constant)

inductive ParseFault where
  | expected (what found : String)
  | expectedCall
  /-- A token carries something else than its kind tells. -/
  | malformed (what : String)
  | invalidStepTarget
  | emptyIndex
  | notIndexable
  | enumValueNotInteger
  | unknownEnumMember (name : String)
  | notEnumMember (member enumeration : String)
  /-- The nesting is deeper than the given bound. -/
  | tooDeep
deriving DecidableEq, Repr

namespace ParseFault

def message : ParseFault → String
  | .expected what found => s!"expected {what}, found {found}"
  | .expectedCall => "expected function call"
  | .malformed what => s!"malformed {what}"
  | .invalidStepTarget => "invalid increment target"
  | .emptyIndex => "empty index"
  | .notIndexable => "only variables can be indexed"
  | .enumValueNotInteger => "enum value must be an integer"
  | .unknownEnumMember name => s!"unknown enum member \"{name}\""
  | .notEnumMember member enumeration =>
    s!"\"{member}\" is not a member of enum \"{enumeration}\""
  | .tooDeep => "nesting too deep"

end ParseFault

structure ParseError where
  pos : Position
  fault : ParseFault
deriving DecidableEq, Repr

namespace ParseError

def message (error : ParseError) : String :=
  s!"{error.fault.message} at offset {error.pos}"

end ParseError

/-! Tokens that are still to be read. -/

structure ParseContext where
  registry : Registry
  enums : EnumTable
  endPos : Position

abbrev ParseM := ReaderT ParseContext (StateT (List Token) (Except ParseError))

def failAt (pos : Position) (fault : ParseFault) : ParseM α := throw ⟨pos, fault⟩

/-- The token after the next `count` ones; past the last one it is the end. -/
def peekAt (count : Nat) : ParseM Token := do
  let context ← read
  return (← get).getD count ⟨.eof, context.endPos⟩

def peek : ParseM Token := peekAt 0

def peekLexeme : ParseM Lexeme := do
  return (← peek).lexeme

def peekPos : ParseM Position := do
  return (← peek).pos

def isAt (mark : Mark) : ParseM Bool := do
  return (← peek).isMark mark

def advance : ParseM Token := do
  let token ← peek
  modify List.tail
  return token

def eat (mark : Mark) : ParseM Bool := do
  if ← isAt mark then
    discard advance
    return true
  else return false

/-- Fails because something else was expected than the next token. -/
def unexpected (what : String) : ParseM α := do
  let token ← peek
  failAt token.pos (.expected what token.lexeme.kind.name)

def expect (mark : Mark) (what : String) : ParseM Position := do
  if ← isAt mark then return (← advance).pos
  else unexpected what

def remaining : ParseM Nat := do
  return (← get).length + 1

def tooDeep : ParseM α := do
  failAt (← peekPos) .tooDeep

def name (what : String) : ParseM (String × Position) := do
  match (← peekLexeme).name? with
  | some name => return (name, (← advance).pos)
  | none => unexpected what

/-- An integral number as an integer of 64 bits; what is out of range goes to
the nearest bound. -/
def clampedInt64? (value : Double) : Option Int64 :=
  value.toInt?.map fun n => Int64.ofInt (nearestSignedWord 64 n)

def enumValue (earlier : List (String × Int64)) : ParseM Int64 := do
  let isNegative ← eat .minus
  let token ← advance
  let value ← match token.lexeme.payload with
    | .constant ⟨.int64 value, _, _⟩ => pure value
    | .constant ⟨.number number, _, _⟩ =>
      match clampedInt64? number with
      | some value => pure value
      | none => failAt token.pos .enumValueNotInteger
    | .var member _ =>
      match earlier.lookup member with
      | some value => pure value
      | none => failAt token.pos (.unknownEnumMember member)
    | _ => failAt token.pos .enumValueNotInteger
  return if isNegative then -value else value

/-- Members up to the closing brace; a member without a value follows the one
before it. -/
def enumMembers : Nat → Int64 → List (String × Int64) → ParseM (List (String × Int64))
  | 0, _, _ => tooDeep
  | fuel + 1, next, earlier => do
    if ← isAt .blockClose then return earlier
    let (member, _) ← name "enum member"
    let value ← if ← eat .assign then enumValue earlier else pure next
    let members := earlier ++ [(member, value)]
    if ← eat .comma then enumMembers fuel (value + 1) members
    else return members

structure EnumDecl where
  pos : Position
  name : String
  members : List (String × Int64)

def enumDecl : ParseM EnumDecl := do
  let pos ← expect .kwEnum "`enum`"
  let (enumeration, _) ← name "enum name"
  discard <| expect .blockOpen "`\x7b`"
  let members ← enumMembers (← remaining) 0 []
  discard <| expect .blockClose "`\x7d`"
  return ⟨pos, enumeration, members⟩

/-- Binary operators from the loosest to the tightest. -/
def binaryLevels : List (List (Mark × BinaryOp)) :=
  [[(.or, .or)], [(.and, .and)], [(.xor, .xor)], [(.bitOr, .bitOr)], [(.bitXor, .bitXor)],
    [(.bitAnd, .bitAnd)],
    [(.equal, .eq), (.assign, .eq), (.notEqual, .neq), (.less, .lt), (.lessEqual, .lte),
      (.greater, .gt), (.greaterEqual, .gte)],
    [(.shiftLeft, .shl), (.shiftRight, .shr)], [(.plus, .add), (.minus, .sub)],
    [(.times, .mul), (.divide, .div), (.intDivide, .intDiv), (.modulo, .mod)]]

def assignOp? : Lexeme → Option AssignOp
  | ⟨.mark .assign, _⟩ => some .assign
  | ⟨.mark .assignAdd, _⟩ => some .add
  | ⟨.mark .assignSub, _⟩ => some .sub
  | ⟨.mark .assignMul, _⟩ => some .mul
  | ⟨.mark .assignDiv, _⟩ => some .div
  | ⟨.mark .assignMod, _⟩ => some .mod
  | ⟨.mark .assignAnd, _⟩ => some .bitAnd
  | ⟨.mark .assignOr, _⟩ => some .bitOr
  | ⟨.mark .assignXor, _⟩ => some .bitXor
  | ⟨.mark .assignCoalesce, _⟩ => some .coalesce
  | _ => none

def operatorOf (ops : List (Mark × BinaryOp)) : ParseM (Option BinaryOp) := do
  match ← peekLexeme with
  | ⟨.mark mark, _⟩ => return ops.lookup mark
  | _ => return none

def stepMark? : Lexeme → Option Bool
  | ⟨.mark .increment, _⟩ => some true
  | ⟨.mark .decrement, _⟩ => some false
  | _ => none

/-! Accessors of data structures. -/

structure Accessor where
  mark : Mark
  getter : String
  setter : String
deriving DecidableEq, Repr

def accessors : List Accessor :=
  [⟨.listOpen, "ds_list_find_value", "ds_list_set"⟩,
    ⟨.mapOpen, "ds_map_find_value", "ds_map_set"⟩,
    ⟨.gridOpen, "ds_grid_get", "ds_grid_set"⟩,
    ⟨.structOpen, "variable_struct_get", "variable_struct_set"⟩]

def accessor? : Lexeme → Option Accessor
  | ⟨.mark mark, _⟩ => accessors.find? (·.mark == mark)
  | _ => none

/-- An assignment to what an accessor reads is a call of its setter. -/
def setterCall? (registry : Registry) (pos : Position) (op : AssignOp)
    (target value : Expr) : Option Stmt := do
  let .call ⟨_, getter, some _⟩ args := target | none
  let accessor ← accessors.find? (·.getter == getter)
  let value ← match op.binary? with
    | some binary => some (.binary pos binary [target, value])
    | none => if op = .assign then some value else none
  let callee : Callee := ⟨pos, accessor.setter, registry.function? accessor.setter⟩
  return .expr pos (.call callee (args ++ [value]))

section Expressions

variable (expr : ParseM Expr) (stmt : ParseM Stmt)

def listItems (close : Mark) : Nat → ParseM (List Expr)
  | 0 => tooDeep
  | fuel + 1 => do
    let item ← expr
    if ← eat .comma then
      if ← eat close then return [item]
      return item :: (← listItems close fuel)
    else
      discard <| expect close ("`,` or " ++ close.name)
      return [item]

def list (close : Mark) : ParseM (List Expr) := do
  if ← eat close then return []
  listItems expr close (← remaining)

def call : ParseM (Callee × List Expr) := do
  let token ← advance
  match token.lexeme.payload with
  | .function name builtin =>
    discard <| expect .parenOpen "`(`"
    let args ← list expr .parenClose
    return (⟨token.pos, name, builtin⟩, args)
  | _ => failAt token.pos .expectedCall

def isAtFunction : ParseM Bool := do
  return (← peekLexeme).kind == .function

def blockStmts : Nat → ParseM (List Stmt)
  | 0 => tooDeep
  | fuel + 1 => do
    if ← eat .blockClose then return []
    if (← peekLexeme).kind = .eof then unexpected "`\x7d`"
    let first ← stmt
    return first :: (← blockStmts fuel)

def block : ParseM (Block Stmt) := do
  let pos ← expect .blockOpen "`\x7b`"
  return ⟨pos, ← blockStmts stmt (← remaining)⟩

def bindings (what : String) : Nat → ParseM (List (Binding Expr))
  | 0 => tooDeep
  | fuel + 1 => do
    let (name, pos) ← name what
    let value ← if ← eat .assign then some <$> expr else pure none
    if ← eat .comma then return ⟨pos, name, value⟩ :: (← bindings what fuel)
    else return [⟨pos, name, value⟩]

def functionDecl (isNamed : Bool) : ParseM FunctionDecl := do
  let pos ← expect .kwFunction "`function`"
  let name ← if isNamed then (some ·.1) <$> name "function name" else pure none
  discard <| expect .parenOpen "`(`"
  let params ←
    if ← isAt .parenClose then pure [] else bindings expr "parameter name" (← remaining)
  discard <| expect .parenClose "`)`"
  let parent ←
    if ← eat .colon then
      if ← isAtFunction then some <$> call expr else unexpected "parent constructor call"
    else pure none
  let isConstructor ← eat .kwConstructor
  return .mk pos name params isConstructor parent (← block stmt)

def structFields : Nat → ParseM (List (String × Expr))
  | 0 => tooDeep
  | fuel + 1 => do
    if ← isAt .blockClose then return []
    let key ← match ← peekLexeme with
      | ⟨_, .constant ⟨.string text, none, _⟩⟩ => do
        discard advance
        pure text
      | ⟨_, .constant ⟨_, none, _⟩⟩ => unexpected "field name"
      | _ => do
        let (key, _) ← name "field name"
        pure key
    discard <| expect .colon "`:`"
    let value ← expr
    if ← eat .comma then return (key, value) :: (← structFields fuel)
    else return [(key, value)]

def structLiteral : ParseM Expr := do
  let pos ← expect .blockOpen "`\x7b`"
  let fields ← structFields expr (← remaining)
  discard <| expect .blockClose "`\x7d`"
  return .struct pos fields

def literalOf (constant : Constant) : Literal :=
  match constant.value with
  | .number value =>
    if constant.isBoolean then .boolean (!value.equals .zero) else .number value
  | .int64 value => .int64 value
  | .string text => .string text

def primary : ParseM Expr := do
  let ⟨lexeme, pos⟩ ← peek
  match lexeme with
  | ⟨.constant, payload⟩ =>
    discard advance
    match payload with
    | .constant constant => return .literal pos (literalOf constant)
    | _ => failAt pos (.malformed "constant")
  | ⟨.var, payload⟩ | ⟨.identifier, payload⟩ =>
    discard advance
    match payload with
    | .var name builtin => return .var { pos, name, builtin } []
    | .identifier name => return .var { pos, name } []
    | _ => failAt pos (.malformed "variable")
  | ⟨.function, _⟩ =>
    let (callee, args) ← call expr
    return .call callee args
  | ⟨.mark .parenOpen, _⟩ =>
    discard advance
    let inner ← expr
    discard <| expect .parenClose "`)`"
    return inner
  | ⟨.mark .arrayOpen, _⟩ =>
    discard advance
    return .array pos (← list expr .arrayClose)
  | ⟨.mark .blockOpen, _⟩ => structLiteral expr
  | ⟨.mark .kwFunction, _⟩ => return .function (← functionDecl expr stmt false)
  | ⟨.mark .kwNew, _⟩ =>
    discard advance
    if ← isAtFunction then
      let (callee, args) ← call expr
      return .construct callee args
    else unexpected "constructor call"
  | _ => unexpected "expression"

def qualifier? : Lexeme → Option Instance
  | ⟨.mark .kwStatic, _⟩ => some .static
  | .constant ⟨.number value, some _, false⟩ => do
    let n ← value.toInt?
    if isSignedWord 16 n then some ⟨Int16.ofInt n⟩ else none
  | _ => none

def memberVariable (owner : Option Instance) : ParseM Variable := do
  let (name, pos) ← name "member name"
  let builtin := (← read).registry.lookup? name
  return { pos, name, builtin, owner }

def qualified : ParseM (Option Expr) := do
  if !(← peekAt 1).isMark .dot || (← peekAt 2).lexeme.kind == .function then return none
  match qualifier? (← peekLexeme) with
  | none => return none
  | some owner =>
    discard advance
    discard advance
    return some (.var (← memberVariable (some owner)) [])

def enumerationOf? (enums : EnumTable) : Expr → Option (Variable × List (String × Int64))
  | .var v [] => if v.owner.isNone then (enums.get? v.name).map (v, ·) else none
  | _ => none

def member (left : Expr) : ParseM Expr := do
  match enumerationOf? (← read).enums left with
  | some (v, members) =>
    let (member, pos) ← name "enum member"
    match members.lookup member with
    | some value => return .number v.pos (Double.ofInt value.toInt)
    | none => failAt pos (.notEnumMember member v.name)
  | none =>
    if ← isAtFunction then
      let (callee, args) ← call expr
      return .methodCall left.pos left callee args
    else return .member left.pos left (← memberVariable none) []

def index (target : Expr) (indices : List Expr) : ParseM Expr :=
  match target with
  | .var v earlier => return .var v (earlier ++ indices)
  | .member pos object field earlier =>
    return .member pos object field (earlier ++ indices)
  | .methodCall _ _ callee _ => failAt callee.pos .notIndexable
  | other => failAt other.pos .notIndexable

def accesses : Nat → Expr → ParseM Expr
  | 0, _ => tooDeep
  | fuel + 1, target => do
    if ← eat .dot then accesses fuel (← member expr target)
    else if (← isAt .arrayOpen) || (← isAt .directOpen) then
      discard advance
      let indices ← list expr .arrayClose
      if indices.isEmpty then failAt target.pos .emptyIndex
      accesses fuel (← index target indices)
    else
      match accessor? (← peekLexeme) with
      | some accessor =>
        discard advance
        let args ← list expr .arrayClose
        let builtin := (← read).registry.function? accessor.getter
        accesses fuel (.call ⟨target.pos, accessor.getter, builtin⟩ (target :: args))
      | none => return target

def access : ParseM Expr := do
  let first ← match ← qualified with
    | some v => pure v
    | none => primary expr stmt
  accesses expr (← remaining) first

def isPlace : Expr → Bool
  | .var _ _ | .member _ _ _ _ | .methodCall _ _ _ _ => true
  | _ => false

def postfixed : ParseM Expr := do
  let value ← access expr stmt
  match stepMark? (← peekLexeme) with
  | some increment =>
    if isPlace value then
      discard advance
      return .step value.pos false increment value
    else return value
  | none => return value

def negate (pos : Position) : Expr → Expr
  | .literal _ (.number value) => .literal pos (.number value.neg)
  | .literal _ (.int64 value) => .literal pos (.int64 (-value))
  | operand => .unary pos .neg operand

def unary : Nat → ParseM Expr
  | 0 => tooDeep
  | fuel + 1 => do
    let ⟨lexeme, pos⟩ ← peek
    match lexeme with
    | ⟨.mark .not, _⟩ =>
      discard advance
      return .unary pos .not (← unary fuel)
    | ⟨.mark .bitNot, _⟩ =>
      discard advance
      return .unary pos .bitNot (← unary fuel)
    | ⟨.mark .minus, _⟩ =>
      discard advance
      return negate pos (← unary fuel)
    | ⟨.mark .plus, _⟩ =>
      discard advance
      unary fuel
    | lexeme =>
      match stepMark? lexeme with
      | some increment =>
        discard advance
        return .step pos true increment (← access expr stmt)
      | none => postfixed expr stmt

/-- Operands after the first ones; a different operator of the same level makes
what stands before it its first operand. -/
def operandChain (operand : ParseM Expr) (ops : List (Mark × BinaryOp)) (pos : Position) :
    Nat → BinaryOp → List Expr → ParseM Expr
  | 0, _, _ => tooDeep
  | fuel + 1, op, operands => do
    discard advance
    let operands := operands ++ [← operand]
    match ← operatorOf ops with
    | none => return .binary pos op operands
    | some next =>
      if next = op then operandChain operand ops pos fuel op operands
      else operandChain operand ops pos fuel next [.binary pos op operands]

def binary : List (List (Mark × BinaryOp)) → ParseM Expr
  | [] => do unary expr stmt (← remaining)
  | ops :: tighter => do
    let first ← binary tighter
    match ← operatorOf ops with
    | none => return first
    | some op => operandChain (binary tighter) ops first.pos (← remaining) op [first]

def coalesceChain : Nat → Expr → ParseM Expr
  | 0, _ => tooDeep
  | fuel + 1, left => do
    if ← eat .coalesce then
      let right ← binary expr stmt binaryLevels
      coalesceChain fuel (.coalesce left.pos left right)
    else return left

def expression : ParseM Expr := do
  let first ← binary expr stmt binaryLevels
  let condition ← coalesceChain expr stmt (← remaining) first
  if ← eat .question then
    let yes ← expr
    discard <| expect .colon "`:`"
    let no ← expr
    return .conditional condition.pos condition yes no
  else return condition

end Expressions

def terminated (bare : ParseM Stmt) : ParseM Stmt := do
  let stmt ← bare
  discard <| eat .semicolon
  return stmt

section Statements

variable (expr : ParseM Expr) (bare : ParseM Stmt)

def stepStmt (pos : Position) (before increment : Bool) (target : Expr) : ParseM Stmt := do
  let op : AssignOp := if increment then .add else .sub
  match setterCall? (← read).registry pos op target (.number pos .one) with
  | some stmt => return stmt
  | none =>
    if isPlace target then return .step pos before increment target
    else failAt target.pos .invalidStepTarget

def simpleStmt : ParseM Stmt := do
  let pos ← peekPos
  let target ← access expr (terminated bare)
  match assignOp? (← peekLexeme) with
  | some op =>
    discard advance
    let value ← expr
    return (setterCall? (← read).registry pos op target value).getD
      (.assign pos op target value)
  | none =>
    match stepMark? (← peekLexeme) with
    | some increment =>
      discard advance
      stepStmt pos false increment target
    | none => return .expr pos target

def globalNames : Nat → ParseM (List String)
  | 0 => tooDeep
  | fuel + 1 => do
    let (name, _) ← name "global variable name"
    if ← eat .comma then return name :: (← globalNames fuel)
    else return [name]

def forLoop (pos : Position) : ParseM Stmt := do
  discard advance
  discard <| expect .parenOpen "`(`"
  let init ← if ← isAt .semicolon then pure none else some <$> bare
  discard <| expect .semicolon "`;`"
  let condition ← if ← isAt .semicolon then pure none else some <$> expr
  discard <| expect .semicolon "`;`"
  let step ← if ← isAt .parenClose then pure none else some <$> bare
  discard <| expect .parenClose "`)`"
  return .forLoop pos init condition step (← terminated bare)

def armStmts : Nat → ParseM (List Stmt)
  | 0 => tooDeep
  | fuel + 1 => do
    match ← peekLexeme with
    | ⟨.mark .kwCase, _⟩ | ⟨.mark .kwDefault, _⟩ | ⟨.mark .blockClose, _⟩ => return []
    | ⟨.eof, _⟩ => unexpected "`\x7d`"
    | _ =>
      let first ← terminated bare
      return first :: (← armStmts fuel)

def switchArms : Nat → ParseM (List SwitchArm)
  | 0 => tooDeep
  | fuel + 1 => do
    let ⟨lexeme, pos⟩ ← peek
    match lexeme with
    | ⟨.mark .blockClose, _⟩ =>
      discard advance
      return []
    | ⟨.mark .kwCase, _⟩ | ⟨.mark .kwDefault, _⟩ =>
      discard advance
      let label ← if lexeme.kind = .mark .kwCase then some <$> expr else pure none
      discard <| expect .colon "`:`"
      let body ← armStmts bare (← remaining)
      return .mk pos label body :: (← switchArms fuel)
    | _ => unexpected "`case`, `default` or `\x7d`"

def switch (pos : Position) : ParseM Stmt := do
  discard advance
  let value ← expr
  discard <| expect .blockOpen "`\x7b`"
  return .switch pos value (← switchArms expr bare (← remaining))

def tryBlock (pos : Position) : ParseM Stmt := do
  let stmt := terminated bare
  discard advance
  let body ← block stmt
  let handler ←
    if ← eat .kwCatch then
      discard <| expect .parenOpen "`(`"
      let (name, _) ← name "exception variable"
      discard <| expect .parenClose "`)`"
      pure (some (name, ← block stmt))
    else pure none
  let cleanup ← if ← eat .kwFinally then some <$> block stmt else pure none
  return .tryBlock pos body handler cleanup

def statement : ParseM Stmt := do
  let stmt := terminated bare
  let ⟨lexeme, pos⟩ ← peek
  match lexeme with
  | ⟨.mark .blockOpen, _⟩ => return .block (← block stmt)
  | ⟨.mark .semicolon, _⟩ =>
    discard advance
    return .empty pos
  | ⟨.mark .kwVar, _⟩ =>
    discard advance
    return .locals pos (← bindings expr "variable name" (← remaining))
  | ⟨.mark .kwStatic, _⟩ =>
    if (← peekAt 1).isMark .dot then simpleStmt expr bare
    else
      discard advance
      return .statics pos (← bindings expr "variable name" (← remaining))
  | ⟨.mark .kwGlobalvar, _⟩ =>
    discard advance
    return .globals pos (← globalNames (← remaining))
  | ⟨.mark .kwIf, _⟩ =>
    discard advance
    let condition ← expr
    discard <| eat .kwThen
    let yes ← stmt
    let no ← if ← eat .kwElse then some <$> stmt else pure none
    return .ifElse pos condition yes no
  | ⟨.mark .kwWhile, _⟩ =>
    discard advance
    let condition ← expr
    discard <| eat .kwDo
    return .whileLoop pos condition (← stmt)
  | ⟨.mark .kwFor, _⟩ => forLoop expr bare pos
  | ⟨.mark .kwDo, _⟩ =>
    discard advance
    let body ← stmt
    discard <| expect .kwUntil "`until`"
    return .doUntil pos body (← expr)
  | ⟨.mark .kwRepeat, _⟩ =>
    discard advance
    let count ← expr
    return .repeatLoop pos count (← stmt)
  | ⟨.mark .kwWith, _⟩ =>
    discard advance
    let target ← expr
    discard <| eat .kwDo
    return .withLoop pos target (← stmt)
  | ⟨.mark .kwSwitch, _⟩ => switch expr bare pos
  | ⟨.mark .kwBreak, _⟩ =>
    discard advance
    return .breakLoop pos
  | ⟨.mark .kwContinue, _⟩ =>
    discard advance
    return .continueLoop pos
  | ⟨.mark .kwExit, _⟩ =>
    discard advance
    return .exit pos
  | ⟨.mark .kwReturn, _⟩ =>
    discard advance
    match ← peekLexeme with
    | ⟨.mark .semicolon, _⟩ | ⟨.mark .blockClose, _⟩ | ⟨.eof, _⟩ =>
      return .returnValue pos none
    | _ => return .returnValue pos (some (← expr))
  | ⟨.mark .kwThrow, _⟩ =>
    discard advance
    return .throw pos (← expr)
  | ⟨.mark .kwTry, _⟩ => tryBlock bare pos
  | ⟨.mark .kwFunction, _⟩ =>
    if (← peekAt 1).isMark .parenOpen then simpleStmt expr bare
    else return .function (← functionDecl expr stmt true)
  | ⟨.mark .kwEnum, _⟩ =>
    let decl ← enumDecl
    return .enumeration decl.pos decl.name decl.members
  | ⟨.mark .kwDelete, _⟩ =>
    discard advance
    return .delete pos (← expr)
  | lexeme =>
    match stepMark? lexeme with
    | some increment =>
      discard advance
      let target ← access expr stmt
      stepStmt pos true increment target
    | none => simpleStmt expr bare

end Statements

mutual

def exprWithin : Nat → ParseM Expr
  | 0 => tooDeep
  | depth + 1 => expression (exprWithin depth) (terminated (stmtWithin depth))

def stmtWithin : Nat → ParseM Stmt
  | 0 => tooDeep
  | depth + 1 => statement (exprWithin depth) (stmtWithin depth)

end

def program (depth : Nat) : Nat → ParseM Program
  | 0 => tooDeep
  | fuel + 1 => do
    if (← peekLexeme).kind = .eof then return []
    let first ← terminated (stmtWithin depth)
    return first :: (← program depth fuel)

def lone (depth : Nat) : ParseM Expr := do
  let value ← exprWithin depth
  if (← peekLexeme).kind = .eof then return value
  else unexpected "end of expression"

def runParser (registry : Registry) (enums : EnumTable) (tokens : List Token)
    (parser : ParseM α) : Except ParseError α :=
  let endPos := (tokens.getLast?.map Token.pos).getD 0
  (parser.run ⟨registry, enums, endPos⟩ tokens).map (·.1)

def parseProgram (registry : Registry) (enums : EnumTable) (tokens : List Token) :
    Except ParseError Program :=
  runParser registry enums tokens (program (tokens.length + 1) (tokens.length + 1))

def parseExpression (registry : Registry) (enums : EnumTable) (tokens : List Token) :
    Except ParseError Expr :=
  runParser registry enums tokens (lone (tokens.length + 1))

/-- Adds the enumerations that some tokens declare.  Those that are malformed are
passed over. -/
def collectEnums (registry : Registry) : List Token → EnumTable → EnumTable
  | [], enums => enums
  | token :: rest, enums =>
    let enums :=
      if token.isMark .kwEnum then
        match runParser registry {} (token :: rest) enumDecl with
        | .ok decl => enums.insert decl.name decl.members
        | .error _ => enums
      else enums
    collectEnums registry rest enums

/-- The program with the enumerations that it declares itself. -/
def parse (registry : Registry) (tokens : List Token) : Except ParseError Program :=
  parseProgram registry (collectEnums registry tokens {}) tokens

end GameScript.Syntax
