import GameScript.Proofs.Emission.Operands

/-! Formulas and what they mean.

A formula is an expression without calls, elements and functions.  It is evaluated from
left to right; static types say which values are converted. -/

namespace GameScript.Evaluation

open Bytecode Emission Number Syntax

inductive Formula where
  | literal (pos : Position) (value : Literal)
  | name (v : Variable)
  | unary (pos : Position) (op : UnaryOp) (operand : Formula)
  | chain (pos : Position) (op : BinaryOp) (first : Formula) (others : List Formula)
  | conditional (pos : Position) (condition yes no : Formula)

mutual

def Formula.expr : Formula → Expr
  | .literal pos value => .literal pos value
  | .name v => .var v []
  | .unary pos op operand => .unary pos op operand.expr
  | .chain pos op first others => .binary pos op (first.expr :: exprs others)
  | .conditional pos condition yes no => .conditional pos condition.expr yes.expr no.expr

def exprs : List Formula → List Expr
  | [] => []
  | formula :: rest => formula.expr :: exprs rest

end

inductive NameUse where
  | function (name : String)
  | stored (name : String) (owner : Instance)
deriving DecidableEq, Repr

def NameUse.type : NameUse → DataType
  | .function _ => .int32
  | .stored _ _ => .variant

section Types

variable (names : Variable → NameUse)

mutual

def Formula.type : Formula → DataType
  | .literal _ value => literalType value
  | .name v => (names v).type
  | .unary _ op operand => unaryOperandType op operand.type
  | .chain _ op first others => typeAfter op (operandType op first.type) others
  | .conditional _ _ _ _ => .variant

/-- Type of a chain whose operands so far have the given one. -/
def typeAfter (op : BinaryOp) : DataType → List Formula → DataType
  | type, [] => type
  | type, next :: rest => typeAfter op (binaryType op (operandType op next.type) type) rest

end

end Types

structure Meaning where
  Value : Type
  constant : Immediate → Value
  text : String → Value
  function : String → Value
  read : String → Instance → Value
  convert : DataType → DataType → Value → Value
  unary : Opcode → DataType → Value → Value
  /-- Of two operands, the types are told from the top of the stack down. -/
  binary : Opcode → DataType → DataType → Value → Value → Value
  compare : Comparison → DataType → DataType → Value → Value → Value
  truth : Value → Bool

/-- A value, and the variables that were read for it, in this order. -/
structure Outcome (α : Type) where
  value : α
  reads : List (String × Instance) := []

namespace Outcome

variable {α β : Type}

def map (f : α → β) (outcome : Outcome α) : Outcome β := ⟨f outcome.value, outcome.reads⟩

def bind (outcome : Outcome α) (next : α → Outcome β) : Outcome β :=
  ⟨(next outcome.value).value, outcome.reads ++ (next outcome.value).reads⟩

end Outcome

namespace Meaning

variable (m : Meaning)

def coerce (type wanted : DataType) (value : m.Value) : m.Value :=
  if type = wanted then value else m.convert type wanted value

def apply (op : BinaryOp) (top second : DataType) (x y : m.Value) : m.Value :=
  match op.comparison? with
  | some kind => m.compare kind top second x y
  | none => m.binary (arithmeticOpcode op) top second x y

def integer (value : Int) : m.Value :=
  if isSignedWord 16 value then m.constant (.int16 (Int16.ofInt value))
  else if isSignedWord 32 value then m.constant (.int32 (Int32.ofInt value))
  else m.constant (.int64 (Int64.ofInt value))

def boolean (value : Bool) : m.Value := m.constant (.int16 (if value then 1 else 0))

def literal : Literal → m.Value
  | .boolean value => m.boolean value
  | .number value =>
    match integerOf? value with
    | some n => m.integer n
    | none => m.constant (.double value)
  | .int64 value => m.constant (.int64 value)
  | .string text => m.text text

def name : NameUse → Outcome m.Value
  | .function name => ⟨m.function name, []⟩
  | .stored name owner => ⟨m.read name owner, [(name, owner)]⟩

end Meaning

/-- The operator may be able to do without its further operands. -/
def isLogical (op : BinaryOp) : Bool := op == .and || op == .or

theorem operandType_logical {op : BinaryOp} (logical : isLogical op = true)
    (type : DataType) : operandType op type = .boolean := by
  cases op <;> first | rfl | cases logical

theorem binaryType_boolean (op : BinaryOp) :
    binaryType op .boolean .boolean = .boolean := by
  cases op <;> rfl

theorem Formula.type_logical (names : Variable → NameUse) (pos : Position) {op : BinaryOp}
    (logical : isLogical op = true) (first : Formula) (others : List Formula) :
    (Formula.chain pos op first others).type names = .boolean := by
  have after : ∀ others, typeAfter names op .boolean others = .boolean := by
    intro others
    induction others with
    | nil => rfl
    | cons next rest induction =>
      rw [typeAfter, operandType_logical logical, binaryType_boolean, induction]
  rw [Formula.type, operandType_logical logical, after]

section Evaluation

variable (m : Meaning) (isLazy : Bool) (names : Variable → NameUse)

mutual

/-- The value of a formula; `isLazy` tells whether logical operators leave operands out. -/
def Meaning.evaluate : Formula → Outcome m.Value
  | .literal _ value => ⟨m.literal value, []⟩
  | .name v => m.name (names v)
  | .unary _ op operand =>
    let type := operand.type names
    let wanted := unaryOperandType op type
    (evaluate operand).map fun x =>
      m.unary (if op == .neg then .neg else .not) wanted (m.coerce type wanted x)
  | .chain _ op first others =>
    let type := first.type names
    (evaluate first).bind fun x =>
      if isLogical op && isLazy then evaluateLazily op type x others
      else evaluateAll op (operandType op type)
        (m.coerce type (operandType op type) x) others
  | .conditional _ condition yes no =>
    (evaluate condition).bind fun x =>
      if m.truth (m.coerce (condition.type names) .boolean x) then
        (evaluate yes).map (m.coerce (yes.type names) .variant)
      else (evaluate no).map (m.coerce (no.type names) .variant)

/-- A chain with a value of the given type for the operands so far. -/
def Meaning.evaluateAll (op : BinaryOp) :
    DataType → m.Value → List Formula → Outcome m.Value
  | _, x, [] => ⟨x, []⟩
  | type, x, next :: rest =>
    let wanted := operandType op (next.type names)
    (evaluate next).bind fun y =>
      evaluateAll op (binaryType op wanted type)
        (m.apply op wanted type x (m.coerce (next.type names) wanted y)) rest

/-- A lazy chain whose last operand so far has a value of the given type: a conjunction
goes on as long as operands are true, a disjunction as long as they are false. -/
def Meaning.evaluateLazily (op : BinaryOp) :
    DataType → m.Value → List Formula → Outcome m.Value
  | type, x, [] => ⟨m.coerce type .boolean x, []⟩
  | type, x, next :: rest =>
    if m.truth (m.coerce type .boolean x) = (op == .and) then
      (evaluate next).bind fun y => evaluateLazily op (next.type names) y rest
    else ⟨m.boolean (op == .or), []⟩

end

end Evaluation

end GameScript.Evaluation
