import GameScript.Bytecode.Kinds
import GameScript.Number.Binary

/-! Outlines: programs recovered from code.

The nodes of an outline lie in one array and refer to each other by index.  One
node may stand in several places, because a duplicated value is one node; a
changed node changes in all of them. -/

namespace GameScript

open Bytecode Number

namespace Outline

abbrev NodeId := Nat

/-- Whose variable it is. -/
inductive Holder where
  /-- The instance that the instruction names. -/
  | fixed (inst : Instance)
  /-- The instance that an expression denotes. -/
  | expr (id : NodeId)
deriving DecidableEq, Repr

structure VariableNode where
  name : String
  holder : Holder
  access : Access
  indices : List NodeId
  opcode : Opcode
deriving DecidableEq, Repr

namespace VariableNode

def isSimple (v : VariableNode) : Bool :=
  v.indices.isEmpty &&
    match v.holder with
    | .fixed _ => true
    | .expr _ => false

end VariableNode

/-- Kind of step that a literal belongs to.  As statements `++x` and `x++` have
the same code. -/
inductive StepMark where
  | none
  /-- `x++` and `x--` -/
  | after
  /-- `++x` and `--x` -/
  | before
deriving DecidableEq, Repr

inductive AssignKind where
  | plain
  | compound (opcode : Opcode)
  | stepBefore (increment : Bool)
  | stepAfter (increment : Bool)
deriving DecidableEq, Repr

namespace AssignKind

def isStep : AssignKind → Bool
  | .stepBefore _ | .stepAfter _ => true
  | .plain | .compound _ => false

end AssignKind

structure Assignment where
  target : NodeId
  /-- The value; of a step, the target itself. -/
  value : NodeId
  kind : AssignKind := .plain
  /-- It declares its target. -/
  declares : Bool := false
  /-- The instance and the index lie below the value. -/
  valueOnTop : Bool := false
deriving DecidableEq, Repr

structure FunctionNode where
  name : String
  argumentCount : Nat
  isConstructor : Bool
  body : NodeId
  /-- Written as a declaration. -/
  isNamed : Bool := false
  /-- Locals that are read before they are assigned. -/
  preamble : List String := []
deriving DecidableEq, Repr

inductive Node where
  | block (items : List NodeId)
  | int16 (value : Int16) (step : StepMark)
  | int32 (value : Int32)
  | int64 (value : Int64)
  | float (value : Single)
  | double (value : Double)
  | string (text : String)
  | boolean (value : Bool)
  | constant (spelling : String)
  | var (v : VariableNode)
  /-- `self`, `other` or `global`. -/
  | owner (owner : Instance)
  | functionRef (name : String)
  | binary (opcode : Opcode) (comparison : Option Comparison) (left right : NodeId)
      (leftType rightType : DataType)
  | unary (opcode : Opcode) (operand : NodeId) (type : DataType)
  /-- `&&` or `||` that skips the operands that cannot matter. -/
  | lazyLogic (isAnd : Bool) (operands : List NodeId)
  | conditional (condition yes no : NodeId)
  | call (name : String) (args : List NodeId)
  | callValue (callee owner : NodeId) (args : List NodeId)
  | assign (assignment : Assignment)
  | breakLoop
  | continueLoop
  | exit
  | returnValue (value : NodeId)
  | throw (value : NodeId)
  | ifElse (condition yes : NodeId) (no : Option NodeId) (isElseIf : Bool)
  | whileLoop (condition : Option NodeId) (body : NodeId) (continueUsed : Bool)
  | forLoop (init condition step : Option NodeId) (body : NodeId)
  | doUntil (body condition : NodeId)
  | repeatLoop (count body : NodeId)
  | withLoop (target body : NodeId)
  /-- Labels and statements in one list. -/
  | switch (value : NodeId) (body : List NodeId)
  | switchCase (label : NodeId)
  | switchDefault
  | tryBlock (body : NodeId) (handler : Option (String × NodeId)) (cleanup : Option NodeId)
  /-- What a `catch` finds on the stack. -/
  | exception
  | statics (items : List NodeId)
  | function (f : FunctionNode)
  | struct (fields : List (String × NodeId))
  | construct (name : String) (args : List NodeId)
  | array (items : List NodeId)
deriving DecidableEq, Repr, Inhabited

namespace Node

def isStatement : Node → Bool
  | .block _ | .breakLoop | .continueLoop | .exit | .returnValue _ | .throw _ | .ifElse ..
  | .whileLoop .. | .forLoop .. | .doUntil .. | .repeatLoop .. | .withLoop .. | .switch ..
  | .switchCase _ | .switchDefault | .tryBlock .. | .statics _ => true
  | _ => false

def children : Node → List NodeId
  | .block items | .statics items | .array items => items
  | .var v =>
    (match v.holder with
      | .expr id => [id]
      | .fixed _ => []) ++ v.indices
  | .binary _ _ left right _ _ => [left, right]
  | .unary _ operand _ => [operand]
  | .lazyLogic _ operands => operands
  | .conditional condition yes no => [condition, yes, no]
  | .call _ args | .construct _ args => args.reverse
  | .callValue callee holder args => args.reverse ++ [holder, callee]
  | .assign assignment =>
    if assignment.kind.isStep then [assignment.target]
    else [assignment.value, assignment.target]
  | .returnValue value | .throw value | .switchCase value => [value]
  | .ifElse condition yes no _ => [condition, yes] ++ no.toList
  | .whileLoop condition body _ => condition.toList ++ [body]
  | .forLoop init condition step body =>
    init.toList ++ condition.toList ++ [body] ++ step.toList
  | .doUntil body condition => [body, condition]
  | .repeatLoop count body => [count, body]
  | .withLoop target body => [target, body]
  | .switch value body => value :: body
  | .tryBlock body handler cleanup => body :: (handler.toList.map (·.2) ++ cleanup.toList)
  | .function f => [f.body]
  | .struct fields => fields.reverse.map (·.2)
  | .int16 .. | .int32 _ | .int64 _ | .float _ | .double _ | .string _ | .boolean _
  | .constant _ | .owner _ | .functionRef _ | .breakLoop | .continueLoop | .exit
  | .switchDefault | .exception => []

end Node

abbrev Arena := Array Node

namespace Arena

def node (arena : Arena) (id : NodeId) : Node := arena.getD id default

def varNode? (arena : Arena) (id : NodeId) : Option VariableNode :=
  match arena.node id with
  | .var v => some v
  | _ => none

def children (arena : Arena) (id : NodeId) : List NodeId := (arena.node id).children

def replace (arena : Arena) (id : NodeId) (node : Node) : Arena :=
  arena.setIfInBounds id node

def add (arena : Arena) (node : Node) : Arena := arena.push node

end Arena

end Outline

structure Outline where
  nodes : Outline.Arena
  root : Outline.NodeId
  /-- Locals that are read before they are assigned. -/
  preamble : List String := []
  /-- Functions whose bodies lie inside the code, by name. -/
  functions : List (String × Outline.NodeId) := []
deriving DecidableEq, Repr

end GameScript
