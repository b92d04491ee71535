import GameScript.Builtin.Registry
import GameScript.Bytecode.Kinds
import GameScript.Position

/-! Syntax trees of scripts.

Every node keeps the position of its first token.  A chain of one binary
operator is a single node with all its operands; parentheses end a chain. -/

namespace GameScript.Syntax

open Builtin Bytecode Number

inductive AssignOp where
  | assign | add | sub | mul | div | mod | bitAnd | bitOr | bitXor | coalesce
deriving DecidableEq, Repr

inductive BinaryOp where
  | add | sub | mul | div | intDiv | mod | and | or | xor | bitAnd | bitOr
  | bitXor | shl | shr
  | eq | neq | lt | lte | gt | gte
deriving DecidableEq, Repr

inductive UnaryOp where
  | not | neg | bitNot
deriving DecidableEq, Repr

namespace AssignOp

def binary? : AssignOp → Option BinaryOp
  | .add => some .add
  | .sub => some .sub
  | .mul => some .mul
  | .div => some .div
  | .mod => some .mod
  | .bitAnd => some .bitAnd
  | .bitOr => some .bitOr
  | .bitXor => some .bitXor
  | .assign | .coalesce => none

end AssignOp

namespace BinaryOp

def comparison? : BinaryOp → Option Comparison
  | .eq => some .equal
  | .neq => some .notEqual
  | .lt => some .less
  | .lte => some .lessEqual
  | .gt => some .greater
  | .gte => some .greaterEqual
  | _ => none

def symbol : BinaryOp → String
  | .add => "+"
  | .sub => "-"
  | .mul => "*"
  | .div => "/"
  | .intDiv => "div"
  | .mod => "%"
  | .and => "&&"
  | .or => "||"
  | .xor => "^^"
  | .bitAnd => "&"
  | .bitOr => "|"
  | .bitXor => "^"
  | .shl => "<<"
  | .shr => ">>"
  | .eq => "=="
  | .neq => "!="
  | .lt => "<"
  | .lte => "<="
  | .gt => ">"
  | .gte => ">="

end BinaryOp

inductive Literal where
  | number (value : Double)
  /-- An integer that double precision cannot hold. -/
  | int64 (value : Int64)
  | string (text : String)
  | boolean (value : Bool)
deriving DecidableEq, Repr

/-- A variable name with what is known about it. -/
structure Variable where
  pos : Position
  name : String
  builtin : Option BuiltinVariable := none
  /-- Explicit instance, as in `global.score`. -/
  owner : Option Instance := none
deriving DecidableEq, Repr

structure Callee where
  pos : Position
  name : String
  builtin : Option BuiltinFunction := none
deriving DecidableEq, Repr

structure Binding (E : Type) where
  pos : Position
  name : String
  value : Option E
deriving DecidableEq, Repr

/-- Statements between braces. -/
structure Block (S : Type) where
  pos : Position
  stmts : List S
deriving DecidableEq, Repr

mutual

inductive Expr where
  | literal (pos : Position) (value : Literal)
  | var (name : Variable) (indices : List Expr)
  /-- A variable of the instance that an expression denotes. -/
  | member (pos : Position) (object : Expr) (field : Variable) (indices : List Expr)
  | call (callee : Callee) (args : List Expr)
  /-- A function of the instance that an expression denotes. -/
  | methodCall (pos : Position) (object : Expr) (callee : Callee) (args : List Expr)
  | construct (callee : Callee) (args : List Expr)
  | binary (pos : Position) (op : BinaryOp) (operands : List Expr)
  | unary (pos : Position) (op : UnaryOp) (operand : Expr)
  /-- `++x`, `--x` (when `before`), `x++` and `x--` as values. -/
  | step (pos : Position) (before increment : Bool) (target : Expr)
  | conditional (pos : Position) (condition yes no : Expr)
  | coalesce (pos : Position) (left right : Expr)
  | array (pos : Position) (elements : List Expr)
  | struct (pos : Position) (fields : List (String × Expr))
  | function (decl : FunctionDecl)

inductive FunctionDecl where
  | mk (pos : Position) (name : Option String) (params : List (Binding Expr))
      (isConstructor : Bool) (parent : Option (Callee × List Expr)) (body : Block Stmt)

inductive Stmt where
  | expr (pos : Position) (value : Expr)
  | assign (pos : Position) (op : AssignOp) (target value : Expr)
  | step (pos : Position) (before increment : Bool) (target : Expr)
  | locals (pos : Position) (bindings : List (Binding Expr))
  | globals (pos : Position) (names : List String)
  | statics (pos : Position) (bindings : List (Binding Expr))
  | block (body : Block Stmt)
  | ifElse (pos : Position) (condition : Expr) (yes : Stmt) (no : Option Stmt)
  | whileLoop (pos : Position) (condition : Expr) (body : Stmt)
  | forLoop (pos : Position) (init : Option Stmt) (condition : Option Expr)
      (step : Option Stmt) (body : Stmt)
  | doUntil (pos : Position) (body : Stmt) (condition : Expr)
  | repeatLoop (pos : Position) (count : Expr) (body : Stmt)
  | withLoop (pos : Position) (target : Expr) (body : Stmt)
  | switch (pos : Position) (value : Expr) (arms : List SwitchArm)
  | breakLoop (pos : Position)
  | continueLoop (pos : Position)
  | exit (pos : Position)
  | returnValue (pos : Position) (value : Option Expr)
  | throw (pos : Position) (value : Expr)
  | tryBlock (pos : Position) (body : Block Stmt) (handler : Option (String × Block Stmt))
      (cleanup : Option (Block Stmt))
  | function (decl : FunctionDecl)
  | enumeration (pos : Position) (name : String) (members : List (String × Int64))
  | delete (pos : Position) (target : Expr)
  | empty (pos : Position)

/-- A `case`, or `default` without a label, and the statements up to the next one. -/
inductive SwitchArm where
  | mk (pos : Position) (label : Option Expr) (body : List Stmt)

end

namespace FunctionDecl

def pos : FunctionDecl → Position
  | .mk pos _ _ _ _ _ => pos

def name : FunctionDecl → Option String
  | .mk _ name _ _ _ _ => name

end FunctionDecl

namespace Expr

def pos : Expr → Position
  | .literal pos _ | .member pos _ _ _ | .methodCall pos _ _ _ | .binary pos _ _
  | .unary pos _ _ | .step pos _ _ _ | .conditional pos _ _ _ | .coalesce pos _ _
  | .array pos _ | .struct pos _ => pos
  | .var v _ => v.pos
  | .call callee _ | .construct callee _ => callee.pos
  | .function decl => decl.pos

def number (pos : Position) (value : Double) : Expr := .literal pos (.number value)

def isSimpleVariable : Expr → Bool
  | .var _ indices => indices.isEmpty
  | _ => false

end Expr

namespace Stmt

def pos : Stmt → Position
  | .expr pos _ | .assign pos _ _ _ | .step pos _ _ _ | .locals pos _ | .globals pos _
  | .statics pos _ | .ifElse pos _ _ _ | .whileLoop pos _ _ | .forLoop pos _ _ _ _
  | .doUntil pos _ _ | .repeatLoop pos _ _ | .withLoop pos _ _ | .switch pos _ _
  | .breakLoop pos | .continueLoop pos | .exit pos | .returnValue pos _ | .throw pos _
  | .tryBlock pos _ _ _ | .enumeration pos _ _ | .delete pos _ | .empty pos => pos
  | .block body => body.pos
  | .function decl => decl.pos

end Stmt

namespace SwitchArm

def label : SwitchArm → Option Expr
  | .mk _ label _ => label

end SwitchArm

abbrev Program := List Stmt

end GameScript.Syntax
