import GameScript.Number.Decimal
import GameScript.Syntax.Basic
import GameScript.Text.Visible

/-! Syntax trees on one line, as messages show them.

A node is its kind with its parts by name, the position last. -/

namespace GameScript.Syntax

open Builtin Bytecode Number Text

def AssignOp.name : AssignOp → String
  | .assign => "Assign"
  | .add => "Add"
  | .sub => "Sub"
  | .mul => "Mul"
  | .div => "Div"
  | .mod => "Mod"
  | .bitAnd => "BitAnd"
  | .bitOr => "BitOr"
  | .bitXor => "BitXor"
  | .coalesce => "NullCoalesce"

def BinaryOp.name : BinaryOp → String
  | .add => "Add"
  | .sub => "Sub"
  | .mul => "Mul"
  | .div => "Div"
  | .intDiv => "IntDiv"
  | .mod => "Mod"
  | .and => "And"
  | .or => "Or"
  | .xor => "Xor"
  | .bitAnd => "BitAnd"
  | .bitOr => "BitOr"
  | .bitXor => "BitXor"
  | .shl => "Shl"
  | .shr => "Shr"
  | .eq => "Eq"
  | .neq => "Neq"
  | .lt => "Lt"
  | .lte => "Lte"
  | .gt => "Gt"
  | .gte => "Gte"

def UnaryOp.name : UnaryOp → String
  | .not => "Not"
  | .neg => "Neg"
  | .bitNot => "BitNot"

namespace Display

def record (kind : String) (parts : List (String × String)) : String :=
  kind ++ " \x7b " ++ String.intercalate ", "
    (parts.map fun (name, text) => name ++ ": " ++ text) ++ " \x7d"

def wrap (kind part : String) : String := kind ++ "(" ++ part ++ ")"

def list (items : List String) : String := "[" ++ String.intercalate ", " items ++ "]"

def pair (left right : String) : String := "(" ++ left ++ ", " ++ right ++ ")"

def optional : Option String → String
  | some text => wrap "Some" text
  | none => "None"

def bool (value : Bool) : String := if value then "true" else "false"

def position (pos : Position) : String := wrap "Pos" (toString pos)

def node (kind : String) (parts : List (String × String)) (pos : Position) : String :=
  record kind (parts ++ [("pos", position pos)])

def literal : Literal → String
  | .number value => wrap "Number" (value.render .debugging)
  | .int64 value => wrap "Int64" (toString value.toInt)
  | .string text => wrap "String" (showText text)
  | .boolean value => wrap "Bool" (bool value)

def builtinFunction (f : BuiltinFunction) : String :=
  record "BuiltinFunction"
    [("name", showText f.name), ("argument_count", toString (f.arity.elim (-1) Int.ofNat)),
      ("id", toString f.id)]

def builtinVariable (v : BuiltinVariable) : String :=
  record "BuiltinVariable"
    [("name", showText v.name), ("is_global", bool v.isGlobal), ("can_set", bool v.canSet),
      ("can_get", bool v.canGet), ("id", toString v.id)]

/-! Nodes, given the texts of their parts. -/

def varNode (v : Variable) (indices : List String) : String :=
  wrap "Variable" <| node "Variable"
    [("name", showText v.name), ("builtin", optional (v.builtin.map builtinVariable)),
      ("instance", optional (v.owner.map fun owner =>
        wrap "InstanceType" (toString owner.code.toInt))),
      ("indices", list indices)] v.pos

def callNode (callee : Callee) (args : List String) : String :=
  node "Call"
    [("name", showText callee.name),
      ("builtin", optional (callee.builtin.map builtinFunction)),
      ("args", list args)] callee.pos

def chainNode (object part : String) (pos : Position) : String :=
  node "Chain" [("left", object), ("right", part)] pos

def blockNode (stmts : List String) (pos : Position) : String :=
  node "Block" [("stmts", list stmts)] pos

def enumMember (member : String × Int64) : String :=
  pair (showText member.1) (toString member.2.toInt)

end Display

open Display

mutual

def Expr.display : Expr → String
  | .literal pos value => node "Literal" [("value", literal value)] pos
  | .var v indices => varNode v (displayExprs indices)
  | .member pos object field indices =>
    chainNode object.display (varNode field (displayExprs indices)) pos
  | .call callee args => wrap "Call" (callNode callee (displayExprs args))
  | .methodCall pos object callee args =>
    chainNode object.display (wrap "Call" (callNode callee (displayExprs args))) pos
  | .construct callee args => wrap "New" (callNode callee (displayExprs args))
  | .binary pos op operands =>
    node "Binary" [("op", op.name), ("operands", list (displayExprs operands))] pos
  | .unary pos op operand =>
    node "Unary" [("op", op.name), ("operand", operand.display)] pos
  | .step pos before increment target =>
    node (if before then "Prefix" else "Postfix")
      [("target", target.display), ("increment", bool increment)] pos
  | .conditional pos condition yes no =>
    node "Conditional"
      [("cond", condition.display), ("then", yes.display), ("otherwise", no.display)] pos
  | .coalesce pos left right =>
    node "NullCoalesce" [("left", left.display), ("right", right.display)] pos
  | .array pos elements => node "Array" [("elements", list (displayExprs elements))] pos
  | .struct pos fields => node "Struct" [("fields", list (displayFields fields))] pos
  | .function decl => wrap "Function" decl.display

def FunctionDecl.display : FunctionDecl → String
  | .mk pos name params isConstructor parent body =>
    node "FunctionDecl"
      [("name", optional (name.map showText)), ("params", list (displayParams params)),
        ("constructor", bool isConstructor), ("inherits", optional (displayParent parent)),
        ("body", displayBlock body)] pos

def Stmt.display : Stmt → String
  | .expr pos value => node "Expr" [("expr", value.display)] pos
  | .assign pos op target value =>
    node "Assign"
      [("target", target.display), ("op", op.name), ("value", value.display)] pos
  | .step pos before increment target =>
    node "IncDec"
      [("target", target.display), ("increment", bool increment), ("prefix", bool before)]
      pos
  | .locals pos bindings => node "Var" [("decls", list (displayBindings bindings))] pos
  | .globals pos names => node "GlobalVar" [("names", list (names.map showText))] pos
  | .statics pos bindings => node "Static" [("decls", list (displayBindings bindings))] pos
  | .block body => wrap "Block" (displayBlock body)
  | .ifElse pos condition yes no =>
    node "If"
      [("cond", condition.display), ("then", yes.display),
        ("otherwise", optional (displayStmt? no))] pos
  | .whileLoop pos condition body =>
    node "While" [("cond", condition.display), ("body", body.display)] pos
  | .forLoop pos init condition step body =>
    node "For"
      [("init", optional (displayStmt? init)), ("cond", optional (displayExpr? condition)),
        ("step", optional (displayStmt? step)), ("body", body.display)] pos
  | .doUntil pos body condition =>
    node "DoUntil" [("body", body.display), ("cond", condition.display)] pos
  | .repeatLoop pos count body =>
    node "Repeat" [("count", count.display), ("body", body.display)] pos
  | .withLoop pos target body =>
    node "With" [("target", target.display), ("body", body.display)] pos
  | .switch pos value arms =>
    node "Switch" [("value", value.display), ("arms", list (displayArms arms))] pos
  | .breakLoop pos => wrap "Break" (position pos)
  | .continueLoop pos => wrap "Continue" (position pos)
  | .exit pos => wrap "Exit" (position pos)
  | .returnValue pos value => node "Return" [("value", optional (displayExpr? value))] pos
  | .throw pos value => node "Throw" [("value", value.display)] pos
  | .tryBlock pos body handler cleanup =>
    node "Try"
      [("body", displayBlock body), ("catch", optional (displayHandler handler)),
        ("finally", optional (displayBlock? cleanup))] pos
  | .function decl => wrap "Function" decl.display
  | .enumeration pos name members =>
    node "Enum" [("name", showText name), ("members", list (members.map enumMember))] pos
  | .delete pos target => node "Delete" [("target", target.display)] pos
  | .empty pos => wrap "Empty" (position pos)

def displayExpr? : Option Expr → Option String
  | some value => some value.display
  | none => none

def displayExprs : List Expr → List String
  | [] => []
  | value :: rest => value.display :: displayExprs rest

def displayFields : List (String × Expr) → List String
  | [] => []
  | (name, value) :: rest => pair (showText name) value.display :: displayFields rest

def displayBindings : List (Binding Expr) → List String
  | [] => []
  | ⟨pos, name, value⟩ :: rest =>
    node "Declarator" [("name", showText name), ("value", optional (displayExpr? value))]
      pos :: displayBindings rest

def displayParams : List (Binding Expr) → List String
  | [] => []
  | ⟨pos, name, value⟩ :: rest =>
    node "Param" [("name", showText name), ("default", optional (displayExpr? value))] pos
      :: displayParams rest

def displayParent : Option (Callee × List Expr) → Option String
  | some (callee, args) => some (callNode callee (displayExprs args))
  | none => none

def displayStmt? : Option Stmt → Option String
  | some stmt => some stmt.display
  | none => none

def displayStmts : List Stmt → List String
  | [] => []
  | stmt :: rest => stmt.display :: displayStmts rest

def displayBlock : Block Stmt → String
  | ⟨pos, stmts⟩ => blockNode (displayStmts stmts) pos

def displayBlock? : Option (Block Stmt) → Option String
  | some body => some (displayBlock body)
  | none => none

def displayHandler : Option (String × Block Stmt) → Option String
  | some (name, body) => some (pair (showText name) (displayBlock body))
  | none => none

def displayArms : List SwitchArm → List String
  | [] => []
  | .mk pos label body :: rest =>
    node "SwitchArm"
      [("label", optional (displayExpr? label)), ("body", list (displayStmts body))] pos ::
      displayArms rest

end

end GameScript.Syntax
