import GameScript.Syntax.Basic

/-! Programs in two forms.

Some statements have a longer and a shorter form: a `while` behind its start and before
its step is a `for`, a branch to the end of a loop is a `continue`, and an assignment
that reads its target first is a compound one.  Two trees are recasts of each other if
they differ only in such forms, at any number of places and however deep, and in the
positions of their nodes. -/

namespace GameScript.Syntax

def Stmt.canStart : Stmt → Bool
  | .assign _ _ _ _ | .locals _ _ => true
  | _ => false

def Stmt.canStep : Stmt → Bool
  | .step _ _ _ _ => true
  | stmt => stmt.canStart

mutual

/-- Some `continue` of the statement refers to a loop around it. -/
def Stmt.continues : Stmt → Bool
  | .continueLoop _ => true
  | .block ⟨_, stmts⟩ => continuesAny stmts
  | .ifElse _ _ yes no => yes.continues || continuesOptional no
  | .forLoop _ init _ step _ => continuesOptional init || continuesOptional step
  | .switch _ _ arms => continuesArms arms
  | .tryBlock _ ⟨_, stmts⟩ handler cleanup =>
    continuesAny stmts || continuesHandler handler || continuesCleanup cleanup
  | _ => false

def continuesAny : List Stmt → Bool
  | [] => false
  | stmt :: rest => stmt.continues || continuesAny rest

def continuesOptional : Option Stmt → Bool
  | none => false
  | some stmt => stmt.continues

def continuesArms : List SwitchArm → Bool
  | [] => false
  | .mk _ _ stmts :: rest => continuesAny stmts || continuesArms rest

def continuesHandler : Option (String × Block Stmt) → Bool
  | none => false
  | some (_, ⟨_, stmts⟩) => continuesAny stmts

def continuesCleanup : Option (Block Stmt) → Bool
  | none => false
  | some ⟨_, stmts⟩ => continuesAny stmts

end

mutual

inductive RecastExpr : Expr → Expr → Prop
  | literal {p p' : Position} {value : Literal} :
      RecastExpr (.literal p value) (.literal p' value)
  | var {v : Variable} {q : Position} {indices indices' : List Expr} :
      RecastExprs indices indices' →
      RecastExpr (.var v indices) (.var { v with pos := q } indices')
  | member {p p' q : Position} {object object' : Expr} {field : Variable}
      {indices indices' : List Expr} :
      RecastExpr object object' → RecastExprs indices indices' →
      RecastExpr (.member p object field indices)
        (.member p' object' { field with pos := q } indices')
  | call {callee : Callee} {q : Position} {args args' : List Expr} :
      RecastExprs args args' →
      RecastExpr (.call callee args) (.call { callee with pos := q } args')
  | methodCall {p p' q : Position} {object object' : Expr} {callee : Callee}
      {args args' : List Expr} :
      RecastExpr object object' → RecastExprs args args' →
      RecastExpr (.methodCall p object callee args)
        (.methodCall p' object' { callee with pos := q } args')
  | construct {callee : Callee} {q : Position} {args args' : List Expr} :
      RecastExprs args args' →
      RecastExpr (.construct callee args) (.construct { callee with pos := q } args')
  | binary {p p' : Position} {op : BinaryOp} {operands operands' : List Expr} :
      RecastExprs operands operands' →
      RecastExpr (.binary p op operands) (.binary p' op operands')
  | unary {p p' : Position} {op : UnaryOp} {operand operand' : Expr} :
      RecastExpr operand operand' →
      RecastExpr (.unary p op operand) (.unary p' op operand')
  | step {p p' : Position} {before increment : Bool} {target target' : Expr} :
      RecastExpr target target' →
      RecastExpr (.step p before increment target) (.step p' before increment target')
  | conditional {p p' : Position} {condition condition' yes yes' no no' : Expr} :
      RecastExpr condition condition' → RecastExpr yes yes' → RecastExpr no no' →
      RecastExpr (.conditional p condition yes no) (.conditional p' condition' yes' no')
  | coalesce {p p' : Position} {left left' right right' : Expr} :
      RecastExpr left left' → RecastExpr right right' →
      RecastExpr (.coalesce p left right) (.coalesce p' left' right')
  | array {p p' : Position} {elements elements' : List Expr} :
      RecastExprs elements elements' → RecastExpr (.array p elements) (.array p' elements')
  | struct {p p' : Position} {fields fields' : List (String × Expr)} :
      RecastFields fields fields' → RecastExpr (.struct p fields) (.struct p' fields')
  | function {decl decl' : FunctionDecl} :
      RecastFunction decl decl' → RecastExpr (.function decl) (.function decl')

inductive RecastExprs : List Expr → List Expr → Prop
  | nil : RecastExprs [] []
  | cons {first first' : Expr} {rest rest' : List Expr} :
      RecastExpr first first' → RecastExprs rest rest' →
      RecastExprs (first :: rest) (first' :: rest')

inductive RecastOptional : Option Expr → Option Expr → Prop
  | none : RecastOptional none none
  | some {value value' : Expr} :
      RecastExpr value value' → RecastOptional (some value) (some value')

inductive RecastFields : List (String × Expr) → List (String × Expr) → Prop
  | nil : RecastFields [] []
  | cons {name : String} {value value' : Expr} {rest rest' : List (String × Expr)} :
      RecastExpr value value' → RecastFields rest rest' →
      RecastFields ((name, value) :: rest) ((name, value') :: rest')

inductive RecastBindings : List (Binding Expr) → List (Binding Expr) → Prop
  | nil : RecastBindings [] []
  | cons {p p' : Position} {name : String} {value value' : Option Expr}
      {rest rest' : List (Binding Expr)} :
      RecastOptional value value' → RecastBindings rest rest' →
      RecastBindings (⟨p, name, value⟩ :: rest) (⟨p', name, value'⟩ :: rest')

inductive RecastParent : Option (Callee × List Expr) → Option (Callee × List Expr) → Prop
  | none : RecastParent none none
  | some {callee : Callee} {q : Position} {args args' : List Expr} :
      RecastExprs args args' →
      RecastParent (some (callee, args)) (some ({ callee with pos := q }, args'))

inductive RecastFunction : FunctionDecl → FunctionDecl → Prop
  | mk {p p' q q' : Position} {name : Option String} {params params' : List (Binding Expr)}
      {isConstructor : Bool} {parent parent' : Option (Callee × List Expr)}
      {stmts stmts' : List Stmt} :
      RecastBindings params params' → RecastParent parent parent' →
      RecastStmts stmts stmts' →
      RecastFunction (.mk p name params isConstructor parent ⟨q, stmts⟩)
        (.mk p' name params' isConstructor parent' ⟨q', stmts'⟩)

inductive RecastStmt : Stmt → Stmt → Prop
  | expr {p p' : Position} {value value' : Expr} :
      RecastExpr value value' → RecastStmt (.expr p value) (.expr p' value')
  | assign {p p' : Position} {op : AssignOp} {target target' value value' : Expr} :
      RecastExpr target target' → RecastExpr value value' →
      RecastStmt (.assign p op target value) (.assign p' op target' value')
  /-- `x = x op y` and `x op= y`. -/
  | compound {p p' q r r' : Position} {op : AssignOp} {binary : BinaryOp} {v : Variable}
      {value value' : Expr} :
      op.binary? = some binary → RecastExpr value value' →
      RecastStmt
        (.assign p .assign (.var v [])
          (.binary q binary [.var { v with pos := r } [], value]))
        (.assign p' op (.var { v with pos := r' } []) value')
  | step {p p' : Position} {before increment : Bool} {target target' : Expr} :
      RecastExpr target target' →
      RecastStmt (.step p before increment target) (.step p' before increment target')
  | locals {p p' : Position} {bindings bindings' : List (Binding Expr)} :
      RecastBindings bindings bindings' →
      RecastStmt (.locals p bindings) (.locals p' bindings')
  | globals {p p' : Position} {names : List String} :
      RecastStmt (.globals p names) (.globals p' names)
  | statics {p p' : Position} {bindings bindings' : List (Binding Expr)} :
      RecastBindings bindings bindings' →
      RecastStmt (.statics p bindings) (.statics p' bindings')
  | block {p p' : Position} {stmts stmts' : List Stmt} :
      RecastStmts stmts stmts' → RecastStmt (.block ⟨p, stmts⟩) (.block ⟨p', stmts'⟩)
  | ifElse {p p' : Position} {condition condition' : Expr} {yes yes' : Stmt}
      {no no' : Option Stmt} :
      RecastExpr condition condition' → RecastStmt yes yes' → RecastOptionalStmt no no' →
      RecastStmt (.ifElse p condition yes no) (.ifElse p' condition' yes' no')
  | whileLoop {p p' : Position} {condition condition' : Expr} {body body' : Stmt} :
      RecastExpr condition condition' → RecastStmt body body' →
      RecastStmt (.whileLoop p condition body) (.whileLoop p' condition' body')
  | forLoop {p p' : Position} {init init' : Option Stmt}
      {condition condition' : Option Expr} {step step' : Option Stmt} {body body' : Stmt} :
      RecastOptionalStmt init init' → RecastOptional condition condition' →
      RecastOptionalStmt step step' → RecastBody body body' →
      RecastStmt (.forLoop p init condition step body)
        (.forLoop p' init' condition' step' body')
  | doUntil {p p' : Position} {body body' : Stmt} {condition condition' : Expr} :
      RecastBody body body' → RecastExpr condition condition' →
      RecastStmt (.doUntil p body condition) (.doUntil p' body' condition')
  | repeatLoop {p p' : Position} {count count' : Expr} {body body' : Stmt} :
      RecastExpr count count' → RecastBody body body' →
      RecastStmt (.repeatLoop p count body) (.repeatLoop p' count' body')
  | withLoop {p p' : Position} {target target' : Expr} {body body' : Stmt} :
      RecastExpr target target' → RecastStmt body body' →
      RecastStmt (.withLoop p target body) (.withLoop p' target' body')
  | switch {p p' : Position} {value value' : Expr} {arms arms' : List SwitchArm} :
      RecastExpr value value' → RecastArms arms arms' →
      RecastStmt (.switch p value arms) (.switch p' value' arms')
  | breakLoop {p p' : Position} : RecastStmt (.breakLoop p) (.breakLoop p')
  | continueLoop {p p' : Position} : RecastStmt (.continueLoop p) (.continueLoop p')
  | exit {p p' : Position} : RecastStmt (.exit p) (.exit p')
  | returnValue {p p' : Position} {value value' : Option Expr} :
      RecastOptional value value' →
      RecastStmt (.returnValue p value) (.returnValue p' value')
  | throw {p p' : Position} {value value' : Expr} :
      RecastExpr value value' → RecastStmt (.throw p value) (.throw p' value')
  | tryBlock {p p' q q' : Position} {stmts stmts' : List Stmt}
      {handler handler' : Option (String × Block Stmt)}
      {cleanup cleanup' : Option (Block Stmt)} :
      RecastStmts stmts stmts' → RecastHandler handler handler' →
      RecastCleanup cleanup cleanup' →
      RecastStmt (.tryBlock p ⟨q, stmts⟩ handler cleanup)
        (.tryBlock p' ⟨q', stmts'⟩ handler' cleanup')
  | function {decl decl' : FunctionDecl} :
      RecastFunction decl decl' → RecastStmt (.function decl) (.function decl')
  | enumeration {p p' : Position} {name : String} {members : List (String × Int64)} :
      RecastStmt (.enumeration p name members) (.enumeration p' name members)
  | delete {p p' : Position} {target target' : Expr} :
      RecastExpr target target' → RecastStmt (.delete p target) (.delete p' target')
  | empty {p p' : Position} : RecastStmt (.empty p) (.empty p')

inductive RecastOptionalStmt : Option Stmt → Option Stmt → Prop
  | none : RecastOptionalStmt none none
  | some {stmt stmt' : Stmt} :
      RecastStmt stmt stmt' → RecastOptionalStmt (some stmt) (some stmt')

inductive RecastStmts : List Stmt → List Stmt → Prop
  | nil : RecastStmts [] []
  | cons {first first' : Stmt} {rest rest' : List Stmt} :
      RecastStmt first first' → RecastStmts rest rest' →
      RecastStmts (first :: rest) (first' :: rest')
  /-- `I; while (C) { B; S }` and `for (I; C; S) { B }`, if no `continue` of `B` refers to
  this loop. -/
  | loop {p p' q q' : Position} {init init' step step' : Stmt}
      {condition condition' : Expr} {body body' rest rest' : List Stmt} :
      init.canStart = true → step.canStep = true → continuesAny body = false →
      RecastStmt init init' → RecastExpr condition condition' → RecastStmt step step' →
      RecastStmts body body' → RecastStmts rest rest' →
      RecastStmts (init :: .whileLoop p condition (.block ⟨q, body ++ [step]⟩) :: rest)
        (.forLoop p' (some init') (some condition') (some step')
          (.block ⟨q', body'⟩) :: rest')

inductive RecastBody : Stmt → Stmt → Prop
  | same {body body' : Stmt} : RecastStmt body body' → RecastBody body body'
  /-- `P; if (C) { } else { R }` and `P; if (C) { continue; } R`. -/
  | skip {p p' q q' r r' t t' : Position} {condition condition' : Expr}
      {front front' rest rest' : List Stmt} :
      RecastStmts front front' → RecastExpr condition condition' → RecastStmts rest rest' →
      RecastBody
        (.block
          ⟨p, front ++ [.ifElse q condition (.block ⟨r, []⟩) (some (.block ⟨t, rest⟩))]⟩)
        (.block ⟨p', front' ++
          .ifElse q' condition' (.block ⟨r', [.continueLoop t']⟩) none :: rest'⟩)

inductive RecastArms : List SwitchArm → List SwitchArm → Prop
  | nil : RecastArms [] []
  | cons {p p' : Position} {label label' : Option Expr} {stmts stmts' : List Stmt}
      {rest rest' : List SwitchArm} :
      RecastOptional label label' → RecastStmts stmts stmts' → RecastArms rest rest' →
      RecastArms (.mk p label stmts :: rest) (.mk p' label' stmts' :: rest')

inductive RecastHandler :
    Option (String × Block Stmt) → Option (String × Block Stmt) → Prop
  | none : RecastHandler none none
  | some {name : String} {p p' : Position} {stmts stmts' : List Stmt} :
      RecastStmts stmts stmts' →
      RecastHandler (some (name, ⟨p, stmts⟩)) (some (name, ⟨p', stmts'⟩))

inductive RecastCleanup : Option (Block Stmt) → Option (Block Stmt) → Prop
  | none : RecastCleanup none none
  | some {p p' : Position} {stmts stmts' : List Stmt} :
      RecastStmts stmts stmts' → RecastCleanup (some ⟨p, stmts⟩) (some ⟨p', stmts'⟩)

end

/-! Every tree is a recast of itself. -/

mutual

theorem RecastExpr.refl : ∀ expr, RecastExpr expr expr
  | .literal _ _ => .literal
  | .var _ indices => .var (.refl indices)
  | .member _ object _ indices => .member (.refl object) (.refl indices)
  | .call _ args => .call (.refl args)
  | .methodCall _ object _ args => .methodCall (.refl object) (.refl args)
  | .construct _ args => .construct (.refl args)
  | .binary _ _ operands => .binary (.refl operands)
  | .unary _ _ operand => .unary (.refl operand)
  | .step _ _ _ target => .step (.refl target)
  | .conditional _ condition yes no =>
    .conditional (.refl condition) (.refl yes) (.refl no)
  | .coalesce _ left right => .coalesce (.refl left) (.refl right)
  | .array _ elements => .array (.refl elements)
  | .struct _ fields => .struct (.refl fields)
  | .function decl => .function (.refl decl)

theorem RecastExprs.refl : ∀ exprs, RecastExprs exprs exprs
  | [] => .nil
  | first :: rest => .cons (.refl first) (.refl rest)

theorem RecastOptional.refl : ∀ value, RecastOptional value value
  | none => .none
  | some value => .some (.refl value)

theorem RecastFields.refl : ∀ fields, RecastFields fields fields
  | [] => .nil
  | (_, value) :: rest => .cons (.refl value) (.refl rest)

theorem RecastBindings.refl : ∀ bindings, RecastBindings bindings bindings
  | [] => .nil
  | ⟨_, _, value⟩ :: rest => .cons (.refl value) (.refl rest)

theorem RecastParent.refl : ∀ parent, RecastParent parent parent
  | none => .none
  | some (_, args) => .some (.refl args)

theorem RecastFunction.refl : ∀ decl, RecastFunction decl decl
  | .mk _ _ params _ parent ⟨_, stmts⟩ => .mk (.refl params) (.refl parent) (.refl stmts)

theorem RecastStmt.refl : ∀ stmt, RecastStmt stmt stmt
  | .expr _ value => .expr (.refl value)
  | .assign _ _ target value => .assign (.refl target) (.refl value)
  | .step _ _ _ target => .step (.refl target)
  | .locals _ bindings => .locals (.refl bindings)
  | .globals _ _ => .globals
  | .statics _ bindings => .statics (.refl bindings)
  | .block ⟨_, stmts⟩ => .block (.refl stmts)
  | .ifElse _ condition yes no => .ifElse (.refl condition) (.refl yes) (.refl no)
  | .whileLoop _ condition body => .whileLoop (.refl condition) (.refl body)
  | .forLoop _ init condition step body =>
    .forLoop (.refl init) (.refl condition) (.refl step) (.same (.refl body))
  | .doUntil _ body condition => .doUntil (.same (.refl body)) (.refl condition)
  | .repeatLoop _ count body => .repeatLoop (.refl count) (.same (.refl body))
  | .withLoop _ target body => .withLoop (.refl target) (.refl body)
  | .switch _ value arms => .switch (.refl value) (.refl arms)
  | .breakLoop _ => .breakLoop
  | .continueLoop _ => .continueLoop
  | .exit _ => .exit
  | .returnValue _ value => .returnValue (.refl value)
  | .throw _ value => .throw (.refl value)
  | .tryBlock _ ⟨_, stmts⟩ handler cleanup =>
    .tryBlock (.refl stmts) (.refl handler) (.refl cleanup)
  | .function decl => .function (.refl decl)
  | .enumeration _ _ _ => .enumeration
  | .delete _ target => .delete (.refl target)
  | .empty _ => .empty

theorem RecastOptionalStmt.refl : ∀ stmt, RecastOptionalStmt stmt stmt
  | none => .none
  | some stmt => .some (.refl stmt)

theorem RecastStmts.refl : ∀ stmts, RecastStmts stmts stmts
  | [] => .nil
  | first :: rest => .cons (.refl first) (.refl rest)

theorem RecastArms.refl : ∀ arms, RecastArms arms arms
  | [] => .nil
  | .mk _ label stmts :: rest => .cons (.refl label) (.refl stmts) (.refl rest)

theorem RecastHandler.refl : ∀ handler, RecastHandler handler handler
  | none => .none
  | some (_, ⟨_, stmts⟩) => .some (.refl stmts)

theorem RecastCleanup.refl : ∀ cleanup, RecastCleanup cleanup cleanup
  | none => .none
  | some ⟨_, stmts⟩ => .some (.refl stmts)

end

end GameScript.Syntax
