import GameScript.Emission.Code

/-! What is emitted for each kind of node. -/

namespace GameScript.Emission

open Builtin Bytecode Syntax

section Expressions

variable (pos : Position) (object left right : Expr) (args : List Expr) (v : Variable)
  (callee : Callee)

theorem emitExpr_literal (value : Literal) :
    emitExpr (.literal pos value) = (do goTo pos; emitLiteral value) := rfl

theorem emitExpr_var :
    emitExpr (.var v args) = if args.isEmpty then emitName v
      else emitElement v args (emitFirstIndex args) (emitTailIndices .readElement args) :=
  rfl

theorem emitExpr_name : emitExpr (.var v []) = emitName v := rfl

theorem emitExpr_element (first : Expr) (rest : List Expr) :
    emitExpr (.var v (first :: rest)) =
      emitElement v (first :: rest) (emitFirstIndex (first :: rest))
        (emitTailIndices .readElement (first :: rest)) := rfl

theorem emitExpr_member :
    emitExpr (.member pos object v args) =
      emitMember pos v args (emitExpr object) (emitFirstIndex args)
        (emitTailIndices .readElement args) := rfl

theorem emitExpr_call :
    emitExpr (.call callee args) = emitFunctionCall callee args.length
      (emitArguments args) := rfl

theorem emitExpr_methodCall :
    emitExpr (.methodCall pos object callee args) =
      emitMethodCall pos callee args.length (emitArguments args) (emitExpr object) := rfl

theorem emitExpr_construct :
    emitExpr (.construct callee args) = emitConstruct callee args.length
      (emitArguments args) := rfl

theorem emitExpr_binary (op : BinaryOp) (first : Expr) (rest : List Expr) :
    emitExpr (.binary pos op (first :: rest)) = (do
      goTo pos
      emitChain op (emitExpr first) (emitLazyOperands (skipOpcode op) rest)
        (emitOperands op rest)) := rfl

theorem emitExpr_unary (op : UnaryOp) :
    emitExpr (.unary pos op object) = (do goTo pos; emitUnary op (emitExpr object)) := rfl

theorem emitExpr_step (before increment : Bool) :
    emitExpr (.step pos before increment (.var v [])) =
      (do goTo pos; emitStepValue v before increment) := rfl

theorem emitExpr_conditional :
    emitExpr (.conditional pos object left right) = (do
      goTo pos
      emitConditional (emitExpr object) (emitExpr left) (emitExpr right)) := rfl

theorem emitExpr_array :
    emitExpr (.array pos args) =
      (do goTo pos; emitArray args.length (emitArguments args)) := rfl

theorem emitExpr_struct (fields : List (String × Expr)) :
    emitExpr (.struct pos fields) =
      (do goTo pos; emitStruct (fields.map (·.1)) (emitFieldValues fields)) := rfl

theorem emitExpr_function (decl : FunctionDecl) :
    emitExpr (.function decl) = (do
      goTo decl.pos
      let name ← emitFunction decl
      emitBind name .self
      pushType .variant) := rfl

theorem emitFunction_eq (name : Option String) (params : List (Binding Expr))
    (isConstructor : Bool) (parent : Option (Callee × List Expr)) (body : Block Stmt) :
    emitFunction (.mk pos name params isConstructor parent body) = (do
      goTo pos
      if !(← read).target.hasFunctions then unsupported .oldFunction
      if parent.isSome then unsupported .inheritance
      if params.any (·.value.isSome) then unsupported .defaultParameter
      emitFunctionBody name (params.map (·.name)) isConstructor (declaredByAll body.stmts)
        (emitStmts body.stmts)) := rfl

theorem emitArguments_cons (arg : Expr) :
    emitArguments (arg :: args) = (do
      emitArguments args
      emitExpr arg
      discard <| convertTo .variant) := rfl

theorem emitFieldValues_cons (name : String) (value : Expr)
    (fields : List (String × Expr)) : emitFieldValues ((name, value) :: fields) = (do
      emitFieldValues fields
      emitExpr value
      discard <| convertTo .variant) := rfl

theorem emitOperands_cons (op : BinaryOp) (operand : Expr) :
    emitOperands op (operand :: args) = (do
      emitExpr operand
      convertOperand op
      applyBinary op
      emitOperands op args) := rfl

theorem emitLazyOperands_cons (skip : Opcode) (operand : Expr) :
    emitLazyOperands skip (operand :: args) = (do
      discard <| convertTo .boolean
      let site ← emitBranch skip
      emitExpr operand
      let sites ← emitLazyOperands skip args
      return site :: sites) := rfl

theorem emitFirstIndex_one (index : Expr) :
    emitFirstIndex [index] = (do emitExpr index; discard <| convertTo .int32) := rfl

theorem emitFirstIndex_pair (first second : Expr) :
    emitFirstIndex [first, second] = emitPairIndex (emitExpr first) (emitExpr second) :=
  rfl

theorem emitFirstIndex_many (first second third : Expr) :
    emitFirstIndex (first :: second :: third :: args) = emitManyIndex (emitExpr first) :=
  rfl

theorem emitInnerIndices_cons (final : Extension) (index : Expr) :
    emitInnerIndices final (index :: args) = (do
      emitExpr index
      discard <| convertTo .int32
      emitExtension (if args.isEmpty then final else .enterElement)
      emitInnerIndices final args) := rfl

theorem emitTailIndices_cons (final : Extension) (index : Expr) :
    emitTailIndices final (index :: args) = emitInnerIndices final args := rfl

theorem emitPlace_element :
    emitPlace (.var v args) = emitElementPlace v args (emitFirstIndex args) := rfl

theorem emitPlace_member :
    emitPlace (.member pos object v args) =
      emitMemberPlace v args (emitExpr object) (emitFirstIndex args) := rfl

theorem emitPlaceStore_element :
    emitPlaceStore (.var v args) =
      emitElementPlaceStore v args (emitFirstIndex args)
        (emitTailIndices .storeElement args) := rfl

theorem emitPlaceStore_member :
    emitPlaceStore (.member pos object v args) =
      emitMemberStore v args (emitExpr object) (emitFirstIndex args)
        (emitTailIndices .storeElement args) := rfl

end Expressions

section Statements

variable (pos : Position) (value : Expr) (body yes no : Stmt) (block : Block Stmt)

theorem emitStmt_expr :
    emitStmt (.expr pos value) = (do goTo pos; emitExpr value; emitDiscard) := rfl

theorem emitStmt_block :
    emitStmt (.block block) = (do goTo block.pos; emitStmts block.stmts) := rfl

theorem emitStmt_if :
    emitStmt (.ifElse pos value yes none) =
      (do goTo pos; emitIf (emitExpr value) (emitStmt yes)) := rfl

theorem emitStmt_ifElse :
    emitStmt (.ifElse pos value yes (some no)) =
      (do goTo pos; emitIfElse (emitExpr value) (emitStmt yes) (emitStmt no)) := rfl

theorem emitStmt_whileLoop :
    emitStmt (.whileLoop pos value body) =
      (do goTo pos; emitWhile (emitExpr value) (emitStmt body)) := rfl

theorem emitStmt_doUntil :
    emitStmt (.doUntil pos body value) =
      (do goTo pos; emitDoUntil (emitStmt body) (emitExpr value)) := rfl

theorem emitStmt_repeatLoop :
    emitStmt (.repeatLoop pos value body) =
      (do goTo pos; emitRepeat (emitExpr value) (emitStmt body)) := rfl

theorem emitStmt_withLoop :
    emitStmt (.withLoop pos value body) =
      (do goTo pos; emitWith (emitExpr value) (emitStmt body)) := rfl

def emitOptionalCondition : Option Expr → EmitM Unit
  | none => emitForCondition none
  | some condition => emitForCondition (some (emitExpr condition))

def emitOptional : Option Stmt → EmitM Unit
  | none => pure ()
  | some stmt => emitStmt stmt

theorem emitStmt_forLoop (init : Option Stmt) (condition : Option Expr)
    (step : Option Stmt) : emitStmt (.forLoop pos init condition step body) = (do
      goTo pos
      emitOptional init
      emitFor (emitOptionalCondition condition) (emitOptional step) (emitStmt body)) := by
  cases init <;> cases condition <;> cases step <;> rfl

theorem emitStmt_switch (arms : List SwitchArm) :
    emitStmt (.switch pos value arms) = (do
      goTo pos
      emitSwitch (emitExpr value) (emitTests · arms) (emitArms · · arms)) := rfl

theorem emitStmt_breakLoop : emitStmt (.breakLoop pos) = (do goTo pos; emitBreak) := rfl

theorem emitStmt_continueLoop :
    emitStmt (.continueLoop pos) = (do goTo pos; emitContinue) := rfl

theorem emitStmt_exit : emitStmt (.exit pos) = (do goTo pos; emitExit) := rfl

theorem emitStmt_returnNothing :
    emitStmt (.returnValue pos none) = (do goTo pos; emitExit) := rfl

theorem emitStmt_returnValue :
    emitStmt (.returnValue pos (some value)) = (do
      goTo pos
      emitExpr value
      discard <| convertTo .variant
      emitReturn) := rfl

theorem emitStmt_throw :
    emitStmt (.throw pos value) = (do
      goTo pos
      emitExpr value
      discard <| convertTo .variant
      emitCallDiscard Internal.throw 1) := rfl

def emitOptionalBlock : Option (Block Stmt) → EmitM Unit
  | none => pure ()
  | some block => emitStmts block.stmts

theorem emitStmt_try (cleanup : Option (Block Stmt)) :
    emitStmt (.tryBlock pos block none cleanup) = (do
      goTo pos
      emitTry false (emitStmts block.stmts) (fun _ => pure {})
        (emitOptionalBlock cleanup)) := by
  cases cleanup <;> rfl

theorem emitStmt_handledTry (name : String) (handler : Block Stmt)
    (cleanup : Option (Block Stmt)) :
    emitStmt (.tryBlock pos block (some (name, handler)) cleanup) = (do
      goTo pos
      emitTry true (emitStmts block.stmts) (emitHandler · name (emitStmts handler.stmts))
        (emitOptionalBlock cleanup)) := by
  cases cleanup <;> rfl

theorem emitStmt_function (decl : FunctionDecl) :
    emitStmt (.function decl) = (do
      goTo decl.pos
      let name ← emitFunction decl
      emitBind name .self
      emitPopVariable .variant .variant (.plain name .self)) := rfl

theorem emitStmt_locals (bindings : List (Binding Expr)) :
    emitStmt (.locals pos bindings) = (do goTo pos; emitLocals bindings) := rfl

theorem emitStmt_statics (bindings : List (Binding Expr)) :
    emitStmt (.statics pos bindings) =
      (do goTo pos; emitStaticBlock (emitStatics bindings)) := rfl

theorem emitLocals_declare (name : String) (bindings : List (Binding Expr)) :
    emitLocals (⟨pos, name, none⟩ :: bindings) =
      (do declareLocal name; emitLocals bindings) := rfl

theorem emitLocals_value (name : String) (bindings : List (Binding Expr)) :
    emitLocals (⟨pos, name, some value⟩ :: bindings) = (do
      declareLocal name
      emitLocalValue pos name (emitExpr value)
      emitLocals bindings) := rfl

theorem emitStatics_declare (name : String) (bindings : List (Binding Expr)) :
    emitStatics (⟨pos, name, none⟩ :: bindings) =
      (do declareStatic name; emitStatics bindings) := rfl

theorem emitStatics_value (name : String) (bindings : List (Binding Expr)) :
    emitStatics (⟨pos, name, some value⟩ :: bindings) = (do
      declareStatic name
      emitStaticValue pos name (emitExpr value)
      emitStatics bindings) := rfl

theorem emitStmts_cons (stmts : List Stmt) :
    emitStmts (body :: stmts) = (do emitStmt body; emitStmts stmts) := rfl

variable (v : Variable)

theorem emitStmt_assign :
    emitStmt (.assign pos .assign (.var v []) value) =
      (do goTo pos; emitExpr value; emitStore v) := rfl

theorem emitStmt_update {op : AssignOp} {binary : BinaryOp}
    (isBinary : op.binary? = some binary) : emitStmt (.assign pos op (.var v []) value) =
      (do goTo pos; emitUpdate v binary (emitExpr value)) := by
  cases op <;>
    simp only [AssignOp.binary?, Option.some.injEq, reduceCtorEq] at isBinary <;>
    subst isBinary <;> rfl

theorem emitStmt_store {target : Expr} (isPlace : target.isSimpleVariable = false) :
    emitStmt (.assign pos .assign target value) = (do
      goTo pos
      emitExpr value
      discard <| convertTo .variant
      emitPlaceStore target) := by
  cases target with
  | var v indices =>
    cases indices with
    | nil => exact absurd isPlace (by simp [Expr.isSimpleVariable])
    | cons _ _ => rfl
  | _ => rfl

theorem emitStmt_placeUpdate {op : AssignOp} {binary : BinaryOp} {target : Expr}
    (isBinary : op.binary? = some binary) (isPlace : target.isSimpleVariable = false) :
    emitStmt (.assign pos op target value) = (do
      goTo pos
      emitPlaceUpdate binary (emitPlace target) do
        emitExpr value
        convertOperand binary) := by
  cases op <;> simp only [AssignOp.binary?, Option.some.injEq, reduceCtorEq] at isBinary
  all_goals
    subst isBinary
    cases target with
    | var v indices =>
      cases indices with
      | nil => exact absurd isPlace (by simp [Expr.isSimpleVariable])
      | cons _ _ => rfl
    | _ => rfl

theorem emitStmt_step (before increment : Bool) :
    emitStmt (.step pos before increment (.var v [])) =
      (do goTo pos; emitStep v increment) := rfl

theorem emitStmt_placeStep (before increment : Bool) {target : Expr}
    (isPlace : target.isSimpleVariable = false) :
    emitStmt (.step pos before increment target) = (do
      goTo pos
      emitPlaceUpdate (stepOp increment) (emitPlace target) emitStepOne) := by
  cases target with
  | var v indices =>
    cases indices with
    | nil => exact absurd isPlace (by simp [Expr.isSimpleVariable])
    | cons _ _ => rfl
  | _ => rfl

end Statements

end GameScript.Emission
