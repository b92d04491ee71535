import GameScript.Proofs.Emission.Program
import GameScript.Proofs.Recasting.Forms
import GameScript.Proofs.Recasting.Parts
import GameScript.Proofs.Recasting.Rules

/-! Recasts are emitted alike.

The induction is on the recast.  Expressions match whatever loops are open; a statement
asks that the open loops correspond, and a loop in one of its two forms is where they
correspond without being the same. -/

namespace GameScript.Emission

open Bytecode Number Syntax

variable {env : Environment} {loops : LoopRelation}

theorem isSome_of_recast {parent parent' : Option (Callee × List Expr)} :
    RecastParent parent parent' → parent'.isSome = parent.isSome
  | .none => rfl
  | .some _ => rfl

variable {stmt : Stmt} {target target' : Expr}

theorem declaredBy_of_canStart (starts : stmt.canStart = true) : declaredBy stmt = [] := by
  cases stmt <;> first | rfl | cases starts

mutual

theorem declaredBy_of_recast {stmt stmt' : Stmt} :
    RecastStmt stmt stmt' → declaredBy stmt' = declaredBy stmt
  | .block stmts => declaredByAll_of_recast stmts
  | .function (.mk _ _ _) => rfl
  | .expr _ | .assign _ _ | .compound _ _ | .step _ | .locals _ | .globals | .statics _
  | .ifElse _ _ _ | .whileLoop _ _ | .forLoop _ _ _ _ | .doUntil _ _ | .repeatLoop _ _
  | .withLoop _ _ | .switch _ _ | .breakLoop | .continueLoop | .exit
  | .returnValue _ | .throw _
  | .tryBlock _ _ _ | .enumeration | .delete _ | .empty => rfl

theorem declaredByAll_of_recast {stmts stmts' : List Stmt} :
    RecastStmts stmts stmts' → declaredByAll stmts' = declaredByAll stmts
  | .nil => rfl
  | .cons first rest => by
    rw [declaredByAll, declaredByAll, declaredBy_of_recast first,
      declaredByAll_of_recast rest]
  | .loop starts _ _ _ _ _ _ rest => by
    simp only [declaredByAll, declaredBy, declaredBy_of_canStart starts, List.nil_append]
    exact declaredByAll_of_recast rest

end

theorem simple_of_recast (recast : RecastExpr target target') :
    (∃ v pos, target = .var v [] ∧ target' = .var { v with pos } []) ∨
      target.isSimpleVariable = false ∧ target'.isSimpleVariable = false := by
  cases recast with
  | @var v pos indices indices' same =>
    cases same with
    | nil => exact .inl ⟨v, pos, rfl, rfl⟩
    | cons _ _ => exact .inr ⟨rfl, rfl⟩
  | _ => exact .inr ⟨rfl, rfl⟩

theorem emitStmt_assign_matches (p p' : Position) (op : AssignOp) {value value' : Expr}
    (recast : RecastExpr target target') (same : ExprMatches env target target')
    (sameValue : Matches env loops loops (emitExpr value) (emitExpr value')) :
    Matches env loops loops (emitStmt (.assign p op target value))
      (emitStmt (.assign p' op target' value')) := by
  cases isBinary : op.binary? with
  | some binary =>
    obtain ⟨v, pos, rfl, rfl⟩ | ⟨isPlace, isPlace'⟩ := simple_of_recast recast
    · rw [emitStmt_update _ _ _ isBinary, emitStmt_update _ _ _ isBinary]
      exact (goTo_matches _ _).bind fun _ => emitUpdate_matches v pos binary sameValue
    · rw [emitStmt_placeUpdate _ _ isBinary isPlace,
        emitStmt_placeUpdate _ _ isBinary isPlace']
      exact (goTo_matches _ _).bind fun _ =>
        emitPlaceUpdate_matches binary (same.place loops)
        (sameValue.bind fun _ => convertOperand_matches _)
  | none =>
    cases op with
    | assign =>
      obtain ⟨v, pos, rfl, rfl⟩ | ⟨isPlace, isPlace'⟩ := simple_of_recast recast
      · exact (goTo_matches _ _).bind fun _ => sameValue.bind fun _ =>
          emitStore_matches v pos
      · rw [emitStmt_store _ _ isPlace, emitStmt_store _ _ isPlace']
        exact (goTo_matches _ _).bind fun _ => sameValue.bind fun _ =>
          (convertTo_matches _).discard.bind fun _ => same.store loops
    | coalesce => exact (goTo_matches _ _).bind fun _ => fun _ _ _ => trivial
    | _ => cases isBinary

theorem emitStmt_step_matches (p p' : Position) (before increment : Bool)
    (recast : RecastExpr target target') (same : ExprMatches env target target') :
    Matches env loops loops (emitStmt (.step p before increment target))
      (emitStmt (.step p' before increment target')) := by
  obtain ⟨v, pos, rfl, rfl⟩ | ⟨isPlace, isPlace'⟩ := simple_of_recast recast
  · exact (goTo_matches _ _).bind fun _ => emitStep_matches v pos increment
  · rw [emitStmt_placeStep _ _ _ isPlace, emitStmt_placeStep _ _ _ isPlace']
    exact (goTo_matches _ _).bind fun _ =>
      emitPlaceUpdate_matches _ (same.place loops) emitStepOne_matches

theorem emitExpr_step_matches (p p' : Position) (before increment : Bool)
    (recast : RecastExpr target target') :
    Matches env loops loops (emitExpr (.step p before increment target))
      (emitExpr (.step p' before increment target')) := by
  cases recast with
  | @var v pos indices indices' same =>
    cases same with
    | nil =>
      exact (goTo_matches _ _).bind fun _ => emitStepValue_matches v pos before increment
    | cons _ _ => exact (goTo_matches _ _).bind fun _ => .unsupported _ _
  | _ => exact (goTo_matches _ _).bind fun _ => .unsupported _ _

theorem emitStmt_compound_matches (p p' q r r' : Position) {op : AssignOp}
    {binary : BinaryOp} (v : Variable) {value value' : Expr}
    (isBinary : op.binary? = some binary)
    (sameValue : Matches env loops loops (emitExpr value) (emitExpr value')) :
    Matches env loops loops
      (emitStmt
        (.assign p .assign (.var v [])
          (.binary q binary [.var { v with pos := r } [], value])))
      (emitStmt (.assign p' op (.var { v with pos := r' } []) value')) := by
  have strict : BinaryOp.isLazy env.target binary = false := by
    cases op <;> cases isBinary <;> rfl
  rw [emitStmt_update _ _ _ isBinary, emitStmt_assign, emitExpr_binary]
  simp only [emitChain, emitUpdate, bind_assoc]
  refine (goTo_matches p p').bind fun _ => goTo_left q ?_
  refine (emitName_matches { v with pos := r } r').bind fun _ => Relates.read_left ?_
  change Matches env loops loops _ _
  simp only [strict, Bool.false_eq_true, if_false, emitOperands_cons, bind_assoc]
  refine (convertOperand_matches _).bind fun _ => sameValue.bind fun _ => ?_
  refine (convertOperand_matches _).bind fun _ => (applyBinary_matches _).bind fun _ => ?_
  exact emitStore_matches v r'

/-- The loops bear a statement that continues one of them or does not. -/
def Bears (loops : LoopRelation) (continues : Bool) : Prop :=
  LeftAlike loops ∧ (ContinuedAlike loops ∨ continues = false)

namespace Bears

variable {continues : Bool}

theorem mono {other : Bool} (bears : Bears loops continues)
    (implies : continues = false → other = false) : Bears loops other :=
  ⟨bears.1, bears.2.imp_right implies⟩

theorem left {other : Bool} (bears : Bears loops (continues || other)) :
    Bears loops continues :=
  bears.mono fun neither => (Bool.or_eq_false_iff.mp neither).1

theorem right {other : Bool} (bears : Bears loops (continues || other)) :
    Bears loops other :=
  bears.mono fun neither => (Bool.or_eq_false_iff.mp neither).2

theorem inside (bears : Bears loops continues) (kind : LoopKind)
    (isLoop : ∀ type, kind ≠ .switch type) (target : Option Nat) (other : Bool) :
    Bears (Inside kind target loops) other :=
  ⟨bears.1.inside kind target, .inl (.inside isLoop target)⟩

theorem inside_switch (bears : Bears loops continues) (type : DataType) :
    Bears (Inside (.switch type) none loops) continues :=
  ⟨bears.1.inside _ _, bears.2.imp_left (·.inside_switch type none)⟩

theorem noLoops (continues : Bool) : Bears NoLoops continues :=
  ⟨NoLoops.leftAlike, .inl NoLoops.continuedAlike⟩

end Bears

/-- What is asked of the open loops for a statement: nothing for one that cannot leave
them. -/
def Allows (loops : LoopRelation) (stmt : Stmt) : Prop :=
  stmt.canStep = true ∨ Bears loops stmt.continues

theorem Allows.bears (allows : Allows loops stmt) (other : stmt.canStep = false) :
    Bears loops stmt.continues :=
  allows.resolve_left (by simp [other])

theorem emitStmts_nil : emitStmts [] = pure () := rfl

theorem emitStmts_append (stmts others : List Stmt) :
    emitStmts (stmts ++ others) = (do emitStmts stmts; emitStmts others) := by
  induction stmts with
  | nil => rfl
  | cons stmt rest induction =>
    rw [List.cons_append, emitStmts_cons, emitStmts_cons, induction, bind_assoc]

theorem canStep_of_canStart (starts : stmt.canStart = true) : stmt.canStep = true := by
  cases stmt <;> first | rfl | cases starts

section Forms

variable (p q r t : Position) (init step : Stmt) (condition : Expr)
  (front body rest : List Stmt)

theorem emitStmts_loop :
    emitStmts (init :: .whileLoop p condition (.block ⟨q, body ++ [step]⟩) :: rest) = (do
      emitStmt init
      goTo p
      emitWhile (emitExpr condition) (do
        (do goTo q; emitStmts body)
        emitStmt step)
      emitStmts rest) := by
  simp only [emitStmts_cons, emitStmt_whileLoop, emitStmt_block, emitStmts_append,
    emitStmts_nil, bind_assoc, bind_pure_unit]

theorem emitStmts_for :
    emitStmts (.forLoop p (some init) (some condition) (some step)
      (.block ⟨q, body⟩) :: rest) = (do
      goTo p
      emitStmt init
      emitFor (emitForCondition (some (emitExpr condition))) (emitStmt step)
        (do goTo q; emitStmts body)
      emitStmts rest) := by
  simp only [emitStmts_cons, emitStmt_forLoop, emitStmt_block, emitOptional,
    emitOptionalCondition, bind_assoc]

theorem emitStmt_elseBody :
    emitStmt (.block ⟨p, front ++
        [.ifElse q condition (.block ⟨r, []⟩) (some (.block ⟨t, rest⟩))]⟩) = (do
      goTo p
      emitStmts front
      goTo q
      emitIfElse (emitExpr condition) (goTo r) (do goTo t; emitStmts rest)) := by
  simp only [emitStmt_block, emitStmts_append, emitStmts_cons, emitStmt_ifElse,
    emitStmts_nil, bind_assoc, bind_pure_unit]

theorem emitStmt_continueBody :
    emitStmt (.block ⟨p, front ++
        .ifElse q condition (.block ⟨r, [.continueLoop t]⟩) none :: rest⟩) = (do
      goTo p
      emitStmts front
      goTo q
      emitIf (emitExpr condition) (do goTo r; goTo t; emitContinue)
      emitStmts rest) := by
  simp only [emitStmt_block, emitStmts_append, emitStmts_cons, emitStmt_if,
    emitStmt_continueLoop, emitStmts_nil, bind_assoc, bind_pure_unit]

end Forms

mutual

theorem exprMatches_of_recast {expr expr' : Expr} :
    RecastExpr expr expr' → ExprMatches env expr expr'
  | .literal =>
    .of_value rfl rfl fun _ => (goTo_matches _ _).bind fun _ => emitLiteral_matches _
  | .var indices => .var (exprsMatch_of_recast indices) _ _
  | .member object indices =>
    .member (exprsMatch_of_recast indices) _ _ _ _ (exprMatches_of_recast object)
  | .call args => .of_value rfl rfl fun loops => by
    have same := exprsMatch_of_recast args
    rw [emitExpr_call, emitExpr_call, same.length_eq]
    exact emitFunctionCall_matches _ _ _ (emitArguments_matches same loops)
  | .methodCall object args => .of_value rfl rfl fun loops => by
    have same := exprsMatch_of_recast args
    rw [emitExpr_methodCall, emitExpr_methodCall, same.length_eq]
    exact emitMethodCall_matches _ _ _ _ _ (emitArguments_matches same loops)
      ((exprMatches_of_recast object).value loops)
  | .construct args => .of_value rfl rfl fun loops => by
    have same := exprsMatch_of_recast args
    rw [emitExpr_construct, emitExpr_construct, same.length_eq]
    exact emitConstruct_matches _ _ _ (emitArguments_matches same loops)
  | .binary .nil => .of_value rfl rfl fun _ => (goTo_matches _ _).bind fun _ => .fail _ _
  | .binary (.cons first rest) => .of_value rfl rfl fun loops =>
    have same := exprsMatch_of_recast rest
    (goTo_matches _ _).bind fun _ =>
      emitChain_matches _ ((exprMatches_of_recast first).value loops)
        (emitLazyOperands_matches same loops _) (emitOperands_matches same loops _)
  | .unary operand => .of_value rfl rfl fun loops =>
    (goTo_matches _ _).bind fun _ =>
      emitUnary_matches _ ((exprMatches_of_recast operand).value loops)
  | .step target => .of_value rfl rfl fun _ => emitExpr_step_matches _ _ _ _ target
  | .conditional condition yes no => .of_value rfl rfl fun loops =>
    (goTo_matches _ _).bind fun _ =>
      emitConditional_matches ((exprMatches_of_recast condition).value loops)
        ((exprMatches_of_recast yes).value loops) ((exprMatches_of_recast no).value loops)
  | .coalesce _ _ =>
    .of_value rfl rfl fun _ => (goTo_matches _ _).bind fun _ => .unsupported _ _
  | .array elements => .of_value rfl rfl fun loops => by
    have same := exprsMatch_of_recast elements
    rw [emitExpr_array, emitExpr_array, same.length_eq]
    exact (goTo_matches _ _).bind fun _ =>
      emitArray_matches _ (emitArguments_matches same loops)
  | .struct fields => .of_value rfl rfl fun loops => by
    have same := fieldsMatch_of_recast fields
    rw [emitExpr_struct, emitExpr_struct, fieldNames_eq same]
    exact (goTo_matches _ _).bind fun _ =>
      emitStruct_matches _ (emitFieldValues_matches same loops)
  | .function decl => .of_value rfl rfl fun loops =>
    (goTo_matches _ _).bind fun _ => (emitFunction_matches decl loops).bind fun _ =>
      (emitBind_matches _ _).bind fun _ => pushType_matches _

theorem exprsMatch_of_recast {exprs exprs' : List Expr} :
    RecastExprs exprs exprs' → List.Forall₂ (ExprMatches env) exprs exprs'
  | .nil => .nil
  | .cons first rest => .cons (exprMatches_of_recast first) (exprsMatch_of_recast rest)

theorem optionalMatches_of_recast {value value' : Option Expr} :
    RecastOptional value value' → Option.Rel (ExprMatches env) value value'
  | .none => .none
  | .some value => .some (exprMatches_of_recast value)

theorem fieldsMatch_of_recast {fields fields' : List (String × Expr)} :
    RecastFields fields fields' → List.Forall₂ (FieldMatches env) fields fields'
  | .nil => .nil
  | .cons value rest =>
    .cons ⟨rfl, exprMatches_of_recast value⟩ (fieldsMatch_of_recast rest)

theorem bindingsMatch_of_recast {bindings bindings' : List (Binding Expr)} :
    RecastBindings bindings bindings' →
    List.Forall₂ (BindingMatches env) bindings bindings'
  | .nil => .nil
  | .cons value rest =>
    .cons ⟨rfl, optionalMatches_of_recast value⟩ (bindingsMatch_of_recast rest)

theorem emitFunction_matches {decl decl' : FunctionDecl} :
    RecastFunction decl decl' →
      ∀ loops, Matches env loops loops (emitFunction decl) (emitFunction decl')
  | .mk params parent stmts, loops => by
    have sameParams := bindingsMatch_of_recast params
    have sameParent := isSome_of_recast parent
    rw [emitFunction_eq, emitFunction_eq, bindingNames_eq sameParams,
      anyValue_eq sameParams, sameParent, declaredByAll_of_recast stmts]
    refine (goTo_matches _ _).bind fun _ => .read (.guarded (.guarded (.guarded ?_)))
    exact emitFunctionBody_matches _ _ _ _ (emitStmts_matches stmts NoLoops (.noLoops _))

theorem emitStmt_matches {stmt stmt' : Stmt} :
    RecastStmt stmt stmt' →
      ∀ loops, Allows loops stmt → Matches env loops loops (emitStmt stmt) (emitStmt stmt')
  | .expr value, loops, _ =>
    (goTo_matches _ _).bind fun _ =>
    ((exprMatches_of_recast value).value loops).bind fun _ =>
      emitDiscard_matches
  | .assign target value, loops, _ =>
    emitStmt_assign_matches _ _ _ target (exprMatches_of_recast target)
      ((exprMatches_of_recast value).value loops)
  | .compound isBinary value, loops, _ =>
    emitStmt_compound_matches _ _ _ _ _ _ isBinary
      ((exprMatches_of_recast value).value loops)
  | .step target, loops, _ =>
    emitStmt_step_matches _ _ _ _ target (exprMatches_of_recast target)
  | .locals bindings, loops, _ =>
    (goTo_matches _ _).bind fun _ =>
      emitLocals_matches (bindingsMatch_of_recast bindings) loops
  | .globals, _, _ =>
    (goTo_matches _ _).bind fun _ =>
      modify_matches fun _ opened pos related => ⟨opened, pos, rfl, related⟩
  | .statics bindings, loops, _ =>
    (goTo_matches _ _).bind fun _ => emitStaticBlock_matches
      (emitStatics_matches (bindingsMatch_of_recast bindings) loops)
  | .block stmts, loops, allows =>
    (goTo_matches _ _).bind fun _ => emitStmts_matches stmts loops (allows.bears rfl)
  | .ifElse condition yes .none, loops, allows =>
    (goTo_matches _ _).bind fun _ =>
      emitIf_matches ((exprMatches_of_recast condition).value loops)
      (emitStmt_matches yes loops (.inr (allows.bears rfl).left))
  | .ifElse condition yes (.some no), loops, allows =>
    (goTo_matches _ _).bind fun _ =>
      emitIfElse_matches ((exprMatches_of_recast condition).value loops)
      (emitStmt_matches yes loops (.inr (allows.bears rfl).left))
      (emitStmt_matches no loops (.inr (allows.bears rfl).right))
  | .whileLoop condition body, loops, allows =>
    (goTo_matches _ _).bind fun _ =>
      emitWhile_matches ((exprMatches_of_recast condition).value loops)
      fun _ => emitStmt_matches body _ (.inr ((allows.bears rfl).inside .plain nofun _ _))
  | .forLoop init condition step body, loops, allows => by
    rw [emitStmt_forLoop, emitStmt_forLoop]
    have bears := allows.bears rfl
    exact (goTo_matches _ _).bind fun _ =>
      (emitOptional_matches init loops bears.left).bind fun _ =>
      emitFor_matches
        (emitOptionalCondition_matches (optionalMatches_of_recast condition) loops)
        (emitOptional_matches step loops bears.right)
        (emitBody_matches body .plain nofun loops bears.1)
  | .doUntil body condition, loops, allows =>
    (goTo_matches _ _).bind fun _ =>
      emitDoUntil_matches ((exprMatches_of_recast condition).value loops)
      (emitBody_matches body .plain nofun loops (allows.bears rfl).1)
  | .repeatLoop count body, loops, allows =>
    (goTo_matches _ _).bind fun _ =>
      emitRepeat_matches ((exprMatches_of_recast count).value loops)
      (emitBody_matches body .repeatLoop nofun loops (allows.bears rfl).1)
  | .withLoop target body, loops, allows =>
    (goTo_matches _ _).bind fun _ =>
      emitWith_matches ((exprMatches_of_recast target).value loops)
      (emitStmt_matches body _ (.inr ((allows.bears rfl).inside .withLoop nofun _ _)))
  | .switch value arms, loops, allows =>
    (goTo_matches _ _).bind fun _ =>
      emitSwitch_matches ((exprMatches_of_recast value).value loops)
      (fun type => emitTests_matches type arms loops)
      fun type jumps fallback =>
        emitArms_matches jumps fallback arms _ ((allows.bears rfl).inside_switch type)
  | .breakLoop, _, allows =>
    (goTo_matches _ _).bind fun _ => emitBreak_matches (allows.bears rfl).1
  | .continueLoop, _, allows =>
    (goTo_matches _ _).bind fun _ =>
      emitContinue_matches ((allows.bears rfl).2.resolve_right nofun)
  | .exit, _, allows =>
    (goTo_matches _ _).bind fun _ => emitExit_matches (allows.bears rfl).1
  | .returnValue .none, _, allows =>
    (goTo_matches _ _).bind fun _ => emitExit_matches (allows.bears rfl).1
  | .returnValue (.some value), loops, allows =>
    (goTo_matches _ _).bind fun _ =>
      ((exprMatches_of_recast value).value loops).bind fun _ =>
      (convertTo_matches _).discard.bind fun _ => emitReturn_matches (allows.bears rfl).1
  | .throw value, loops, _ =>
    (goTo_matches _ _).bind fun _ =>
      ((exprMatches_of_recast value).value loops).bind fun _ =>
      (convertTo_matches _).discard.bind fun _ => emitCallDiscard_matches _ _
  | .tryBlock stmts .none cleanup, loops, allows => by
    rw [emitStmt_try, emitStmt_try]
    have bears := allows.bears rfl
    exact (goTo_matches _ _).bind fun _ =>
      emitTry_matches _ (emitStmts_matches stmts loops bears.left.left) (fun _ => .pure _)
        (emitOptionalBlock_matches cleanup loops bears.right)
  | .tryBlock stmts (.some handler) cleanup, loops, allows => by
    rw [emitStmt_handledTry, emitStmt_handledTry]
    have bears := allows.bears rfl
    exact (goTo_matches _ _).bind fun _ =>
      emitTry_matches _ (emitStmts_matches stmts loops bears.left.left)
        (fun _ =>
          emitHandler_matches _ _ (emitStmts_matches handler loops bears.left.right))
        (emitOptionalBlock_matches cleanup loops bears.right)
  | .function decl, loops, _ =>
    (goTo_matches _ _).bind fun _ => (emitFunction_matches decl loops).bind fun _ =>
      (emitBind_matches _ _).bind fun _ => emitPopVariable_matches _ _ _
  | .enumeration, _, _ => goTo_matches _ _
  | .delete _, _, _ => (goTo_matches _ _).bind fun _ => .unsupported _ _
  | .empty, _, _ => goTo_matches _ _

theorem emitOptional_matches {stmt stmt' : Option Stmt} :
    RecastOptionalStmt stmt stmt' → ∀ loops, Bears loops (continuesOptional stmt) →
      Matches env loops loops (emitOptional stmt) (emitOptional stmt')
  | .none, _, _ => .pure _
  | .some stmt, loops, bears => emitStmt_matches stmt loops (.inr bears)

theorem emitOptionalBlock_matches {cleanup cleanup' : Option (Block Stmt)} :
    RecastCleanup cleanup cleanup' → ∀ loops, Bears loops (continuesCleanup cleanup) →
      Matches env loops loops (emitOptionalBlock cleanup) (emitOptionalBlock cleanup')
  | .none, _, _ => .pure _
  | .some stmts, loops, bears => emitStmts_matches stmts loops bears

theorem emitStmts_matches {stmts stmts' : List Stmt} :
    RecastStmts stmts stmts' → ∀ loops, Bears loops (continuesAny stmts) →
      Matches env loops loops (emitStmts stmts) (emitStmts stmts')
  | .nil, _, _ => .pure _
  | .cons first rest, loops, bears =>
    (emitStmt_matches first loops (.inr bears.left)).bind fun _ =>
      emitStmts_matches rest loops bears.right
  | .loop starts steps unwaited init condition step body rest, loops, bears => by
    rw [emitStmts_loop, emitStmts_for]
    refine goTo_right _
      ((emitStmt_matches init loops (.inl (canStep_of_canStart starts))).bind
      fun _ => goTo_left _ ?_)
    have enclosed : ∀ head, Bears (Unwaited head loops) (continuesAny _) := fun head =>
      ⟨Unwaited.leftAlike bears.1 head, .inr unwaited⟩
    refine (emitWhile_matches_emitFor ((exprMatches_of_recast condition).value loops)
      (fun head => ?_) fun loops => emitStmt_matches step loops (.inl steps)).bind fun _ =>
        emitStmts_matches rest loops bears.right.right
    exact (goTo_matches _ _).bind fun _ => emitStmts_matches body _ (enclosed head)

theorem emitBody_matches {body body' : Stmt} :
    RecastBody body body' → ∀ kind, (∀ type, kind ≠ .switch type) →
    ∀ loops, LeftAlike loops →
      Matches env loops loops (emitEnclosed kind (emitStmt body))
        (emitEnclosed kind (emitStmt body'))
  | .same body, kind, isLoop, loops, alike =>
    emitEnclosed_matches kind (emitStmt_matches body _
      (.inr ⟨alike.inside kind none, .inl (.inside isLoop none)⟩))
  | .skip front condition rest, kind, isLoop, loops, alike => by
    have inner : ∀ flag, Bears (Inside kind none loops) flag := fun _ =>
      ⟨alike.inside kind none, .inl (.inside isLoop none)⟩
    rw [emitStmt_elseBody, emitStmt_continueBody]
    exact emitEnclosed_skip_matches isLoop _ _ _ _ _ _ _ _
      (emitStmts_matches front _ (inner _))
      ((exprMatches_of_recast condition).value _) fun site => emitStmts_matches rest _
        ⟨Waited.leftAlike alike kind site, .inl (Waited.continuedAlike isLoop site)⟩

theorem emitTests_matches (type : DataType) {arms arms' : List SwitchArm} :
    RecastArms arms arms' →
      ∀ loops, Matches env loops loops (emitTests type arms) (emitTests type arms')
  | .nil, _ => .pure _
  | .cons .none _ rest, loops =>
    (emitTests_matches type rest loops).bind fun _ => .pure _
  | .cons (.some label) _ rest, loops =>
    (emitTest_matches type ((exprMatches_of_recast label).value loops)).bind fun _ =>
      (emitTests_matches type rest loops).bind fun _ => .pure _

theorem emitArms_matches (jumps : List ForwardPatch) (fallback : ForwardPatch)
    {arms arms' : List SwitchArm} :
    RecastArms arms arms' → ∀ loops, Bears loops (continuesArms arms) →
      Matches env loops loops (emitArms jumps fallback arms)
        (emitArms jumps fallback arms')
  | .nil, _, _ => .pure _
  | .cons .none stmts rest, loops, bears =>
    (emitArm_matches _ _ _ (emitStmts_matches stmts loops bears.left)).bind fun _ =>
      emitArms_matches _ _ rest loops bears.right
  | .cons (.some _) stmts rest, loops, bears =>
    (emitArm_matches _ _ _ (emitStmts_matches stmts loops bears.left)).bind fun _ =>
      emitArms_matches _ _ rest loops bears.right

end

theorem finishEntry_matches : Matches env loops loops finishEntry finishEntry :=
  get_matches fun _ _ _ _ => .read (.ite (.pure _) (.fail _ _))

theorem programRun_matches {program recast : Program} (form : RecastStmts program recast) :
    Matches env NoLoops NoLoops (programRun program) (programRun recast) := by
  have samePredeclared :
      Matches env NoLoops NoLoops (predeclare program) (predeclare recast) := by
    rw [predeclare, predeclare, declaredByAll_of_recast form]
    exact modify_matches fun _ opened pos related => ⟨opened, pos, rfl, related⟩
  exact samePredeclared.bind fun _ =>
    (emitStmts_matches form NoLoops (.noLoops _)).bind fun _ => finishEntry_matches

/-- Whichever form a program is written in, it becomes the same entry or none. -/
theorem recast_program_emits_same (env : Environment) {program recast : Program}
    (form : RecastStmts program recast) (entry : PendingEntry) :
    emitProgram env program = .ok entry ↔ emitProgram env recast = .ok entry := by
  have same : Matches env NoLoops NoLoops (programRun program) (programRun recast) :=
    programRun_matches form
  have ran := same {} {} ⟨[], _, rfl, rfl, rfl⟩
  rw [emitProgram_eq, emitProgram_eq]
  cases leftRan : ((programRun program).run env).run {} with
  | ok result =>
    cases rightRan : ((programRun recast).run env).run {} with
    | ok other =>
      simp only [leftRan, rightRan] at ran
      exact Eq.to_iff (congrArg (Except.ok · = Except.ok entry) ran.1)
    | error _ => simp [leftRan, rightRan] at ran
  | error _ =>
    cases rightRan : ((programRun recast).run env).run {} with
    | ok _ => simp [leftRan, rightRan] at ran
    | error _ => exact ⟨nofun, nofun⟩

section Witness

def bareName (name : String) : Expr := .var { pos := 0, name } []

/-- `function f() { x = y; while (x) { repeat (x) { x = x + y; if (x) { } else break; }
x++; } }`. -/
def longForms : Program :=
  [.function (.mk 0 (some "f") [] false none ⟨0,
    [.assign 0 .assign (bareName "x") (bareName "y"),
      .whileLoop 0 (bareName "x") (.block ⟨0,
        [.repeatLoop 0 (bareName "x") (.block ⟨0,
          [.assign 0 .assign (bareName "x") (.binary 0 .add [bareName "x", bareName "y"]),
            .ifElse 0 (bareName "x") (.block ⟨0, []⟩)
              (some (.block ⟨0, [.breakLoop 0]⟩))]⟩),
          .step 0 false true (bareName "x")]⟩)]⟩)]

/-- `function f() { for (x = y; x; x++) { repeat (x) { x += y; if (x) { continue; } break;
} } }`. -/
def shortForms : Program :=
  [.function (.mk 0 (some "f") [] false none ⟨0,
    [.forLoop 0 (some (.assign 0 .assign (bareName "x") (bareName "y")))
      (some (bareName "x")) (some (.step 0 false true (bareName "x"))) (.block ⟨0,
        [.repeatLoop 0 (bareName "x") (.block ⟨0,
          [.assign 0 .add (bareName "x") (bareName "y"),
            .ifElse 0 (bareName "x") (.block ⟨0, [.continueLoop 0]⟩) none,
            .breakLoop 0]⟩)]⟩)]⟩)]

theorem recast_longForms : RecastStmts longForms shortForms :=
  .cons (.function (.mk .nil .none
    (.loop rfl rfl rfl (.refl _) (.refl _) (.refl _)
      (.cons (.repeatLoop (.refl _)
        (.skip (.cons (.compound rfl (.refl _)) .nil) (.refl _) (.cons .breakLoop .nil)))
          .nil)
      .nil))) .nil

theorem longForms_emit_same :
    ∃ entry, emitProgram bareEnvironment longForms = .ok entry ∧
      emitProgram bareEnvironment shortForms = .ok entry := by
  have addressable :
      endsWith isAddressable (emitProgram bareEnvironment longForms) = true := by
    decide +kernel
  obtain ⟨entry, emitted, -⟩ := exists_of_endsWith addressable
  exact ⟨entry, emitted, (recast_program_emits_same _ recast_longForms entry).mp emitted⟩

end Witness

end GameScript.Emission
