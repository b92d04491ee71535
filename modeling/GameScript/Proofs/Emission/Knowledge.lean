import GameScript.Proofs.Emission.Equations
import GameScript.Proofs.Indifference
import Mathlib.Tactic.CasesM

/-! What emission knows of the other entries of its session.

An entry is emitted for the functions that its session knows, and it asks for nothing
but whether a name is among them. -/

namespace GameScript.Emission

open Builtin Bytecode Syntax

/-- The session knows the given functions, in whatever order. -/
def Environment.Knows (env : Environment) (functions : Roster String) : Prop :=
  ∀ name, env.functions.contains name = functions.contains name

/-- The action runs the same when the session knows the given functions instead. -/
abbrev Uniform (env : Environment) (functions : Roster String) (action : EmitM α) : Prop :=
  Indifferent env { env with functions } action

variable {env : Environment} {functions : Roster String}

/-! Types and single instructions. -/

theorem popType_uniform : Uniform env functions popType := by
  refine .bind rfl fun s => ?_
  cases s.types with
  | nil => rfl
  | cons _ _ => rfl

theorem peekType_uniform : Uniform env functions peekType := by
  refine .bind rfl fun s => ?_
  cases s.types with
  | nil => rfl
  | cons _ _ => rfl

theorem convertTo_uniform (wanted : DataType) : Uniform env functions (convertTo wanted) :=
  popType_uniform.bind fun _ => .ite rfl rfl

theorem convertToInstance_uniform : Uniform env functions convertToInstance :=
  .read rfl (peekType_uniform.bind fun _ =>
    .ite (popType_uniform.discard.bind fun _ => rfl) (convertTo_uniform .int32).discard)

theorem coerceTop_uniform (wanted : DataType) : Uniform env functions (coerceTop wanted) :=
  peekType_uniform.bind fun _ =>
    .ite ((convertTo_uniform wanted).discard.bind fun _ => rfl) rfl

theorem convertOperand_uniform (op : BinaryOp) :
    Uniform env functions (convertOperand op) :=
  peekType_uniform.bind fun _ => coerceTop_uniform _

theorem applyBinary_uniform (op : BinaryOp) : Uniform env functions (applyBinary op) := by
  refine popType_uniform.bind fun _ => popType_uniform.bind fun _ => ?_
  cases op.comparison? with
  | none => rfl
  | some _ => rfl

theorem emitDiscard_uniform : Uniform env functions emitDiscard :=
  popType_uniform.bind fun _ => rfl

theorem emitCall_uniform (name : String) (count : Nat) :
    Uniform env functions (emitCall name count) :=
  .ite rfl rfl

theorem emitCallDiscard_uniform (name : String) (count : Nat) :
    Uniform env functions (emitCallDiscard name count) :=
  (emitCall_uniform name count).bind fun _ => rfl

theorem emitCallValue_uniform (count : Nat) :
    Uniform env functions (emitCallValue count) :=
  .ite rfl rfl

theorem emitInteger_uniform (value : Int) : Uniform env functions (emitInteger value) :=
  .ite rfl (.ite rfl rfl)

theorem emitLiteral_uniform (value : Literal) :
    Uniform env functions (emitLiteral value) := by
  cases value with
  | number value =>
    rw [emitLiteral]
    cases integerOf? value with
    | none => rfl
    | some n => exact emitInteger_uniform n
  | _ => rfl

theorem emitStore_uniform (v : Variable) : Uniform env functions (emitStore v) :=
  popType_uniform.bind fun _ => rfl

theorem emitStep_uniform (v : Variable) (increment : Bool) :
    Uniform env functions (emitStep v increment) :=
  .bind rfl fun _ => .bind rfl fun _ => .bind rfl fun _ => .bind rfl fun _ =>
    (applyBinary_uniform _).bind fun _ => emitStore_uniform v

theorem emitStepValue_uniform (v : Variable) (before increment : Bool) :
    Uniform env functions (emitStepValue v before increment) := by
  cases before <;> rfl

theorem emitBind_uniform (function : String) (owner : Instance) :
    Uniform env functions (emitBind function owner) :=
  .bind rfl fun _ => .bind rfl fun _ => .bind rfl fun _ => .bind rfl fun _ =>
    emitCall_uniform _ _

theorem knowsFunction_uniform (knows : env.Knows functions) (name : String) :
    Uniform env functions (knowsFunction name) := by
  have answers (s : Emitter) :
      s.knowsFunction env name = s.knowsFunction { env with functions } name := by
    simp only [Emitter.knowsFunction, knows name]
  funext s
  exact congrArg (fun known => Except.ok (known, s)) (answers s)

theorem emitName_uniform (knows : env.Knows functions) (v : Variable) :
    Uniform env functions (emitName v) := by
  have names : Uniform env functions (namesFunction v) :=
    .ite rfl (.bind rfl fun _ => (knowsFunction_uniform knows v.name).bind fun _ => rfl)
  exact .bind rfl fun _ => names.bind fun _ => .ite rfl rfl

theorem checkArity_uniform (callee : Callee) (supplied : Nat) :
    Uniform env functions (checkArity callee supplied) := by
  unfold checkArity
  split
  · exact .ite rfl rfl
  · rfl

theorem emitCallee_uniform (knows : env.Knows functions) (callee : Callee)
    (count : Nat) : Uniform env functions (emitCallee callee count) :=
  (knowsFunction_uniform knows callee.name).bind fun _ => .bind rfl fun _ =>
    .ite (emitCall_uniform _ _)
      (.read rfl
        (.ite
          ((emitCall_uniform _ _).bind fun _ => .bind rfl fun _ =>
            emitCallValue_uniform count)
          (.ite (emitCall_uniform _ _) rfl)))

theorem emitDiscards_uniform (types : List DataType) :
    Uniform env functions (emitDiscards types) := by
  induction types with
  | nil => rfl
  | cons type rest induction => exact .bind rfl fun _ => induction

theorem emitUnwinding_uniform (loops : List LoopContext) :
    Uniform env functions (emitUnwinding loops) := by
  induction loops with
  | nil => rfl
  | cons context outer induction =>
    rw [emitUnwinding]
    cases context.kind with
    | plain => exact induction
    | _ => exact .bind rfl fun _ => induction

theorem emitBreak_uniform : Uniform env functions emitBreak := by
  refine .bind rfl fun s => ?_
  cases s.loops <;> rfl

theorem emitContinue_uniform : Uniform env functions emitContinue := by
  refine .bind rfl fun s => ?_
  cases continueLoop? s.loops with
  | none => rfl
  | some found =>
    refine (emitDiscards_uniform found.1).bind fun _ => ?_
    cases found.2.continueTarget <;> rfl

theorem emitExit_uniform : Uniform env functions emitExit :=
  .bind rfl fun s => (emitUnwinding_uniform s.loops).bind fun _ => rfl

theorem emitReturn_uniform : Uniform env functions emitReturn :=
  .bind rfl fun s => .ite
    (.bind rfl fun _ => (emitUnwinding_uniform s.loops).bind fun _ =>
      .bind rfl fun _ => rfl) rfl

theorem popLoop_uniform : Uniform env functions popLoop := by
  refine .bind rfl fun s => ?_
  cases s.loops <;> rfl

theorem emitFieldStores_uniform (index : Nat) (fields : List String) :
    Uniform env functions (emitFieldStores index fields) := by
  induction fields generalizing index with
  | nil => rfl
  | cons field rest induction =>
    exact .bind rfl fun _ => .bind rfl fun _ => induction (index + 1)

theorem functionName_uniform (name : Option String) :
    Uniform env functions (functionName name) := by
  cases name <;> rfl

theorem emitStmts_uniform (knows : env.Knows functions) :
    ∀ stmts, Uniform env functions (emitStmts stmts) := by
  apply emitStmts.induct (fun expr => Uniform env functions (emitExpr expr))
    (fun decl => Uniform env functions (emitFunction decl))
    (fun stmts => Uniform env functions (emitStmts stmts))
    (fun stmt => Uniform env functions (emitStmt stmt))
    (fun jumps fallback arms => Uniform env functions (emitArms jumps fallback arms))
    (fun type arms => Uniform env functions (emitTests type arms))
    (fun bindings => Uniform env functions (emitStatics bindings))
    (fun bindings => Uniform env functions (emitLocals bindings))
    (fun target => Uniform env functions (emitPlace target))
    (fun indices => Uniform env functions (emitFirstIndex indices))
    (fun target => Uniform env functions (emitPlaceStore target))
    (fun final indices => Uniform env functions (emitTailIndices final indices))
    (fun final indices => Uniform env functions (emitInnerIndices final indices))
    (fun fields => Uniform env functions (emitFieldValues fields))
    (fun op operands => Uniform env functions (emitOperands op operands))
    (fun skip operands => Uniform env functions (emitLazyOperands skip operands))
    (fun args => Uniform env functions (emitArguments args))
  all_goals intros
  -- What is not assignable fails, whatever it is.
  case case19 | case23 =>
    rename_i target noVariable noMember _
    cases target <;>
      first | rfl | exact (noVariable _ _ rfl).elim | exact (noMember _ _ _ _ rfl).elim
  case case52 =>
    rename_i tail notOne notTwo first
    rcases tail with _ | ⟨second, _ | _⟩
    · exact (notOne rfl).elim
    · exact (notTwo _ rfl).elim
    · exact .read rfl (.guarded rfl (first.bind fun _ => (convertTo_uniform _).discard))
  -- The parts of a node are known by the node; those that may be missing are told apart.
  all_goals try (rename_i ih; split at ih)
  all_goals
    try casesm* Option Expr, Option Stmt, Option (Block Stmt), Option (_ × _), _ × Block _,
      _ ∧ _
  all_goals
    try simp only [emitExpr_literal, emitExpr_var, emitExpr_member, emitExpr_call,
      emitExpr_methodCall, emitExpr_construct, emitExpr_binary, emitExpr_unary,
      emitExpr_conditional, emitExpr_array, emitExpr_struct, emitExpr_function,
      emitFunction_eq, emitArguments_cons, emitFieldValues_cons, emitOperands_cons,
      emitLazyOperands_cons, emitFirstIndex_one, emitFirstIndex_pair,
      emitInnerIndices_cons, emitTailIndices_cons, emitPlace_element, emitPlace_member,
      emitPlaceStore_element, emitPlaceStore_member, emitStmt_expr, emitStmt_block,
      emitStmt_if, emitStmt_ifElse, emitStmt_whileLoop, emitStmt_doUntil,
      emitStmt_repeatLoop, emitStmt_withLoop, emitStmt_forLoop, emitStmt_switch,
      emitStmt_breakLoop, emitStmt_continueLoop, emitStmt_exit, emitStmt_returnNothing,
      emitStmt_returnValue, emitStmt_throw, emitStmt_try, emitStmt_handledTry,
      emitStmt_function, emitStmt_locals, emitStmt_statics, emitLocals_declare,
      emitLocals_value, emitStatics_declare, emitStatics_value, emitStmts_cons, reduceIte,
      *]
  all_goals
    try simp only [emitElement, emitMember, emitFunctionCall, emitMethodCall,
      emitConstruct, emitChain, emitUnary, emitConditional, emitArray, emitStruct,
      emitFunctionBody, emitPairIndex, emitElementPlace, emitMemberPlace,
      emitElementPlaceStore, emitMemberStore, emitStaticBlock, emitIf, emitIfElse,
      emitWhile, emitForCondition, emitFor, emitDoUntil, emitRepeat, emitWith, emitSwitch,
      emitHandler, emitTry, emitLocalValue, emitStaticValue, emitElementRead,
      emitElementStore, emitStructBody, emitOptional, emitOptionalBlock,
      emitOptionalCondition]
  all_goals
    repeat' first
      | with_reducible assumption
      | with_reducible refine Indifferent.read rfl ?_
      | with_reducible refine Indifferent.bind ?_ fun _ => ?_
      | with_reducible refine Indifferent.guarded ?_ ?_
      | with_reducible refine Indifferent.ite ?_ ?_
      | with_reducible refine Indifferent.discard ?_
      | simp only [popType_uniform, peekType_uniform, convertTo_uniform,
          convertToInstance_uniform, coerceTop_uniform, convertOperand_uniform,
          applyBinary_uniform, emitDiscard_uniform, emitCall_uniform,
          emitCallDiscard_uniform, emitCallValue_uniform, emitLiteral_uniform,
          emitStore_uniform, emitStep_uniform, emitStepValue_uniform, emitBind_uniform,
          knowsFunction_uniform knows, emitName_uniform knows, checkArity_uniform,
          emitCallee_uniform knows, emitBreak_uniform, emitContinue_uniform,
          emitExit_uniform, emitReturn_uniform, popLoop_uniform, emitFieldStores_uniform,
          functionName_uniform, *]
      | rfl
      | refine Indifferent.bind ?_ fun _ => ?_
      | split

theorem emitProgram_uniform (knows : env.Knows functions) (program : Program) :
    emitProgram env program = emitProgram { env with functions } program := by
  have running : Uniform env functions (do
      predeclare program
      emitStmts program
      finishEntry) :=
    .bind rfl fun _ => (emitStmts_uniform knows program).bind fun _ =>
      .bind rfl fun _ => .read rfl (.ite rfl rfl)
  exact congrArg (fun run => (run.run {}).map (·.1)) running

end GameScript.Emission
