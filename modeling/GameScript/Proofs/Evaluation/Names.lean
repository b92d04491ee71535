import GameScript.Proofs.Evaluation.Code

/-! Names of formulas.

Emission looks names up in its state, and no formula changes what they stand for there.  So
a formula is emitted as if it were told beforehand what its names stand for. -/

namespace GameScript.Emission

open Evaluation Syntax

def Emitter.namesFunction (s : Emitter) (env : Environment) (v : Variable) : Bool :=
  if v.owner.isSome || v.builtin.isSome then false
  else !(s.scopes.headD {}).owns v.name && s.knowsFunction env v.name

def Emitter.use (s : Emitter) (env : Environment) (v : Variable) : NameUse :=
  if s.namesFunction env v then .function v.name
  else .stored (s.resolve env v).1 (s.resolve env v).2

theorem run_namesFunction (env : Environment) (s : Emitter) (v : Variable) :
    ((namesFunction v).run env).run s = .ok (s.namesFunction env v, s) := by
  unfold namesFunction Emitter.namesFunction
  split
  · rfl
  · rfl

end GameScript.Emission

namespace GameScript.Evaluation

open Bytecode Emission Syntax

/-! Emission of formulas whose names are settled. -/

section Settled

variable (names : Variable → NameUse)

def emitUse (v : Variable) : NameUse → EmitM Unit
  | .function name => do
    emitPushFunction name
    pushType .int32
  | .stored name owner => do
    emitPushVariable (pushOpcode v owner) (.plain name owner)
    pushType .variant

mutual

def emitFormula : Formula → EmitM Unit
  | .literal pos value => do
    goTo pos
    emitLiteral value
  | .name v => do
    goTo v.pos
    emitUse v (names v)
  | .unary pos op operand => do
    goTo pos
    emitUnary op (emitFormula operand)
  | .chain pos op first others => do
    goTo pos
    emitChain op (emitFormula first) (emitLazyFormulas (skipOpcode op) others)
      (emitFormulas op others)
  | .conditional pos condition yes no => do
    goTo pos
    emitConditional (emitFormula condition) (emitFormula yes) (emitFormula no)

def emitFormulas (op : BinaryOp) : List Formula → EmitM Unit
  | [] => pure ()
  | operand :: rest => do
    emitFormula operand
    convertOperand op
    applyBinary op
    emitFormulas op rest

def emitLazyFormulas (skip : Opcode) : List Formula → EmitM (List Nat)
  | [] => pure []
  | operand :: rest => do
    discard <| convertTo .boolean
    let site ← emitBranch skip
    emitFormula operand
    let sites ← emitLazyFormulas skip rest
    return site :: sites

end

end Settled

/-- Where names stand for what is told, two actions run the same, and names go on to stand
for it. -/
structure Agree (env : Environment) (names : Variable → NameUse) (action other : EmitM α) :
    Prop where
  same : ∀ s : Emitter, s.use env = names → (action.run env).run s = (other.run env).run s
  keeps : ∀ (s : Emitter) (value : α) (t : Emitter), s.use env = names →
    (action.run env).run s = .ok (value, t) → t.use env = names

namespace Agree

variable {α β : Type} {env : Environment} {names : Variable → NameUse}

theorem steady {action : EmitM α} (keeps : ∀ s value t,
    (action.run env).run s = .ok (value, t) → t.use env = s.use env) :
    Agree env names action action where
  same _ _ := rfl
  keeps s value t named ran := (keeps s value t ran).trans named

theorem pure (value : α) :
    Agree env names (Pure.pure value : EmitM α) (Pure.pure value) :=
  .steady fun _ _ _ ran => by cases ran; rfl

theorem bind {action other : EmitM α} {next otherNext : α → EmitM β}
    (first : Agree env names action other)
    (second : ∀ value, Agree env names (next value) (otherNext value)) :
    Agree env names (action >>= next) (other >>= otherNext) := by
  have unfolded (s : Emitter) (action : EmitM α) (next : α → EmitM β) :
      ((action >>= next).run env).run s =
        ((action.run env).run s).bind fun result =>
        ((next result.1).run env).run result.2 := rfl
  constructor
  case same =>
    intro s named
    rw [unfolded, unfolded, ← first.same s named]
    cases ran : (action.run env).run s with
    | error _ => rfl
    | ok result => exact (second result.1).same result.2 (first.keeps s _ _ named ran)
  case keeps =>
    intro s value t named both
    rw [unfolded] at both
    cases ran : (action.run env).run s with
    | error _ =>
      rw [ran] at both
      cases both
    | ok result =>
      rw [ran] at both
      exact (second result.1).keeps result.2 value t (first.keeps s _ _ named ran) both

theorem discard {action other : EmitM α} (agree : Agree env names action other) :
    Agree env names (Functor.discard action) (Functor.discard other) := by
  have isBind (action : EmitM α) :
      Functor.discard action = action >>= fun _ => Pure.pure ⟨⟩ := rfl
  rw [isBind, isBind]
  exact agree.bind fun _ => .pure _

theorem ite {condition : Prop} [Decidable condition] {yes no otherYes otherNo : EmitM α}
    (whenTrue : Agree env names yes otherYes) (whenFalse : Agree env names no otherNo) :
    Agree env names (if condition then yes else no)
      (if condition then otherYes else otherNo) := by
  split
  · exact whenTrue
  · exact whenFalse

end Agree

section Actions

variable {env : Environment} {names : Variable → NameUse}

theorem Agree.read :
    Agree env names (MonadReader.read : EmitM Environment) MonadReader.read :=
  .steady fun _ _ _ ran => by cases ran; rfl

theorem Agree.fail {α : Type} (fault : EmitFault) :
    Agree env names (Emission.fail fault : EmitM α) (Emission.fail fault) :=
  .steady fun _ _ _ ran => by cases ran

theorem goTo_agrees (pos : Position) : Agree env names (goTo pos) (goTo pos) :=
  .steady fun _ _ _ ran => by cases ran; rfl

theorem pushType_agrees (type : DataType) :
    Agree env names (pushType type) (pushType type) :=
  .steady fun _ _ _ ran => by cases ran; rfl

theorem emit_agrees (ins : Instruction) : Agree env names (emit ins) (emit ins) :=
  .steady fun _ _ _ ran => by cases ran; rfl

theorem emitSymbol_agrees (ins : Instruction) (symbol : Symbol) :
    Agree env names (emitSymbol ins symbol) (emitSymbol ins symbol) :=
  .steady fun _ _ _ ran => by cases ran; rfl

theorem emitTyped_agrees (ins : Instruction) (type : DataType) :
    Agree env names (do discard (emit ins); pushType type)
      (do discard (emit ins); pushType type) :=
  .bind (.discard (emit_agrees ins)) fun _ => pushType_agrees type

theorem land_agrees (patch : ForwardPatch) : Agree env names (land patch) (land patch) :=
  .steady fun _ _ _ ran => by cases ran; rfl

theorem peekType_agrees : Agree env names peekType peekType := by
  refine .bind (.steady fun _ _ _ ran => by cases ran; rfl) fun s => ?_
  cases s.types with
  | nil => exact .fail _
  | cons type _ => exact .pure type

theorem popType_agrees : Agree env names popType popType := by
  refine .bind (.steady fun _ _ _ ran => by cases ran; rfl) fun s => ?_
  cases s.types with
  | nil => exact .fail _
  | cons type _ => exact .steady fun _ _ _ ran => by cases ran; rfl

theorem convertTo_agrees (wanted : DataType) :
    Agree env names (convertTo wanted) (convertTo wanted) :=
  .bind popType_agrees fun _ =>
    .ite (.pure false) (.bind (.discard (emit_agrees _)) fun _ => .pure true)

theorem convert_agrees (wanted : DataType) :
    Agree env names (discard (convertTo wanted)) (discard (convertTo wanted)) :=
  .discard (convertTo_agrees wanted)

theorem coerceTop_agrees (wanted : DataType) :
    Agree env names (coerceTop wanted) (coerceTop wanted) :=
  .bind peekType_agrees fun _ =>
    .ite (.bind (convert_agrees wanted) fun _ => pushType_agrees wanted) (.pure ())

theorem convertOperand_agrees (op : BinaryOp) :
    Agree env names (convertOperand op) (convertOperand op) :=
  .bind peekType_agrees fun _ => coerceTop_agrees _

theorem applyBinary_agrees (op : BinaryOp) :
    Agree env names (applyBinary op) (applyBinary op) := by
  refine .bind popType_agrees fun _ => .bind popType_agrees fun _ => ?_
  cases op.comparison? with
  | some kind => exact emitTyped_agrees _ _
  | none => exact emitTyped_agrees _ _

theorem emitLiteral_agrees (value : Literal) :
    Agree env names (emitLiteral value) (emitLiteral value) := by
  cases value with
  | boolean value => exact emitTyped_agrees _ _
  | number value =>
    simp only [emitLiteral]
    cases integerOf? value with
    | some n =>
      exact .ite (emitTyped_agrees _ _)
        (.ite (emitTyped_agrees _ _) (emitTyped_agrees _ _))
    | none => exact emitTyped_agrees _ _
  | int64 value => exact emitTyped_agrees _ _
  | string text =>
    exact .bind (.discard (emitSymbol_agrees _ _)) fun _ => pushType_agrees _

theorem emitUse_agrees (v : Variable) (use : NameUse) :
    Agree env names (emitUse v use) (emitUse v use) := by
  cases use with
  | function name =>
    exact .bind (.discard (emitSymbol_agrees _ _)) fun _ => pushType_agrees _
  | stored name owner =>
    exact .bind (.discard (emitSymbol_agrees _ _)) fun _ => pushType_agrees _

theorem run_emitName (env : Environment) (s : Emitter) (v : Variable) :
    ((emitName v).run env).run s =
      (((do goTo v.pos; emitUse v (s.use env v) : EmitM Unit)).run env).run s := by
  let moved : Emitter := { s with pos := v.pos }
  have asked := run_namesFunction env moved v
  have unfolded : ((emitName v).run env).run s =
      (((namesFunction v).run env).run moved).bind fun result =>
        ((if result.1 then do
            emitPushFunction v.name
            pushType .int32
          else do
            emitRead v
            pushType .variant : EmitM Unit).run env).run result.2 := rfl
  rw [unfolded, asked]
  have same : moved.namesFunction env v = s.namesFunction env v := rfl
  unfold Emitter.use
  cases function : s.namesFunction env v with
  | true =>
    rw [same, function]
    rfl
  | false =>
    rw [same, function]
    rfl

theorem emitName_agrees (v : Variable) :
    Agree env names (emitName v) (do goTo v.pos; emitUse v (names v)) := by
  have settled : Agree env names (do goTo v.pos; emitUse v (names v))
      (do goTo v.pos; emitUse v (names v)) :=
    .bind (goTo_agrees v.pos) fun _ => emitUse_agrees v (names v)
  have same (s : Emitter) (named : s.use env = names) :
      ((emitName v).run env).run s =
        (((do goTo v.pos; emitUse v (names v) : EmitM Unit)).run env).run s := by
    rw [run_emitName, named]
  exact ⟨same, fun s value t named ran =>
    settled.keeps s value t named (same s named ▸ ran)⟩

section Operators

variable {operand operand' first first' others others' : EmitM Unit}
  {condition condition' yes yes' no no' : EmitM Unit}

theorem emitUnary_agrees (op : UnaryOp) (agree : Agree env names operand operand') :
    Agree env names (emitUnary op operand) (emitUnary op operand') := by
  have applying : Agree env names (do
      coerceTop (unaryOperandType op (← peekType))
      emitSingle (if op == .neg then .neg else .not) (← peekType)) (do
      coerceTop (unaryOperandType op (← peekType))
      emitSingle (if op == .neg then .neg else .not) (← peekType)) :=
    .bind peekType_agrees fun _ => .bind (coerceTop_agrees _) fun _ =>
      .bind peekType_agrees fun _ => .discard (emit_agrees _)
  exact agree.bind fun _ => .bind peekType_agrees fun _ =>
    .ite (.bind (.fail _) fun _ => applying) applying

theorem emitChain_agrees (op : BinaryOp) {skipping skipping' : EmitM (List Nat)}
    (agree : Agree env names first first') (skip : Agree env names skipping skipping')
    (all : Agree env names others others') :
    Agree env names (emitChain op first skipping others)
      (emitChain op first' skipping' others') :=
  agree.bind fun _ => .bind .read fun _ => .ite
    (skip.bind fun _ => .bind (convert_agrees .boolean) fun _ =>
      .bind (emit_agrees _) fun _ =>
      .bind (land_agrees _) fun _ => .bind (.discard (emit_agrees _)) fun _ =>
        .bind (pushType_agrees _) fun _ => land_agrees _)
    (.bind (convertOperand_agrees op) fun _ => all)

theorem emitConditional_agrees (agree : Agree env names condition condition')
    (agreeYes : Agree env names yes yes') (agreeNo : Agree env names no no') :
    Agree env names (emitConditional condition yes no)
      (emitConditional condition' yes' no') :=
  agree.bind fun _ => .bind (convert_agrees .boolean) fun _ =>
    .bind (emit_agrees _) fun _ =>
    agreeYes.bind fun _ => .bind (convert_agrees .variant) fun _ =>
      .bind (emit_agrees _) fun _ =>
      .bind (land_agrees _) fun _ => agreeNo.bind fun _ =>
        .bind (convert_agrees .variant) fun _ =>
        .bind (pushType_agrees _) fun _ => land_agrees _

end Operators

variable (env names)

mutual

theorem emitExpr_agrees : ∀ formula : Formula,
    Agree env names (emitExpr formula.expr) (emitFormula names formula)
  | .literal pos value => by
    rw [Formula.expr, emitExpr_literal, emitFormula]
    exact .bind (goTo_agrees pos) fun _ => emitLiteral_agrees value
  | .name v => by
    rw [Formula.expr, emitExpr_name, emitFormula]
    exact emitName_agrees v
  | .unary pos op operand => by
    rw [Formula.expr, emitExpr_unary, emitFormula]
    exact .bind (goTo_agrees pos) fun _ => emitUnary_agrees op (emitExpr_agrees operand)
  | .chain pos op first others => by
    rw [Formula.expr, emitExpr_binary, emitFormula]
    exact .bind (goTo_agrees pos) fun _ => emitChain_agrees op (emitExpr_agrees first)
      (emitLazyOperands_agree (skipOpcode op) others) (emitOperands_agree op others)
  | .conditional pos condition yes no => by
    rw [Formula.expr, emitExpr_conditional, emitFormula]
    exact .bind (goTo_agrees pos) fun _ =>
      emitConditional_agrees (emitExpr_agrees condition)
      (emitExpr_agrees yes) (emitExpr_agrees no)

theorem emitOperands_agree (op : BinaryOp) : ∀ others : List Formula,
    Agree env names (emitOperands op (exprs others)) (emitFormulas names op others)
  | [] => .pure ()
  | next :: rest => by
    rw [exprs, emitOperands_cons, emitFormulas]
    exact (emitExpr_agrees next).bind fun _ => .bind (convertOperand_agrees op) fun _ =>
      .bind (applyBinary_agrees op) fun _ => emitOperands_agree op rest

theorem emitLazyOperands_agree (skip : Opcode) : ∀ others : List Formula,
    Agree env names (emitLazyOperands skip (exprs others))
      (emitLazyFormulas names skip others)
  | [] => .pure []
  | next :: rest => by
    rw [exprs, emitLazyOperands_cons, emitLazyFormulas]
    exact .bind (convert_agrees .boolean) fun _ => .bind (emit_agrees _) fun _ =>
      (emitExpr_agrees next).bind fun _ => (emitLazyOperands_agree skip rest).bind fun _ =>
        .pure _

end

end Actions

end GameScript.Evaluation
