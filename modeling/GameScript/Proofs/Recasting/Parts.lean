import GameScript.Proofs.Emission.Equations
import GameScript.Proofs.Recasting.Loops
import Mathlib.Data.List.Forall2

/-! Lists of parts that match.

What is emitted for a list of parts matches if each part does, so an induction over
syntax trees only has to tell that corresponding parts match. -/

namespace GameScript.Emission

open Bytecode Syntax

variable {env : Environment}

/-- The expressions are emitted alike, as values and as targets, whatever loops are
open. -/
structure ExprMatches (env : Environment) (expr expr' : Expr) : Prop where
  value : ∀ loops, Matches env loops loops (emitExpr expr) (emitExpr expr')
  place : ∀ loops, Matches env loops loops (emitPlace expr) (emitPlace expr')
  store : ∀ loops, Matches env loops loops (emitPlaceStore expr) (emitPlaceStore expr')

def isTarget : Expr → Bool
  | .var _ _ | .member _ _ _ _ => true
  | _ => false

theorem exists_fault_of_isTarget {expr : Expr} (noTarget : isTarget expr = false) :
    ∃ fault, emitPlace expr = fail fault ∧ emitPlaceStore expr = fail fault := by
  cases expr <;> first | exact ⟨_, rfl, rfl⟩ | cases noTarget

section Lists

variable {exprs exprs' : List Expr} (same : List.Forall₂ (ExprMatches env) exprs exprs')
  (loops : LoopRelation)

include same

theorem emitArguments_matches :
    Matches env loops loops (emitArguments exprs) (emitArguments exprs') := by
  induction same with
  | nil => exact .pure _
  | cons first _ induction =>
    exact induction.bind fun _ => (first.value loops).bind fun _ =>
      (convertTo_matches _).discard

theorem emitOperands_matches (op : BinaryOp) :
    Matches env loops loops (emitOperands op exprs) (emitOperands op exprs') := by
  induction same with
  | nil => exact .pure _
  | cons first _ induction =>
    exact (first.value loops).bind fun _ => (convertOperand_matches _).bind fun _ =>
      (applyBinary_matches _).bind fun _ => induction

theorem emitLazyOperands_matches (skip : Opcode) :
    Matches env loops loops (emitLazyOperands skip exprs)
      (emitLazyOperands skip exprs') := by
  induction same with
  | nil => exact .pure _
  | cons first _ induction =>
    exact (convertTo_matches _).discard.bind fun _ => (emitBranch_matches _).bind fun _ =>
      (first.value loops).bind fun _ => induction.bind fun _ => .pure _

theorem emitFirstIndex_matches :
    Matches env loops loops (emitFirstIndex exprs) (emitFirstIndex exprs') := by
  match same with
  | .nil => exact .fail _ _
  | .cons only .nil =>
    exact (only.value loops).bind fun _ => (convertTo_matches _).discard
  | .cons first (.cons second .nil) =>
    exact emitPairIndex_matches (first.value loops) (second.value loops)
  | .cons first (.cons _ (.cons _ _)) => exact emitManyIndex_matches (first.value loops)

theorem emitInnerIndices_matches (final : Extension) :
    Matches env loops loops (emitInnerIndices final exprs)
      (emitInnerIndices final exprs') := by
  induction same with
  | nil => exact .pure _
  | cons first rest induction =>
    rw [emitInnerIndices_cons, emitInnerIndices_cons,
      isEmpty_eq_of_length rest.length_eq.symm]
    exact (first.value loops).bind fun _ => (convertTo_matches _).discard.bind fun _ =>
      (emitExtension_matches _).bind fun _ => induction

theorem emitTailIndices_matches (final : Extension) :
    Matches env loops loops (emitTailIndices final exprs)
      (emitTailIndices final exprs') := by
  cases same with
  | nil => exact .pure _
  | cons _ rest => exact emitInnerIndices_matches rest loops final

end Lists

namespace ExprMatches

theorem of_value {expr expr' : Expr} (noTarget : isTarget expr = false)
    (noTarget' : isTarget expr' = false)
    (value : ∀ loops, Matches env loops loops (emitExpr expr) (emitExpr expr')) :
    ExprMatches env expr expr' := by
  obtain ⟨fault, place, store⟩ := exists_fault_of_isTarget noTarget
  obtain ⟨fault', place', store'⟩ := exists_fault_of_isTarget noTarget'
  refine ⟨value, fun loops => ?_, fun loops => ?_⟩
  · rw [place, place']
    exact .fail _ _
  · rw [store, store']
    exact .fail _ _

section Indexed

variable {indices indices' : List Expr}
  (same : List.Forall₂ (ExprMatches env) indices indices')

include same

theorem var (v : Variable) (pos : Position) :
    ExprMatches env (.var v indices) (.var { v with pos } indices') where
  value loops := by
    cases same with
    | nil => exact emitName_matches v pos
    | cons first rest =>
      have same := List.Forall₂.cons first rest
      exact emitElement_matches v pos same.length_eq.symm
        (emitFirstIndex_matches same loops)
        (emitTailIndices_matches same loops .readElement)
  place loops :=
    emitElementPlace_matches v pos same.length_eq.symm (emitFirstIndex_matches same loops)
  store loops :=
    emitElementPlaceStore_matches v pos same.length_eq.symm
      (emitFirstIndex_matches same loops)
      (emitTailIndices_matches same loops .storeElement)

theorem member (p p' : Position) (field : Variable) (pos : Position)
    {object object' : Expr} (sameObject : ExprMatches env object object') :
    ExprMatches env (.member p object field indices)
      (.member p' object' { field with pos } indices') where
  value loops :=
    emitMember_matches p p' field pos same.length_eq.symm (sameObject.value loops)
      (emitFirstIndex_matches same loops) (emitTailIndices_matches same loops .readElement)
  place loops :=
    emitMemberPlace_matches field pos same.length_eq.symm (sameObject.value loops)
      (emitFirstIndex_matches same loops)
  store loops :=
    emitMemberStore_matches field pos same.length_eq.symm (sameObject.value loops)
      (emitFirstIndex_matches same loops)
      (emitTailIndices_matches same loops .storeElement)

end Indexed

end ExprMatches

def FieldMatches (env : Environment) (field field' : String × Expr) : Prop :=
  field'.1 = field.1 ∧ ExprMatches env field.2 field'.2

theorem emitFieldValues_matches {fields fields' : List (String × Expr)}
    (same : List.Forall₂ (FieldMatches env) fields fields') (loops : LoopRelation) :
    Matches env loops loops (emitFieldValues fields) (emitFieldValues fields') := by
  induction same with
  | nil => exact .pure _
  | cons first _ induction =>
    exact induction.bind fun _ => (first.2.value loops).bind fun _ =>
      (convertTo_matches _).discard

theorem fieldNames_eq {fields fields' : List (String × Expr)}
    (same : List.Forall₂ (FieldMatches env) fields fields') :
    fields'.map (·.1) = fields.map (·.1) := by
  induction same with
  | nil => rfl
  | cons first _ induction => rw [List.map_cons, List.map_cons, first.1, induction]

theorem emitOptionalCondition_matches {condition condition' : Option Expr}
    (same : Option.Rel (ExprMatches env) condition condition') (loops : LoopRelation) :
    Matches env loops loops (emitOptionalCondition condition)
      (emitOptionalCondition condition') := by
  cases same with
  | none => exact emitPushImmediate_matches _
  | some same => exact (same.value loops).bind fun _ => (convertTo_matches _).discard

/-- Bindings of one name, both without a value or with values that match. -/
def BindingMatches (env : Environment) (binding binding' : Binding Expr) : Prop :=
  binding'.name = binding.name ∧ Option.Rel (ExprMatches env) binding.value binding'.value

section Bindings

variable {bindings bindings' : List (Binding Expr)}
  (same : List.Forall₂ (BindingMatches env) bindings bindings')

include same

theorem emitLocals_matches (loops : LoopRelation) :
    Matches env loops loops (emitLocals bindings) (emitLocals bindings') := by
  induction same with
  | nil => exact .pure _
  | @cons binding binding' _ _ first _ induction =>
    obtain ⟨_, name, value⟩ := binding
    obtain ⟨_, name', value'⟩ := binding'
    obtain ⟨rfl, sameValue⟩ := first
    cases sameValue with
    | none => exact (declareLocal_matches _).bind fun _ => induction
    | some sameValue =>
      exact (declareLocal_matches _).bind fun _ =>
        (emitLocalValue_matches _ _ _ (sameValue.value loops)).bind fun _ => induction

theorem emitStatics_matches (loops : LoopRelation) :
    Matches env loops loops (emitStatics bindings) (emitStatics bindings') := by
  induction same with
  | nil => exact .pure _
  | @cons binding binding' _ _ first _ induction =>
    obtain ⟨_, name, value⟩ := binding
    obtain ⟨_, name', value'⟩ := binding'
    obtain ⟨rfl, sameValue⟩ := first
    cases sameValue with
    | none => exact (declareStatic_matches _).bind fun _ => induction
    | some sameValue =>
      exact (declareStatic_matches _).bind fun _ =>
        (emitStaticValue_matches _ _ _ (sameValue.value loops)).bind fun _ => induction

theorem bindingNames_eq : bindings'.map (·.name) = bindings.map (·.name) := by
  induction same with
  | nil => rfl
  | cons first _ induction => rw [List.map_cons, List.map_cons, first.1, induction]

theorem anyValue_eq : bindings'.any (·.value.isSome) = bindings.any (·.value.isSome) := by
  induction same with
  | nil => rfl
  | @cons binding binding' _ _ first _ induction =>
    have sameSome : binding'.value.isSome = binding.value.isSome := by
      obtain ⟨-, sameValue⟩ := first
      generalize binding.value = value, binding'.value = value' at sameValue
      cases sameValue <;> rfl
    rw [List.any_cons, List.any_cons, sameSome, induction]

end Bindings

end GameScript.Emission
