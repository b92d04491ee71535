import GameScript.Proofs.Recasting.Relation

/-! Constructs side by side.

A construct around parts that match is matched by the same construct around their
counterparts. -/

namespace GameScript.Emission

open Builtin Bytecode Number Syntax

variable {env : Environment} {loops : LoopRelation}

theorem emitOp_matches (opcode : Opcode) (type1 type2 : DataType) :
    Matches env loops loops (emitOp opcode type1 type2) (emitOp opcode type1 type2) :=
  (emit_matches _).discard

theorem emitSingle_matches (opcode : Opcode) (type : DataType) :
    Matches env loops loops (emitSingle opcode type) (emitSingle opcode type) :=
  (emit_matches _).discard

theorem emitCompare_matches (kind : Comparison) (type1 type2 : DataType) :
    Matches env loops loops (emitCompare kind type1 type2)
      (emitCompare kind type1 type2) :=
  (emit_matches _).discard

theorem emitDuplicate_matches (type : DataType) (extra : UInt8) :
    Matches env loops loops (emitDuplicate type extra) (emitDuplicate type extra) :=
  (emit_matches _).discard

theorem emitBranch_matches (opcode : Opcode) :
    Matches env loops loops (emitBranch opcode) (emitBranch opcode) :=
  emit_matches _

theorem emitPushImmediate_matches (value : Int16) :
    Matches env loops loops (emitPushImmediate value) (emitPushImmediate value) :=
  (emit_matches _).discard

theorem emitPushShort_matches (value : Int16) :
    Matches env loops loops (emitPushShort value) (emitPushShort value) :=
  (emit_matches _).discard

theorem emitPushInt32_matches (value : Int32) :
    Matches env loops loops (emitPushInt32 value) (emitPushInt32 value) :=
  emit_matches _

theorem emitPushFunction_matches (name : String) :
    Matches env loops loops (emitPushFunction name) (emitPushFunction name) :=
  (emitSymbol_matches _ _).discard

theorem emitCall_matches (name : String) (count : Nat) :
    Matches env loops loops (emitCall name count) (emitCall name count) :=
  .ite (emitSymbol_matches _ _).discard (.fail _ _)

theorem emitCallDiscard_matches (name : String) (count : Nat) :
    Matches env loops loops (emitCallDiscard name count) (emitCallDiscard name count) :=
  (emitCall_matches name count).bind fun _ => emitSingle_matches _ _

theorem emitCallValue_matches (count : Nat) :
    Matches env loops loops (emitCallValue count) (emitCallValue count) :=
  .ite (emit_matches _).discard (.fail _ _)

theorem emitExtension_matches (extension : Extension) :
    Matches env loops loops (emitExtension extension) (emitExtension extension) :=
  (emit_matches _).discard

theorem emitPushVariable_matches (opcode : Opcode) (use : VariableUse) :
    Matches env loops loops (emitPushVariable opcode use) (emitPushVariable opcode use) :=
  (emitSymbol_matches _ _).discard

theorem emitPopVariable_matches (type1 type2 : DataType) (use : VariableUse) :
    Matches env loops loops (emitPopVariable type1 type2 use)
      (emitPopVariable type1 type2 use) :=
  (emitSymbol_matches _ _).discard

theorem emitLeaveForGood_matches :
    Matches env loops loops emitLeaveForGood emitLeaveForGood :=
  (emit_matches _).discard

theorem convertTo_matches (wanted : DataType) :
    Matches env loops loops (convertTo wanted) (convertTo wanted) :=
  popType_matches.bind fun _ =>
    .ite (.pure false) ((emitOp_matches _ _ _).bind fun _ => .pure true)

theorem convertToInstance_matches :
    Matches env loops loops convertToInstance convertToInstance :=
  .read <| peekType_matches.bind fun _ =>
    .ite (popType_matches.discard.bind fun _ => emitPushImmediate_matches _)
      (convertTo_matches _).discard

theorem emitDiscard_matches : Matches env loops loops emitDiscard emitDiscard :=
  popType_matches.bind fun _ => emitSingle_matches _ _

theorem coerceTop_matches (wanted : DataType) :
    Matches env loops loops (coerceTop wanted) (coerceTop wanted) :=
  peekType_matches.bind fun _ =>
    .ite ((convertTo_matches _).discard.bind fun _ => pushType_matches _) (.pure _)

theorem convertOperand_matches (op : BinaryOp) :
    Matches env loops loops (convertOperand op) (convertOperand op) :=
  peekType_matches.bind fun _ => coerceTop_matches _

theorem applyBinary_matches (op : BinaryOp) :
    Matches env loops loops (applyBinary op) (applyBinary op) := by
  refine popType_matches.bind fun top => popType_matches.bind fun second => ?_
  cases op.comparison? with
  | some kind => exact (emitCompare_matches _ _ _).bind fun _ => pushType_matches _
  | none => exact (emitOp_matches _ _ _).bind fun _ => pushType_matches _

theorem emitInteger_matches (value : Int) :
    Matches env loops loops (emitInteger value) (emitInteger value) :=
  .ite ((emitPushImmediate_matches _).bind fun _ => pushType_matches _) <|
    .ite ((emitPushInt32_matches _).discard.bind fun _ => pushType_matches _)
      ((emit_matches _).discard.bind fun _ => pushType_matches _)

theorem emitLiteral_matches (value : Literal) :
    Matches env loops loops (emitLiteral value) (emitLiteral value) := by
  cases value with
  | number value =>
    simp only [emitLiteral]
    split
    · exact emitInteger_matches _
    · exact (emit_matches _).discard.bind fun _ => pushType_matches _
  | int64 value => exact (emit_matches _).discard.bind fun _ => pushType_matches _
  | string text => exact (emitSymbol_matches _ _).discard.bind fun _ => pushType_matches _
  | boolean value => exact (emitPushImmediate_matches _).bind fun _ => pushType_matches _

section Names

variable (v : Variable) (callee : Callee) (pos : Position)

theorem emitRead_matches :
    Matches env loops loops (emitRead v) (emitRead { v with pos }) :=
  (resolveVariable_matches v pos).bind fun _ => emitPushVariable_matches _ _

theorem emitStore_matches :
    Matches env loops loops (emitStore v) (emitStore { v with pos }) :=
  popType_matches.bind fun _ =>
    (resolveVariable_matches v pos).bind fun _ => emitPopVariable_matches _ _ _

theorem emitStep_matches (increment : Bool) :
    Matches env loops loops (emitStep v increment) (emitStep { v with pos } increment) :=
  (emitRead_matches v pos).bind fun _ => (pushType_matches _).bind fun _ =>
    (emitPushShort_matches _).bind fun _ => (pushType_matches _).bind fun _ =>
    (applyBinary_matches _).bind fun _ => emitStore_matches v pos

theorem namesFunction_matches :
    Matches env loops loops (namesFunction v) (namesFunction { v with pos }) :=
  .ite (.pure _) <| (ownsName_matches _).bind fun _ =>
    (knowsFunction_matches _).bind fun _ => .pure _

theorem emitName_matches :
    Matches env loops loops (emitName v) (emitName { v with pos }) :=
  (goTo_matches _ _).bind fun _ => (namesFunction_matches v pos).bind fun _ =>
    .ite ((emitPushFunction_matches _).bind fun _ => pushType_matches _)
      ((emitRead_matches v pos).bind fun _ => pushType_matches _)

theorem emitStepValue_matches (before increment : Bool) :
    Matches env loops loops (emitStepValue v before increment)
      (emitStepValue { v with pos } before increment) := by
  refine (resolveVariable_matches v pos).bind fun _ =>
    (emitPushVariable_matches _ _).bind fun _ => ?_
  refine .ite ?_ ?_
  · exact (emitPushShort_matches _).bind fun _ => (emitOp_matches _ _ _).bind fun _ =>
      (emitDuplicate_matches _ _).bind fun _ =>
        (emitPopVariable_matches _ _ _).bind fun _ =>
      pushType_matches _
  · exact (emitDuplicate_matches _ _).bind fun _ => (emitPushShort_matches _).bind fun _ =>
      (emitOp_matches _ _ _).bind fun _ => (emitPopVariable_matches _ _ _).bind fun _ =>
      pushType_matches _

theorem checkArity_matches (supplied : Nat) :
    Matches env loops loops (checkArity callee supplied)
      (checkArity { callee with pos } supplied) := by
  obtain ⟨place, name, builtin⟩ := callee
  match builtin with
  | none | some ⟨_, none, _⟩ => exact .pure _
  | some ⟨_, some expected, _⟩ => exact .ite (.fail _ _) (.pure _)

theorem emitCallee_matches (count : Nat) :
    Matches env loops loops (emitCallee callee count)
      (emitCallee { callee with pos } count) := by
  refine (knowsFunction_matches _).bind fun isKnown =>
    (ownsName_matches _).bind fun isOwned => ?_
  refine .ite (emitCall_matches _ _)
    (.read (.ite ?_ (.ite (emitCall_matches _ _) (.fail _ _))))
  exact (emitCall_matches _ _).bind fun _ => (emitRead_matches _ _).bind fun _ =>
    emitCallValue_matches _

end Names

theorem emitElementRead_matches {first first' others others' : EmitM Unit} (name : String)
    (scope : Instance) (isNested : Bool) (sameFirst : Matches env loops loops first first')
    (sameOthers : Matches env loops loops others others') :
    Matches env loops loops (emitElementRead name scope isNested first others)
      (emitElementRead name scope isNested first' others') := by
  refine sameFirst.bind fun _ => .ite ?_ ?_
  · exact (emitPushVariable_matches _ _).bind fun _ => sameOthers.bind fun _ =>
      pushType_matches _
  · exact (emitPushVariable_matches _ _).bind fun _ => pushType_matches _

theorem emitElementStore_matches {first first' others others' : EmitM Unit} (name : String)
    (scope : Instance) (isNested : Bool) (sameFirst : Matches env loops loops first first')
    (sameOthers : Matches env loops loops others others') :
    Matches env loops loops (emitElementStore name scope isNested first others)
      (emitElementStore name scope isNested first' others') :=
  sameFirst.bind fun _ =>
    .ite ((emitPushVariable_matches _ _).bind fun _ => sameOthers)
      (emitPopVariable_matches _ _ _)

theorem emitBind_matches (function : String) (owner : Instance) :
    Matches env loops loops (emitBind function owner) (emitBind function owner) :=
  (emitPushFunction_matches _).bind fun _ => (emitOp_matches _ _ _).bind fun _ =>
    (emitPushImmediate_matches _).bind fun _ => (emitOp_matches _ _ _).bind fun _ =>
    emitCall_matches _ _

theorem emitFieldStores_matches (index : Nat) (fields : List String) :
    Matches env loops loops (emitFieldStores index fields)
      (emitFieldStores index fields) := by
  induction fields generalizing index with
  | nil => exact .pure _
  | cons field rest induction =>
    exact (emitPushVariable_matches _ _).bind fun _ =>
      (emitPopVariable_matches _ _ _).bind fun _ =>
      induction _

theorem emitStructBody_matches (fields : List String) :
    Matches env loops loops (emitStructBody fields) (emitStructBody fields) := by
  refine nextStructName_matches.bind fun name => (emitBranch_matches _).bind fun skip => ?_
  refine get_matches fun s opened pos _ => ?_
  exact (emitFieldStores_matches _ _).bind fun _ => (emitSingle_matches _ _).bind fun _ =>
    (addChild_matches _).bind fun _ => (land_matches _).bind fun _ => .pure _

theorem isEmpty_eq_of_length {items others : List Expr}
    (same : others.length = items.length) : others.isEmpty = items.isEmpty := by
  cases items <;> cases others <;> simp_all

section Expressions

variable {first first' others others' object object' : EmitM Unit}

theorem emitElement_matches (v : Variable) (pos : Position) {indices indices' : List Expr}
    (sameLength : indices'.length = indices.length)
    (sameFirst : Matches env loops loops first first')
    (sameOthers : Matches env loops loops others others') :
    Matches env loops loops (emitElement v indices first others)
      (emitElement { v with pos } indices' first' others') := by
  refine (goTo_matches _ _).bind fun _ => (resolveVariable_matches v pos).bind fun _ => ?_
  refine (emitPushImmediate_matches _).bind fun _ => .read ?_
  unfold Environment.isNested
  rw [sameLength]
  exact emitElementRead_matches _ _ _ sameFirst sameOthers

theorem emitMember_matches (pos pos' : Position) (field : Variable) (place : Position)
    {indices indices' : List Expr} (sameLength : indices'.length = indices.length)
    (sameObject : Matches env loops loops object object')
    (sameFirst : Matches env loops loops first first')
    (sameOthers : Matches env loops loops others others') :
    Matches env loops loops (emitMember pos field indices object first others)
      (emitMember pos' { field with pos := place } indices' object' first' others') := by
  have sameEmpty : indices'.isEmpty = indices.isEmpty := isEmpty_eq_of_length sameLength
  unfold emitMember Environment.isNested
  rw [sameLength, sameEmpty]
  refine (goTo_matches _ _).bind fun _ => sameObject.bind fun _ => ?_
  refine convertToInstance_matches.bind fun _ =>
    (goTo_matches _ _).bind fun _ => .ite ?_ ?_
  · exact (emitPushVariable_matches _ _).bind fun _ => pushType_matches _
  · exact .read (emitElementRead_matches _ _ _ sameFirst sameOthers)

theorem emitFunctionCall_matches (callee : Callee) (pos : Position) (count : Nat)
    (same : Matches env loops loops first first') :
    Matches env loops loops (emitFunctionCall callee count first)
      (emitFunctionCall { callee with pos } count first') :=
  (goTo_matches _ _).bind fun _ => (checkArity_matches _ _ _).bind fun _ =>
    same.bind fun _ =>
    (goTo_matches _ _).bind fun _ => (emitCallee_matches _ _ _).bind fun _ =>
      pushType_matches _

theorem emitMethodCall_matches (pos pos' : Position) (callee : Callee) (place : Position)
    (count : Nat) (same : Matches env loops loops first first')
    (sameObject : Matches env loops loops object object') :
    Matches env loops loops (emitMethodCall pos callee count first object)
      (emitMethodCall pos' { callee with pos := place } count first' object') := by
  refine (goTo_matches _ _).bind fun _ => .read (.guarded ?_)
  refine same.bind fun _ => sameObject.bind fun _ =>
    (convertTo_matches _).bind fun _ => .ite ?_ ?_
  · exact (emitCall_matches _ _).bind fun _ => (goTo_matches _ _).bind fun _ =>
      (emitDuplicate_matches _ _).bind fun _ => (emitPushImmediate_matches _).bind fun _ =>
      (emitPushVariable_matches _ _).bind fun _ => (emitCallValue_matches _).bind fun _ =>
      pushType_matches _
  · exact (goTo_matches _ _).bind fun _ =>
      (emitDuplicate_matches _ _).bind fun _ => (emitPushImmediate_matches _).bind fun _ =>
      (emitPushVariable_matches _ _).bind fun _ => (emitCallValue_matches _).bind fun _ =>
      pushType_matches _

theorem emitConstruct_matches (callee : Callee) (pos : Position) (count : Nat)
    (same : Matches env loops loops first first') :
    Matches env loops loops (emitConstruct callee count first)
      (emitConstruct { callee with pos } count first') := by
  refine (goTo_matches _ _).bind fun _ => .read (.guarded ?_)
  refine (knowsFunction_matches _).bind fun _ => .guarded ?_
  exact same.bind fun _ => (emitPushFunction_matches _).bind fun _ =>
    (emitOp_matches _ _ _).bind fun _ => (emitCall_matches _ _).bind fun _ =>
      pushType_matches _

theorem emitChain_matches (op : BinaryOp) {skipping skipping' : EmitM (List Nat)}
    (sameFirst : Matches env loops loops first first')
    (sameSkipping : Matches env loops loops skipping skipping')
    (sameOthers : Matches env loops loops others others') :
    Matches env loops loops (emitChain op first skipping others)
      (emitChain op first' skipping' others') := by
  refine sameFirst.bind fun _ => .read (.ite ?_ ?_)
  · exact sameSkipping.bind fun _ => (convertTo_matches _).discard.bind fun _ =>
      (emitBranch_matches _).bind fun _ => (land_matches _).bind fun _ =>
      (emitPushShort_matches _).bind fun _ =>
        (pushType_matches _).bind fun _ => land_matches _
  · exact (convertOperand_matches _).bind fun _ => sameOthers

theorem emitUnary_matches (op : UnaryOp) (same : Matches env loops loops first first') :
    Matches env loops loops (emitUnary op first) (emitUnary op first') :=
  same.bind fun _ => peekType_matches.bind fun _ => .guarded <|
    peekType_matches.bind fun _ => (coerceTop_matches _).bind fun _ =>
    peekType_matches.bind fun _ => emitSingle_matches _ _

theorem emitConditional_matches {condition condition' yes yes' no no' : EmitM Unit}
    (sameCondition : Matches env loops loops condition condition')
    (sameYes : Matches env loops loops yes yes')
    (sameNo : Matches env loops loops no no') :
    Matches env loops loops (emitConditional condition yes no)
      (emitConditional condition' yes' no') :=
  sameCondition.bind fun _ => (convertTo_matches _).discard.bind fun _ =>
    (emitBranch_matches _).bind fun _ => sameYes.bind fun _ =>
    (convertTo_matches _).discard.bind fun _ => (emitBranch_matches _).bind fun _ =>
    (land_matches _).bind fun _ => sameNo.bind fun _ =>
      (convertTo_matches _).discard.bind fun _ =>
    (pushType_matches _).bind fun _ => land_matches _

theorem emitArray_matches (count : Nat) (same : Matches env loops loops first first') :
    Matches env loops loops (emitArray count first) (emitArray count first') :=
  same.bind fun _ => (emitCall_matches _ _).bind fun _ => pushType_matches _

theorem emitStruct_matches (fields : List String)
    (same : Matches env loops loops first first') :
    Matches env loops loops (emitStruct fields first) (emitStruct fields first') := by
  refine .read (.guarded ?_)
  exact (emitStructBody_matches _).bind fun _ => same.bind fun _ =>
    (emitBind_matches _ _).bind fun _ =>
    (emitCall_matches _ _).bind fun _ => pushType_matches _

theorem emitPairIndex_matches {second second' : EmitM Unit}
    (sameFirst : Matches env loops loops first first')
    (sameSecond : Matches env loops loops second second') :
    Matches env loops loops (emitPairIndex first second)
      (emitPairIndex first' second') := by
  refine sameFirst.bind fun _ => (convertTo_matches _).discard.bind fun _ =>
    .read (.ite ?_ (.pure _))
  exact (emitPushInt32_matches _).discard.bind fun _ =>
    (emitOp_matches _ _ _).bind fun _ =>
    sameSecond.bind fun _ => (convertTo_matches _).discard.bind fun _ =>
      emitOp_matches _ _ _

theorem emitManyIndex_matches (same : Matches env loops loops first first') :
    Matches env loops loops (emitManyIndex first) (emitManyIndex first') :=
  .read (.guarded (same.bind fun _ => (convertTo_matches _).discard))

end Expressions

def NoLoops : LoopRelation := fun opened other => opened = [] ∧ other = []

theorem functionName_matches (name : Option String) :
    Matches env loops loops (functionName name) (functionName name) := by
  cases name with
  | none => exact nextAnonymousName_matches
  | some name => exact .pure name

theorem emitFunctionBody_matches (name : Option String) (params : List String)
    (isConstructor : Bool) (declared : List String) {body body' : EmitM Unit}
    (same : Matches env NoLoops NoLoops body body') :
    Matches env loops loops (emitFunctionBody name params isConstructor declared body)
      (emitFunctionBody name params isConstructor declared body') := by
  refine (functionName_matches name).bind fun name =>
    (emitBranch_matches _).bind fun skip => ?_
  refine get_matches fun before _ _ _ => get_matches fun s opened pos related => ?_
  refine (show Matches env loops NoLoops _ _ from
    modify_matches fun u inner pos _ => ⟨[], pos, rfl, rfl, rfl⟩).bind fun _ => ?_
  refine Matches.bind
    (modify_matches fun u inner pos related => ⟨inner, pos, rfl, related⟩) fun _ => ?_
  refine same.bind fun _ => currentScope_matches.bind fun scope => ?_
  refine Matches.bind
    (modify_matches fun u inner pos _ => ⟨opened, pos, rfl, related⟩) fun _ => ?_
  exact (emitSingle_matches _ _).bind fun _ => (addChild_matches _).bind fun _ =>
    (land_matches _).bind fun _ => .pure _

section Targets

variable {object object' first first' others others' value value' : EmitM Unit}
  {indices indices' : List Expr}

theorem emitElementPlace_matches (v : Variable) (pos : Position)
    (sameLength : indices'.length = indices.length)
    (sameFirst : Matches env loops loops first first') :
    Matches env loops loops (emitElementPlace v indices first)
      (emitElementPlace { v with pos } indices' first') := by
  unfold emitElementPlace Environment.isNested
  rw [sameLength]
  refine (resolveVariable_matches v pos).bind fun _ => .read (.guarded ?_)
  exact (emitPushImmediate_matches _).bind fun _ => sameFirst.bind fun _ =>
    (emitDuplicate_matches _ _).bind fun _ => .pure _

theorem emitMemberPlace_matches (field : Variable) (pos : Position)
    (sameLength : indices'.length = indices.length)
    (sameObject : Matches env loops loops object object')
    (sameFirst : Matches env loops loops first first') :
    Matches env loops loops (emitMemberPlace field indices object first)
      (emitMemberPlace { field with pos } indices' object' first') := by
  unfold emitMemberPlace Environment.isNested
  rw [sameLength, isEmpty_eq_of_length sameLength]
  refine sameObject.bind fun _ => (convertTo_matches _).discard.bind fun _ => .ite ?_ ?_
  · exact (emitDuplicate_matches _ _).bind fun _ => .pure _
  · exact .read <| .guarded <| sameFirst.bind fun _ =>
      (emitDuplicate_matches _ _).bind fun _ => .pure _

theorem emitElementPlaceStore_matches (v : Variable) (pos : Position)
    (sameLength : indices'.length = indices.length)
    (sameFirst : Matches env loops loops first first')
    (sameOthers : Matches env loops loops others others') :
    Matches env loops loops (emitElementPlaceStore v indices first others)
      (emitElementPlaceStore { v with pos } indices' first' others') := by
  unfold emitElementPlaceStore Environment.isNested
  rw [sameLength]
  exact (resolveVariable_matches v pos).bind fun _ =>
    (emitPushImmediate_matches _).bind fun _ =>
    .read (emitElementStore_matches _ _ _ sameFirst sameOthers)

theorem emitMemberStore_matches (field : Variable) (pos : Position)
    (sameLength : indices'.length = indices.length)
    (sameObject : Matches env loops loops object object')
    (sameFirst : Matches env loops loops first first')
    (sameOthers : Matches env loops loops others others') :
    Matches env loops loops (emitMemberStore field indices object first others)
      (emitMemberStore { field with pos } indices' object' first' others') := by
  unfold emitMemberStore Environment.isNested
  rw [sameLength, isEmpty_eq_of_length sameLength]
  exact sameObject.bind fun _ => convertToInstance_matches.bind fun _ =>
    .ite (emitPopVariable_matches _ _ _)
      (.read (emitElementStore_matches _ _ _ sameFirst sameOthers))

theorem emitUpdate_matches (v : Variable) (pos : Position) (op : BinaryOp)
    (same : Matches env loops loops value value') :
    Matches env loops loops (emitUpdate v op value)
      (emitUpdate { v with pos } op value') :=
  (emitName_matches v pos).bind fun _ => (convertOperand_matches _).bind fun _ =>
    same.bind fun _ =>
    (convertOperand_matches _).bind fun _ => (applyBinary_matches _).bind fun _ =>
    emitStore_matches v pos

theorem emitPlaceUpdate_matches (op : BinaryOp) {place place' : EmitM VariableUse}
    (samePlace : Matches env loops loops place place')
    (same : Matches env loops loops value value') :
    Matches env loops loops (emitPlaceUpdate op place value)
      (emitPlaceUpdate op place' value') :=
  samePlace.bind fun _ => (emitPushVariable_matches _ _).bind fun _ =>
    (pushType_matches _).bind fun _ => (convertOperand_matches _).bind fun _ =>
      same.bind fun _ =>
    (applyBinary_matches _).bind fun _ => popType_matches.bind fun _ =>
      emitPopVariable_matches _ _ _

theorem emitStepOne_matches : Matches env loops loops emitStepOne emitStepOne :=
  (emitPushShort_matches _).bind fun _ => pushType_matches _

theorem emitLocalValue_matches (pos pos' : Position) (name : String)
    (same : Matches env loops loops value value') :
    Matches env loops loops (emitLocalValue pos name value)
      (emitLocalValue pos' name value') :=
  (goTo_matches _ _).bind fun _ => same.bind fun _ => popType_matches.bind fun _ =>
    emitPopVariable_matches _ _ _

theorem emitStaticValue_matches (pos pos' : Position) (name : String)
    (same : Matches env loops loops value value') :
    Matches env loops loops (emitStaticValue pos name value)
      (emitStaticValue pos' name value') :=
  (goTo_matches _ _).bind fun _ => same.bind fun _ => popType_matches.bind fun _ =>
    emitPopVariable_matches _ _ _

theorem emitStaticBlock_matches (same : Matches env loops loops value value') :
    Matches env loops loops (emitStaticBlock value) (emitStaticBlock value') := by
  refine .read (currentScope_matches.bind fun _ => .guarded ?_)
  exact (emitExtension_matches _).bind fun _ => (emitBranch_matches _).bind fun _ =>
    same.bind fun _ => (emitExtension_matches _).bind fun _ => land_matches _

end Targets

end GameScript.Emission
