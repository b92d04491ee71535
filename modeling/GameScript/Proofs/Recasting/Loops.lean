import GameScript.Proofs.Recasting.Constructs

/-! Statements side by side.

Which statements match depends on how the open loops correspond: `break`, `exit` and
`return` ask that the loops can be left in the same ways, `continue` that they can be
continued in the same ways. -/

namespace GameScript.Emission

open Bytecode Number Syntax

variable {env : Environment} {loops : LoopRelation}

def addBreak (site : Nat) : List LoopContext → List LoopContext
  | [] => []
  | context :: outer =>
    { context with breaks := context.breaks.add site, breakUsed := true } :: outer

/-- What `continue` does: the values it drops and the address it leads to, if that is
known. -/
def continueRoute? (opened : List LoopContext) : Option (List DataType × Option Nat) :=
  (continueLoop? opened).map fun found => (found.1, found.2.continueTarget)

structure LeftAlike (loops : LoopRelation) : Prop where
  kinds : ∀ {opened other}, loops opened other → other.map (·.kind) = opened.map (·.kind)
  breaks : ∀ {opened other} site, loops opened other →
    loops (addBreak site opened) (addBreak site other)

structure ContinuedAlike (loops : LoopRelation) : Prop where
  route : ∀ {opened other}, loops opened other →
    continueRoute? other = continueRoute? opened
  continues : ∀ {opened other} site, loops opened other →
    loops (addContinue site opened) (addContinue site other)

/-- Inside one more loop of the given kind, the same for both. -/
def Inside (kind : LoopKind) (target : Option Nat) (loops : LoopRelation) : LoopRelation :=
  fun opened other => ∃ context outer outer', opened = context :: outer ∧
    other = context :: outer' ∧
    context.kind = kind ∧ context.continueTarget = target ∧ loops outer outer'

theorem NoLoops.leftAlike : LeftAlike NoLoops where
  kinds := by
    rintro _ _ ⟨rfl, rfl⟩
    rfl
  breaks := by
    rintro _ _ site ⟨rfl, rfl⟩
    exact ⟨rfl, rfl⟩

theorem NoLoops.continuedAlike : ContinuedAlike NoLoops where
  route := by
    rintro _ _ ⟨rfl, rfl⟩
    rfl
  continues := by
    rintro _ _ site ⟨rfl, rfl⟩
    exact ⟨rfl, rfl⟩

theorem LeftAlike.inside (alike : LeftAlike loops) (kind : LoopKind)
    (target : Option Nat) : LeftAlike (Inside kind target loops) where
  kinds := by
    rintro _ _ ⟨context, outer, outer', rfl, rfl, -, -, related⟩
    rw [List.map_cons, List.map_cons, alike.kinds related]
  breaks := by
    rintro _ _ site ⟨context, outer, outer', rfl, rfl, isKind, isTarget, related⟩
    exact ⟨_, outer, outer', rfl, rfl, isKind, isTarget, related⟩

theorem ContinuedAlike.inside {kind : LoopKind} (isLoop : ∀ type, kind ≠ .switch type)
    (target : Option Nat) : ContinuedAlike (Inside kind target loops) where
  route := by
    rintro _ _ ⟨context, outer, outer', rfl, rfl, rfl, -, -⟩
    unfold continueRoute? continueLoop?
    split
    case h_1 type isSwitch => exact absurd isSwitch (isLoop type)
    case h_2 => rfl
  continues := by
    rintro _ _ site ⟨context, outer, outer', rfl, rfl, rfl, isTarget, related⟩
    unfold addContinue
    split
    case h_1 type isSwitch => exact absurd isSwitch (isLoop type)
    case h_2 => exact ⟨_, outer, outer', rfl, rfl, rfl, isTarget, related⟩

theorem ContinuedAlike.inside_switch (alike : ContinuedAlike loops) (type : DataType)
    (target : Option Nat) : ContinuedAlike (Inside (.switch type) target loops) where
  route := by
    rintro _ _ ⟨context, outer, outer', rfl, rfl, isSwitch, -, related⟩
    have same := alike.route related
    unfold continueRoute? at same ⊢
    simp only [continueLoop?, isSwitch, Option.map_map]
    cases found : continueLoop? outer <;> cases found' : continueLoop? outer' <;>
      simp_all
  continues := by
    rintro _ _ site ⟨context, outer, outer', rfl, rfl, isSwitch, isTarget, related⟩
    simp only [addContinue, isSwitch]
    exact ⟨context, _, _, rfl, rfl, isSwitch, isTarget, alike.continues site related⟩

theorem pushLoop_matches (context : LoopContext) :
    Matches env loops (Inside context.kind context.continueTarget loops) (pushLoop context)
      (pushLoop context) :=
  modify_matches fun s opened pos related =>
    ⟨context :: opened, pos, rfl, context, s.loops, opened, rfl, rfl, rfl, rfl, related⟩

theorem popLoop_matches (kind : LoopKind) (target : Option Nat) :
    Matches env (Inside kind target loops) loops popLoop popLoop := by
  rintro ⟨code, length, types, symbols, scopes, globals, opened, children, declared,
    structs, anonymous, pos⟩ t ⟨_, place, rfl, context, outer, outer', same, rfl, -, -,
    related⟩
  cases same
  exact ⟨rfl, outer', place, rfl, related⟩

theorem emitUnwinding_matches {opened other : List LoopContext}
    (same : other.map (·.kind) = opened.map (·.kind)) :
    Matches env loops loops (emitUnwinding opened) (emitUnwinding other) := by
  induction opened generalizing other with
  | nil =>
    obtain rfl : other = [] := by simpa using same
    exact .pure _
  | cons context outer induction =>
    obtain _ | ⟨context', outer'⟩ := other
    · simp at same
    · simp only [List.map_cons, List.cons.injEq] at same
      unfold emitUnwinding
      rw [same.1]
      cases context.kind with
      | withLoop => exact emitLeaveForGood_matches.bind fun _ => induction same.2
      | switch type => exact (emitSingle_matches _ _).bind fun _ => induction same.2
      | repeatLoop => exact (emitSingle_matches _ _).bind fun _ => induction same.2
      | plain => exact induction same.2

theorem emitBreak_matches (alike : LeftAlike loops) :
    Matches env loops loops emitBreak emitBreak := by
  refine get_matches fun s opened pos related => ?_
  have kinds := alike.kinds related
  -- both states have an open loop or none has
  cases inner : s.loops with
  | nil =>
    obtain rfl : opened = [] := by simpa [inner] using kinds
    exact .fail _ _
  | cons context outer =>
    obtain _ | ⟨context', outer'⟩ := opened
    · simp [inner] at kinds
    · refine (emitBranch_matches _).bind fun site =>
        modify_matches fun u opened pos related => ?_
      have added := alike.breaks site related
      obtain ⟨code, length, types, symbols, scopes, globals, opened', children, declared,
        structs, anonymous, pos'⟩ := u
      cases opened' <;> cases opened <;> exact ⟨_, pos, rfl, added⟩

theorem emitDiscards_matches (types : List DataType) :
    Matches env loops loops (emitDiscards types) (emitDiscards types) := by
  induction types with
  | nil => exact .pure _
  | cons type rest induction => exact (emitSingle_matches _ _).bind fun _ => induction

theorem emitContinue_matches (alike : ContinuedAlike loops) :
    Matches env loops loops emitContinue emitContinue := by
  refine get_matches fun s opened pos related => ?_
  have same := alike.route related
  unfold continueRoute? at same
  cases found : continueLoop? s.loops with
  | none =>
    obtain found' : continueLoop? opened = none := by simpa [found] using same
    simp only [found']
    exact .fail _ _
  | some result =>
    obtain ⟨types, context⟩ := result
    rw [found, Option.map_some, Option.map_eq_some_iff] at same
    obtain ⟨⟨types', context'⟩, found', same⟩ := same
    obtain ⟨rfl, sameTarget⟩ : types' = types ∧
        context'.continueTarget = context.continueTarget := Prod.mk.inj same
    simp only [found', sameTarget]
    refine (emitDiscards_matches _).bind fun _ => ?_
    cases context.continueTarget with
    | some target => exact emitBranchTo_matches _ _
    | none =>
      refine (emitBranch_matches _).bind fun site => ?_
      exact modify_matches fun u opened pos related =>
        ⟨_, pos, rfl, alike.continues site related⟩

theorem emitExit_matches (alike : LeftAlike loops) :
    Matches env loops loops emitExit emitExit :=
  get_matches fun _ _ _ related =>
    (emitUnwinding_matches (alike.kinds related)).bind fun _ => emitSingle_matches _ _

theorem emitReturn_matches (alike : LeftAlike loops) :
    Matches env loops loops emitReturn emitReturn := by
  refine get_matches fun s opened pos related => ?_
  have kinds := alike.kinds related
  have sameAny : opened.any (·.kind != .plain) = s.loops.any (·.kind != .plain) := by
    have asKinds : ∀ l : List LoopContext,
        l.any (·.kind != .plain) = (l.map (·.kind)).any (· != .plain) := by
      intro l
      rw [List.any_map]
      rfl
    rw [asKinds, asKinds, kinds]
  simp only [sameAny]
  refine .ite ?_ (emitSingle_matches _ _)
  exact (emitPopVariable_matches _ _ _).bind fun _ =>
    (emitUnwinding_matches kinds).bind fun _ =>
    (emitPushVariable_matches _ _).bind fun _ => emitSingle_matches _ _

section Branching

variable {condition condition' yes yes' no no' body body' : EmitM Unit}

theorem emitIf_matches (sameCondition : Matches env loops loops condition condition')
    (sameYes : Matches env loops loops yes yes') :
    Matches env loops loops (emitIf condition yes) (emitIf condition' yes') :=
  sameCondition.bind fun _ => (convertTo_matches _).discard.bind fun _ =>
    (emitBranch_matches _).bind fun _ => sameYes.bind fun _ => land_matches _

theorem emitIfElse_matches (sameCondition : Matches env loops loops condition condition')
    (sameYes : Matches env loops loops yes yes')
    (sameNo : Matches env loops loops no no') :
    Matches env loops loops (emitIfElse condition yes no)
      (emitIfElse condition' yes' no') :=
  sameCondition.bind fun _ => (convertTo_matches _).discard.bind fun _ =>
    (emitBranch_matches _).bind fun _ => sameYes.bind fun _ =>
      (emitBranch_matches _).bind fun _ =>
    (land_matches _).bind fun _ => sameNo.bind fun _ => land_matches _

theorem emitWhile_matches (sameCondition : Matches env loops loops condition condition')
    (sameBody : ∀ head, Matches env (Inside .plain (some head) loops)
      (Inside .plain (some head) loops) body body') :
    Matches env loops loops (emitWhile condition body) (emitWhile condition' body') := by
  refine get_matches fun _ _ _ _ => sameCondition.bind fun _ => ?_
  refine (convertTo_matches _).discard.bind fun _ =>
    (emitBranch_matches _).bind fun _ => ?_
  refine (pushLoop_matches _).bind fun _ => (sameBody _).bind fun _ => ?_
  refine (popLoop_matches _ _).bind fun _ => ?_
  exact (emitBranchTo_matches _ _).bind fun _ =>
    (land_matches _).bind fun _ => land_matches _

/-- The body of a loop whose `continue` leads to its end; returns what waits to leave
it. -/
def emitEnclosed (kind : LoopKind) (body : EmitM Unit) : EmitM ForwardPatch := do
  pushLoop { kind }
  body
  let context ← popLoop
  land context.continues
  return context.breaks

theorem emitEnclosed_matches (kind : LoopKind)
    (sameBody : Matches env (Inside kind none loops) (Inside kind none loops) body body') :
    Matches env loops loops (emitEnclosed kind body) (emitEnclosed kind body') :=
  (pushLoop_matches { kind }).bind fun _ => sameBody.bind fun _ =>
    (popLoop_matches _ _).bind fun _ =>
    (land_matches _).bind fun _ => .pure _

theorem emitFor_eq (condition step body : EmitM Unit) :
    emitFor condition step body = (do
      let head := (← get).length
      condition
      let finish ← emitBranch .branchFalse
      let breaks ← emitEnclosed .plain body
      step
      emitBranchTo .branch head
      land (.ofSite finish)
      land breaks) := by
  simp only [emitFor, emitEnclosed, bind_assoc, pure_bind]

theorem emitFor_matches {step step' : EmitM Unit}
    (sameCondition : Matches env loops loops condition condition')
    (sameStep : Matches env loops loops step step')
    (sameBody : Matches env loops loops (emitEnclosed .plain body)
      (emitEnclosed .plain body')) :
    Matches env loops loops (emitFor condition step body)
      (emitFor condition' step' body') := by
  rw [emitFor_eq, emitFor_eq]
  refine get_matches fun _ _ _ _ => sameCondition.bind fun _ =>
    (emitBranch_matches _).bind fun _ => ?_
  exact sameBody.bind fun _ => sameStep.bind fun _ =>
    (emitBranchTo_matches _ _).bind fun _ =>
    (land_matches _).bind fun _ => land_matches _

theorem emitDoUntil_matches (sameCondition : Matches env loops loops condition condition')
    (sameBody : Matches env loops loops (emitEnclosed .plain body)
      (emitEnclosed .plain body')) :
    Matches env loops loops (emitDoUntil body condition)
      (emitDoUntil body' condition') := by
  have unfolded : ∀ body condition : EmitM Unit, emitDoUntil body condition = (do
      let head := (← get).length
      let breaks ← emitEnclosed .plain body
      condition
      discard <| convertTo .boolean
      emitBranchTo .branchFalse head
      land breaks) := by
    intro body condition
    simp only [emitDoUntil, emitEnclosed, bind_assoc, pure_bind]
  rw [unfolded, unfolded]
  refine get_matches fun _ _ _ _ => sameBody.bind fun _ => sameCondition.bind fun _ => ?_
  exact (convertTo_matches _).discard.bind fun _ =>
    (emitBranchTo_matches _ _).bind fun _ =>
    land_matches _

theorem emitRepeat_matches {count count' : EmitM Unit}
    (sameCount : Matches env loops loops count count')
    (sameBody : Matches env loops loops (emitEnclosed .repeatLoop body)
      (emitEnclosed .repeatLoop body')) :
    Matches env loops loops (emitRepeat count body) (emitRepeat count' body') := by
  have unfolded : ∀ count body : EmitM Unit, emitRepeat count body = (do
      count
      discard <| convertTo .int32
      emitDuplicate .int32 0
      emitPushImmediate 0
      emitCompare .lessEqual .int32 .int32
      let finish ← emitBranch .branchTrue
      let head := (← get).length
      let breaks ← emitEnclosed .repeatLoop body
      discard <| emitPushInt32 1
      emitOp .sub .int32 .int32
      emitDuplicate .int32 0
      emitOp .convert .int32 .boolean
      emitBranchTo .branchTrue head
      land (.ofSite finish)
      land breaks
      emitSingle .discard .int32) := by
    intro count body
    simp only [emitRepeat, emitEnclosed, bind_assoc, pure_bind]
  rw [unfolded, unfolded]
  refine sameCount.bind fun _ => (convertTo_matches _).discard.bind fun _ => ?_
  refine (emitDuplicate_matches _ _).bind fun _ =>
    (emitPushImmediate_matches _).bind fun _ => ?_
  refine (emitCompare_matches _ _ _).bind fun _ => (emitBranch_matches _).bind fun _ => ?_
  refine get_matches fun _ _ _ _ => sameBody.bind fun _ => ?_
  refine (emitPushInt32_matches _).discard.bind fun _ =>
    (emitOp_matches _ _ _).bind fun _ => ?_
  refine (emitDuplicate_matches _ _).bind fun _ => (emitOp_matches _ _ _).bind fun _ => ?_
  exact (emitBranchTo_matches _ _).bind fun _ => (land_matches _).bind fun _ =>
    (land_matches _).bind fun _ => emitSingle_matches _ _

theorem emitWith_matches {target target' : EmitM Unit}
    (sameTarget : Matches env loops loops target target')
    (sameBody : Matches env (Inside .withLoop none loops)
      (Inside .withLoop none loops) body body') :
    Matches env loops loops (emitWith target body) (emitWith target' body') := by
  refine sameTarget.bind fun _ => convertToInstance_matches.bind fun _ => ?_
  refine (emitBranch_matches _).bind fun _ => get_matches fun _ _ _ _ => ?_
  refine (pushLoop_matches _).bind fun _ => sameBody.bind fun _ =>
    (popLoop_matches _ _).bind fun _ => ?_
  refine (land_matches _).bind fun _ => (land_matches _).bind fun _ => ?_
  refine (emitBranchTo_matches _ _).bind fun _ => .ite ?_ (.pure _)
  exact (emitBranch_matches _).bind fun _ => (land_matches _).bind fun _ =>
    emitLeaveForGood_matches.bind fun _ => land_matches _

end Branching

section Arms

variable {value value' body body' cleanup cleanup' : EmitM Unit}

theorem emitSwitch_matches {tests tests' : DataType → EmitM (List ForwardPatch)}
    {arms arms' : List ForwardPatch → ForwardPatch → EmitM ForwardPatch}
    (sameValue : Matches env loops loops value value')
    (sameTests : ∀ type, Matches env loops loops (tests type) (tests' type))
    (sameArms : ∀ type jumps fallback, Matches env (Inside (.switch type) none loops)
      (Inside (.switch type) none loops) (arms jumps fallback) (arms' jumps fallback)) :
    Matches env loops loops (emitSwitch value tests arms)
      (emitSwitch value' tests' arms') := by
  refine sameValue.bind fun _ => popType_matches.bind fun type =>
    (sameTests type).bind fun jumps => ?_
  refine (emitBranch_matches _).bind fun fallback => (pushLoop_matches _).bind fun _ => ?_
  refine (sameArms type jumps _).bind fun _ => (popLoop_matches _ _).bind fun _ => ?_
  exact (land_matches _).bind fun _ => (land_matches _).bind fun _ =>
    emitSingle_matches _ _

theorem emitTest_matches (type : DataType) (same : Matches env loops loops value value') :
    Matches env loops loops (emitTest type value) (emitTest type value') :=
  (emitDuplicate_matches _ _).bind fun _ => same.bind fun _ =>
    popType_matches.bind fun _ =>
    (emitCompare_matches _ _ _).bind fun _ => (emitBranch_matches _).bind fun _ => .pure _

theorem emitArm_matches (jump fallback : ForwardPatch) (isDefault : Bool)
    (same : Matches env loops loops body body') :
    Matches env loops loops (emitArm jump fallback isDefault body)
      (emitArm jump fallback isDefault body') := by
  refine (land_matches _).bind fun _ => .ite ?_ ?_
  · exact (land_matches _).bind fun _ => same.bind fun _ => .pure _
  · exact same.bind fun _ => .pure _

theorem emitHandler_matches (catchSite : Nat) (name : String)
    (same : Matches env loops loops body body') :
    Matches env loops loops (emitHandler catchSite name body)
      (emitHandler catchSite name body') :=
  (emitBranch_matches _).bind fun _ => (landAddress_matches _).bind fun _ =>
    (declareLocal_matches _).bind fun _ => (emitPopVariable_matches _ _ _).bind fun _ =>
    same.bind fun _ => (emitCallDiscard_matches _ _).bind fun _ => .pure _

theorem emitTry_matches (hasHandler : Bool) {handler handler' : Nat → EmitM ForwardPatch}
    (sameBody : Matches env loops loops body body')
    (sameHandler : ∀ site, Matches env loops loops (handler site) (handler' site))
    (sameCleanup : Matches env loops loops cleanup cleanup') :
    Matches env loops loops (emitTry hasHandler body handler cleanup)
      (emitTry hasHandler body' handler' cleanup') := by
  refine .read (.guarded ?_)
  refine (emitPushInt32_matches _).bind fun _ => (emitOp_matches _ _ _).bind fun _ => ?_
  refine (emitPushInt32_matches _).bind fun _ => (emitOp_matches _ _ _).bind fun _ => ?_
  refine (emitCallDiscard_matches _ _).bind fun _ => sameBody.bind fun _ => ?_
  refine (emitCallDiscard_matches _ _).bind fun _ => (sameHandler _).bind fun _ => ?_
  exact (landAddress_matches _).bind fun _ => (land_matches _).bind fun _ =>
    sameCleanup.bind fun _ =>
    emitCallDiscard_matches _ _

end Arms

end GameScript.Emission
