import GameScript.Proofs.Emission.Statements

/-! The code of `break`, `continue`, `exit` and `return`. -/

namespace GameScript.Emission

open Builtin Bytecode Number Syntax

variable {env : Environment} {kinds : List LoopKind} {params : List String} {s : Emitter}

def breakPiece : Piece := [Cell.leave .branch .breakLoop]

theorem settled_leave {opcode : Opcode} {way : Way} (offered : Offers kinds way) :
    Piece.Settled kinds [Cell.leave opcode way] := by
  intro cell member other takes
  obtain rfl := List.mem_singleton.mp member
  have same : other = way := by simpa [Cell.Takes, Cell.leave, eq_comm] using takes
  rw [same]
  exact ⟨rfl, offered⟩

theorem emitBreak_emits :
    EmitsStatement env kinds params emitBreak fun _ piece => kinds ≠ [] ∧
    piece = breakPiece := by
  intro s sameKinds _
  unfold emitBreak
  refine ensures_bind.mpr (ensures_get.mpr ?_)
  cases loops : s.loops with
  | nil => exact trivial
  | cons context outer =>
    have inside : s.kinds ≠ [] := by simp [Emitter.kinds, loops]
    refine ensures_bind.mpr (ensures_emitBranch.mpr (ensures_modify.mpr ?_))
    have noted : (s.appended { opcode := .branch }).loops = context :: outer := loops
    simp only [noted]
    have unknown : aimsOf s.loops .breakLoop = none := rfl
    refine ⟨breakPiece, ?_, sameKinds ▸ inside, rfl⟩
    exact {
      growth := (extends_leave s .branch unknown).of_same rfl rfl rfl rfl rfl rfl rfl rfl
      settled := settled_leave inside
      types := rfl
      loops := by simp [note, breakPiece, noteBreaks, loops, ForwardPatch.add]
      frames := rfl }

/-- Types of the values of the `switch` statements inside the innermost loop. -/
def switchTypes : List LoopKind → List DataType
  | .switch type :: outer => type :: switchTypes outer
  | _ => []

def discards (types : List DataType) : Piece := types.map (Cell.single .discard)

def continuePiece (kinds : List LoopKind) : Piece :=
  discards (switchTypes kinds) ++ [Cell.leave .branch .continueLoop]

theorem emitDiscards_adds (types : List DataType) (s : Emitter) :
    Ensures env s (emitDiscards types) fun _ t => Adds s t (discards types) s.types := by
  induction types generalizing s with
  | nil => exact Adds.refl s
  | cons type rest induction =>
    refine (emitSingle_adds .discard type).bind fun _ t dropping => ?_
    refine (induction t).mono fun _ u more => ?_
    rw [dropping.types] at more
    exact dropping.append more

variable {loops : List LoopContext} {types : List DataType} {context : LoopContext}

/-- Induction from the loop that `continue` refers to through the `switch` statements
inside it. -/
theorem continueLoop?_induction
    {motive : List LoopContext → List DataType → LoopContext → Prop}
    (loop : ∀ context outer, (∀ type, context.kind ≠ .switch type) →
      motive (context :: outer) [] context)
    (switch : ∀ first outer type types context, first.kind = .switch type →
      motive outer types context → motive (first :: outer) (type :: types) context)
    (found : continueLoop? loops = some (types, context)) :
    motive loops types context := by
  induction loops generalizing types with
  | nil => simp [continueLoop?] at found
  | cons first outer induction =>
    rw [continueLoop?] at found
    cases kind : first.kind with
    | switch type =>
      simp only [kind, Option.map_eq_some_iff] at found
      obtain ⟨⟨innerTypes, inner⟩, foundInner, same⟩ := found
      obtain ⟨rfl, rfl⟩ := Prod.mk.inj same
      exact switch first outer type innerTypes inner kind (induction foundInner)
    | plain | withLoop | repeatLoop =>
      simp only [kind, Option.some.injEq, Prod.mk.injEq] at found
      obtain ⟨rfl, rfl⟩ := found
      exact loop first outer (by simp [kind])

theorem continueLoop?_kinds (found : continueLoop? loops = some (types, context)) :
    types = switchTypes (loops.map (·.kind)) ∧
    beyondSwitches (loops.map (·.kind)) ≠ [] := by
  refine continueLoop?_induction (motive := fun loops types _ =>
    types = switchTypes (loops.map (·.kind)) ∧
      beyondSwitches (loops.map (·.kind)) ≠ []) ?_ ?_ found
  · intro context outer notSwitch
    cases kind : context.kind <;> simp_all [switchTypes, beyondSwitches]
  · intro first outer type types context kind later
    simpa [kind, switchTypes, beyondSwitches] using later

theorem addContinue_eq
    (found : continueLoop? loops = some (types, context))
    (unknown : context.continueTarget = none)
    (site : Nat) : addContinue site loops = noteContinues [site] loops := by
  revert unknown
  refine continueLoop?_induction
    (motive := fun loops _ context => context.continueTarget = none →
    addContinue site loops = noteContinues [site] loops) ?_ ?_ found
  · intro context outer notSwitch unknown
    cases kind : context.kind <;>
      simp_all [addContinue, noteContinues, LoopContext.noteContinues, ForwardPatch.add]
  · intro first outer type types context kind later unknown
    simp [addContinue, noteContinues, kind, later unknown]

theorem noteContinues_known {target : Nat}
    (found : continueLoop? loops = some (types, context))
    (known : context.continueTarget = some target) (sites : List Nat) :
    noteContinues sites loops = loops := by
  revert known
  refine continueLoop?_induction (motive := fun loops _ context =>
    context.continueTarget = some target → noteContinues sites loops = loops) ?_ ?_ found
  · intro context outer notSwitch known
    cases kind : context.kind <;> simp_all [noteContinues, LoopContext.noteContinues]
  · intro first outer type types context kind later known
    simp [noteContinues, kind, later known]

theorem emitContinue_emits :
    EmitsStatement env kinds params emitContinue fun _ piece =>
      beyondSwitches kinds ≠ [] ∧ piece = continuePiece kinds := by
  intro s sameKinds _
  subst sameKinds
  unfold emitContinue
  refine ensures_bind.mpr (ensures_get.mpr ?_)
  cases found : continueLoop? s.loops with
  | none => exact trivial
  | some result =>
    obtain ⟨types, context⟩ := result
    obtain ⟨isTypes, offered⟩ := continueLoop?_kinds found
    refine (emitDiscards_adds types s).bind fun _ t dropping => ?_
    have dropped : Lays s t (discards (switchTypes s.kinds)) := by
      rw [isTypes] at dropping
      exact Lays.ofAdds dropping
    have aim : aimsOf t.loops .continueLoop = context.continueTarget := by
      rw [dropping.loops, aimsOf, continueAim, found]
      rfl
    have settled : Piece.Settled t.kinds [Cell.leave .branch .continueLoop] :=
      settled_leave (by rw [dropped.kinds]; exact offered)
    rw [← dropping.loops] at found
    cases target : context.continueTarget with
    | some address =>
      refine ensures_emitBranchTo.mpr
        ⟨continuePiece s.kinds, dropped.append ?_, offered, rfl⟩
      exact {
        growth := extends_branched t .branch (aim.trans target)
        settled
        types := rfl
        loops := by
          simp only [note, Piece.leaves_cons_leave, Piece.leaves_nil, if_pos, reduceCtorEq,
            if_false, noteBreaks_none]
          rw [noteContinues_known found target]
          rfl
        frames := rfl }
    | none =>
      refine ensures_bind.mpr (ensures_emitBranch.mpr (ensures_modify.mpr ?_))
      refine ⟨continuePiece s.kinds, dropped.append ?_, offered, rfl⟩
      exact {
        growth :=
          (extends_leave t .branch (aim.trans target)).of_same rfl rfl rfl rfl rfl rfl
          rfl rfl
        settled
        types := rfl
        loops := by
          simp only [note, Piece.leaves_cons_leave, Piece.leaves_nil, if_pos, reduceCtorEq,
            if_false, noteBreaks_none]
          exact addContinue_eq found target t.code.size
        frames := rfl }

def unwindCells : LoopKind → Piece
  | .withLoop => [Cell.leaveForGood]
  | .switch type => [Cell.single .discard type]
  | .repeatLoop => [Cell.single .discard .int32]
  | .plain => []

def unwindPiece (kinds : List LoopKind) : Piece := kinds.flatMap unwindCells

def exitPiece (kinds : List LoopKind) : Piece :=
  unwindPiece kinds ++ [Cell.single .exit .int32]

def returnTemp : VariableUse := .plain Internal.returnTemp .locals

def returnPiece (kinds : List LoopKind) : Piece :=
  if kinds.any (· != .plain) then
    [Cell.popVariable .variant .variant returnTemp] ++ unwindPiece kinds ++
      [Cell.pushVariable .pushLocal returnTemp] ++ [Cell.single .ret .variant]
  else [Cell.single .ret .variant]

theorem emitUnwinding_adds (loops : List LoopContext) (s : Emitter) :
    Ensures env s (emitUnwinding loops) fun _ t =>
      Adds s t (unwindPiece (loops.map (·.kind))) s.types := by
  induction loops generalizing s with
  | nil => exact Adds.refl s
  | cons context outer induction =>
    unfold emitUnwinding
    rw [List.map_cons, unwindPiece, List.flatMap_cons]
    cases context.kind with
    | withLoop =>
      refine emitLeaveForGood_adds.bind fun _ t leaving => ?_
      refine (induction t).mono fun _ u more => ?_
      rw [leaving.types] at more
      exact leaving.append more
    | switch type =>
      refine (emitSingle_adds .discard type).bind fun _ t dropping => ?_
      refine (induction t).mono fun _ u more => ?_
      rw [dropping.types] at more
      exact dropping.append more
    | repeatLoop =>
      refine (emitSingle_adds .discard .int32).bind fun _ t dropping => ?_
      refine (induction t).mono fun _ u more => ?_
      rw [dropping.types] at more
      exact dropping.append more
    | plain => exact induction s

theorem emitExit_emits :
    EmitsStatement env kinds params emitExit fun _ piece => piece = exitPiece kinds := by
  intro s sameKinds _
  subst sameKinds
  unfold emitExit
  refine ensures_bind.mpr (ensures_get.mpr ?_)
  refine (emitUnwinding_adds s.loops s).bind fun _ t unwinding => ?_
  refine (emitSingle_adds .exit .int32).mono fun _ u ending => ?_
  rw [unwinding.types] at ending
  exact ⟨_, Lays.ofAdds (unwinding.append ending), rfl⟩

theorem emitReturn_adds :
    Ensures env s emitReturn fun _ t => Adds s t (returnPiece s.kinds) s.types := by
  unfold emitReturn
  refine ensures_bind.mpr (ensures_get.mpr ?_)
  have same : s.kinds.any (· != .plain) = s.loops.any (·.kind != .plain) := by
    rw [Emitter.kinds, List.any_map]
    rfl
  refine ensures_ite (fun inLoops => ?_) (fun outside => ?_)
  · refine (emitPopVariable_adds .variant .variant returnTemp).bind fun _ t popping => ?_
    refine (emitUnwinding_adds s.loops t).bind fun _ u unwinding => ?_
    refine (emitPushVariable_adds .pushLocal returnTemp).bind fun _ v pushing => ?_
    refine (emitSingle_adds .ret .variant).mono fun _ w returning => ?_
    rw [returnPiece, same, if_pos inLoops]
    rw [pushing.types, unwinding.types, popping.types] at returning
    exact ((popping.append unwinding).append pushing).append returning
  · rw [returnPiece, same, if_neg outside]
    exact emitSingle_adds .ret .variant

end GameScript.Emission
