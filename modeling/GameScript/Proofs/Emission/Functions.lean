import GameScript.Proofs.Emission.Expressions

/-! The code of functions, which the code around them jumps over. -/

namespace GameScript.Emission

open Builtin Bytecode Number Syntax

variable {env : Environment} {s t u : Emitter} {piece : Piece} {types : List DataType}

def endOfBody : Piece := [Cell.single .exit .int32]

def functionSegments (body : Piece) : List Piece :=
  [[Cell.leave .branch (.ahead 2)], (body ++ endOfBody).opened]

def functionPiece (body : Piece) : Piece :=
  Piece.join (exitsTo [none, none, some 2]) (functionSegments body)

theorem Piece.Closed.opened (closed : piece.Closed) : piece.opened.Closed := by
  intro cell member way takes
  obtain ⟨old, oldMember, same⟩ := mem_opened member
  rw [same] at takes
  exact closed old oldMember way takes

theorem head?_body {body : Piece}
    (unopened : ∀ cell ∈ body.head?, cell.opensBody = false) :
    ∀ cell ∈ (body ++ endOfBody).head?, cell.opensBody = false := by
  cases body with
  | nil => simp [endOfBody, Cell.single]
  | cons first rest => exact unopened

theorem Adds.addChild (adds : Adds s t piece types) (child : ChildFunction)
    (nonempty : piece ≠ []) (start : child.offset = s.length)
    (unopened : ∀ cell ∈ piece.head?, cell.opensBody = false) :
    Adds s { t with children := t.children.push child } piece.opened types where
  growth := fun aims => (adds.growth aims).addChild nonempty start unopened
  closed := adds.closed.opened
  types := adds.types
  loops := adds.loops
  frames := adds.frames

/-- A function whose body has been emitted after a branch is skipped by that branch. -/
private theorem skip_adds {body : Piece}
    (inner : Adds (s.appended { opcode := .branch }) t
      (body ++ endOfBody).opened s.types) :
    Adds s (t.landed (.ofSite s.code.size)) (functionPiece body) s.types := by
  have skipping := (Builds.start s fun _ => none).branch .branch 2 rfl
  have built := skipping.adds inner
  have landed := built.land (.ofSite s.code.size) 2 rfl
    (by simp [inner.closed.awaits])
    (by simp [inner.closed.leaves, ForwardPatch.ofSite])
  refine landed.finishValue ?_ ?_
  · exact ⟨Piece.fits_leave rfl, inner.closed.fits, trivial⟩
  · exact ⟨by simp [Aims.know, built.length], trivial⟩

theorem nextStructName_adds :
    Ensures env s nextStructName fun _ t => Adds s t [] s.types :=
  (Adds.refl s).of_same rfl rfl rfl rfl rfl rfl rfl

theorem functionName_adds (name : Option String) :
    Ensures env s (functionName name) fun _ t => Adds s t [] s.types := by
  cases name with
  | some _ => exact Adds.refl s
  | none => exact (Adds.refl s).of_same rfl rfl rfl rfl rfl rfl rfl

def fieldStores : Nat → List String → Piece
  | _, [] => []
  | index, field :: rest =>
    [Cell.pushVariable .push (.plain s!"argument{index}" .argument),
      Cell.popVariable .variant .variant (.plain field .self)] ++ fieldStores
        (index + 1) rest

theorem emitFieldStores_adds (fields : List String) (index : Nat) (s : Emitter) :
    Ensures env s (emitFieldStores index fields) fun _ t =>
      Adds s t (fieldStores index fields) s.types := by
  induction fields generalizing index s with
  | nil => exact Adds.refl s
  | cons field rest induction =>
    refine (emitPushVariable_adds _ _).bind fun _ t pushing => ?_
    refine (emitPopVariable_adds _ _ _).bind fun _ u popping => ?_
    refine (induction (index + 1) u).mono fun _ v storing => ?_
    rw [popping.types, pushing.types] at storing
    exact (pushing.append popping).append storing

theorem emitStructBody_adds (fields : List String) (s : Emitter) :
    Ensures env s (emitStructBody fields) fun _ t =>
      Adds s t (functionPiece (fieldStores 0 fields)) s.types := by
  unfold emitStructBody
  refine nextStructName_adds.bind fun name t naming => ?_
  refine ensures_bind.mpr (ensures_emitBranch.mpr ?_)
  refine ensures_bind.mpr (ensures_get.mpr ?_)
  refine (emitFieldStores_adds fields 0 _).bind fun _ u storing => ?_
  refine (emitSingle_adds .exit .int32).bind fun _ v ending => ?_
  rw [storing.types] at ending
  refine ensures_bind.mpr (ensures_modify.mpr ?_)
  refine ensures_bind.mpr (ensures_land.mpr (ensures_pure.mpr ?_))
  have inner := (storing.append ending).addChild
    ⟨name, (t.appended { opcode := .branch }).length, capped fields.length, 0, true⟩
    (by simp) rfl
    (head?_body (by cases fields <;> simp [fieldStores, Cell.pushVariable]))
  have skipped := naming.append (skip_adds inner)
  rwa [naming.types] at skipped

theorem emitFunctionBody_emits {name : Option String} {params declared : List String}
    {isConstructor : Bool} {body : EmitM Unit} {isBody : Piece → Prop}
    (isStatement : EmitsStatement env [] params body fun _ => isBody)
    (unopened : ∀ b, isBody b → ∀ cell ∈ b.head?, cell.opensBody = false) (s : Emitter) :
    Ensures env s (emitFunctionBody name params isConstructor declared body) fun _ t =>
      ∃ b, isBody b ∧ Adds s t (functionPiece b) s.types := by
  unfold emitFunctionBody
  refine (functionName_adds name).bind fun functionName t named => ?_
  refine ensures_bind.mpr (ensures_emitBranch.mpr ?_)
  refine ensures_bind.mpr (ensures_get.mpr ?_)
  refine ensures_bind.mpr (ensures_get.mpr ?_)
  refine ensures_bind.mpr (ensures_modify.mpr ?_)
  refine ensures_bind.mpr (ensures_modify.mpr ?_)
  refine (isStatement _ rfl rfl).bind fun _ u ⟨b, lays, held⟩ => ?_
  have adds := lays.adds rfl
  refine ensures_bind.mpr (ensures_bind.mpr (ensures_get.mpr (ensures_pure.mpr ?_)))
  refine ensures_bind.mpr (ensures_modify.mpr ?_)
  -- The scope and the loops of the function are gone again.
  have closing : Adds (t.appended { opcode := .branch })
      { u with scopes := u.scopes.tail, loops := t.loops } b t.types :=
    { growth := fun aims => (adds.growth aims).of_same rfl rfl rfl rfl rfl rfl rfl rfl
      closed := adds.closed
      types := adds.types
      loops := rfl
      frames := by
        have frames := adds.frames
        simp only [Emitter.frames, List.map_tail] at frames ⊢
        rw [frames]
        rfl }
  change Ensures env { u with scopes := u.scopes.tail, loops := t.loops } _ _
  generalize ({ u with scopes := u.scopes.tail, loops := t.loops } : Emitter)
    = w at closing ⊢
  refine (emitSingle_adds .exit .int32).bind fun _ v ending => ?_
  rw [closing.types] at ending
  refine ensures_bind.mpr (ensures_modify.mpr ?_)
  refine ensures_bind.mpr (ensures_land.mpr (ensures_pure.mpr ?_))
  refine ⟨b, held, ?_⟩
  have inner := (closing.append ending).addChild
    ⟨functionName, (t.appended { opcode := .branch }).length, capped params.length,
      capped (u.scopes.headD {}).locals.items.length, isConstructor⟩ (by simp) rfl
    (head?_body (unopened b held))
  have skipped := named.append (skip_adds inner)
  rwa [named.types] at skipped

def bindPiece (function : String) (owner : Instance) : Piece :=
  [Cell.pushFunction function, Cell.op .convert .int32 .variant,
    Cell.pushImmediate owner.code, Cell.op .convert .int32 .variant,
    Cell.call Internal.method 2]

theorem emitBind_adds (function : String) (owner : Instance) :
    Ensures env s (emitBind function owner) fun _ t =>
      Adds s t (bindPiece function owner) s.types := by
  unfold emitBind
  refine (emitPushFunction_adds function).bind fun _ t pushing => ?_
  refine (emitOp_adds .convert .int32 .variant).bind fun _ u converting => ?_
  refine (emitPushImmediate_adds owner.code).bind fun _ v pushingOwner => ?_
  refine (emitOp_adds .convert .int32 .variant).bind fun _ w convertingOwner => ?_
  refine (emitCall_adds Internal.method 2).mono fun _ x ⟨_, calling⟩ => ?_
  rw [convertingOwner.types, pushingOwner.types, converting.types,
    pushing.types] at calling
  exact (pushing.append converting).append
    ((pushingOwner.append convertingOwner).append calling)

end GameScript.Emission
