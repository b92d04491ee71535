import GameScript.Proofs.Emission.Construct

/-! The code of each statement, given the code of its parts. -/

namespace GameScript.Emission

open Bytecode Number Syntax

namespace Piece

variable (opcode : Opcode) (way other : Way) (index : Nat) (rest : Piece)

@[simp] theorem leaves_nil : leaves way index [] = [] := rfl

@[simp] theorem awaits_nil : awaits way index [] = [] := rfl

@[simp] theorem leaves_cons_leave :
    leaves way index (Cell.leave opcode other :: rest) =
      if other = way then index :: leaves way (index + 1) rest else leaves way
        (index + 1) rest := by
  simp [leaves, Cell.leave]

@[simp] theorem awaits_cons_leave :
    awaits way index (Cell.leave opcode other :: rest) = awaits way (index + 1) rest := by
  simp [awaits, Cell.leave]

end Piece

section

variable {env : Environment} {kinds : List LoopKind} {params : List String}
  {isCondition : Spot → DataType → Piece → Prop} {isYes isNo isBody : Spot → Piece → Prop}
  {condition yes no body : EmitM Unit}

def conditionPiece (condition : Piece) (type : DataType) : Piece :=
  condition ++ conversion type .boolean

variable {post : Unit → Emitter → Prop} {next : EmitM Unit}

theorem condition_adds (isValue : EmitsValue env condition isCondition) (s : Emitter)
    (continuing : ∀ type piece t, isCondition s.spot type piece →
      Adds s t (conditionPiece piece type) s.types → Ensures env t next post) :
    Ensures env s (do
      condition
      discard (convertTo .boolean)
      next) post := by
  refine (isValue s).bind fun _ t ⟨type, piece, adds, held⟩ => ?_
  refine (convert_adds .boolean adds.types).bind fun _ u converting => ?_
  exact continuing type piece u held (adds.append converting)

def ifSegments (condition yes : Piece) : List Piece :=
  [condition, [Cell.leave .branchFalse (.ahead 2)], yes]

def ifPiece (condition yes : Piece) : Piece :=
  Piece.join (exitsTo [none, none, some 3]) (ifSegments condition yes)

theorem emitIf_emits (isValue : EmitsValue env condition isCondition)
    (isStatement : EmitsStatement env kinds params yes isYes) :
    EmitsStatement env kinds params (emitIf condition yes) fun spot piece =>
      ∃ type c y, isCondition spot type c ∧
        isYes (spot.after ((ifSegments (conditionPiece c type) y).take 2).flatten) y ∧
        piece = ifPiece (conditionPiece c type) y := by
  intro s sameKinds sameParams
  refine condition_adds isValue s fun type c t held adds => ?_
  have tested := (Builds.start s fun _ => none).adds adds
  refine ensures_bind.mpr (ensures_emitBranch.mpr ?_)
  have branched := tested.branch .branchFalse 2 rfl
  refine branched.statement sameKinds sameParams isStatement
    fun u y heldYes settled built => ?_
  refine ensures_land.mpr ?_
  have landed := built.land (.ofSite t.code.size) 2 rfl
    (by simp [adds.closed.awaits, settled.awaits])
    (by simp [adds.closed.leaves, settled.leaves_ahead, tested.size,
      ForwardPatch.ofSite])
  refine ⟨ifPiece (conditionPiece c type) y, landed.finish ?_ ?_, type, c, y,
    held, heldYes, rfl⟩
  · exact ⟨adds.closed.fits, Piece.fits_leave rfl, settled.fits, trivial⟩
  · exact ⟨by simp [Aims.know, built.length], trivial⟩

def ifElseSegments (condition yes no : Piece) : List Piece :=
  [condition, [Cell.leave .branchFalse (.ahead 2)], yes,
    [Cell.leave .branch (.ahead 3)], no]

def ifElsePiece (condition yes no : Piece) : Piece :=
  Piece.join (exitsTo [none, none, some 4, some 5]) (ifElseSegments condition yes no)

theorem emitIfElse_emits (isValue : EmitsValue env condition isCondition)
    (isStatement : EmitsStatement env kinds params yes isYes)
    (isOther : EmitsStatement env kinds params no isNo) :
    EmitsStatement env kinds params (emitIfElse condition yes no) fun spot piece =>
      ∃ type c y n, isCondition spot type c ∧
        isYes
          (spot.after ((ifElseSegments (conditionPiece c type) y n).take 2).flatten) y ∧
        isNo (spot.after ((ifElseSegments (conditionPiece c type) y n).take 4).flatten) n ∧
        piece = ifElsePiece (conditionPiece c type) y n := by
  intro s sameKinds sameParams
  refine condition_adds isValue s fun type c t held adds => ?_
  have tested := (Builds.start s fun _ => none).adds adds
  refine ensures_bind.mpr (ensures_emitBranch.mpr ?_)
  have branched := tested.branch .branchFalse 2 rfl
  refine branched.statement sameKinds sameParams isStatement
    fun u y heldYes settledYes first => ?_
  refine ensures_bind.mpr (ensures_emitBranch.mpr ?_)
  have skipping := first.branch .branch 3 rfl
  refine ensures_bind.mpr (ensures_land.mpr ?_)
  have landed := skipping.land (.ofSite t.code.size) 2 rfl
    (by simp [adds.closed.awaits, settledYes.awaits])
    (by simp [adds.closed.leaves, settledYes.leaves_ahead, tested.size,
      ForwardPatch.ofSite])
  refine landed.statement sameKinds sameParams isOther
    fun v n heldNo settledNo second => ?_
  refine ensures_land.mpr ?_
  have finished := second.land (.ofSite u.code.size) 3 rfl
    (by simp [adds.closed.awaits, settledYes.awaits, settledNo.awaits])
    (by
      simp [adds.closed.leaves, settledYes.leaves_ahead,
        settledNo.leaves_ahead, first.size, ForwardPatch.ofSite]
      omega)
  refine ⟨ifElsePiece (conditionPiece c type) y n, finished.finish ?_ ?_, type, c, y, n,
    held, heldYes, heldNo, rfl⟩
  · exact ⟨adds.closed.fits, Piece.fits_leave rfl, settledYes.fits, Piece.fits_leave rfl,
      settledNo.fits, trivial⟩
  · refine ⟨?_, ?_, trivial⟩
    · simp [Aims.know, skipping.length]
    · simp [Aims.know, second.length]

def whileSegments (condition body : Piece) : List Piece :=
  [condition, [Cell.leave .branchFalse (.ahead 2)], body.redirect enclose,
    [Cell.leave .branch (.ahead 3)]]

def whilePiece (condition body : Piece) : Piece :=
  Piece.join (exitsTo [some 4, some 0, some 4, some 0]) (whileSegments condition body)

theorem emitWhile_emits (isValue : EmitsValue env condition isCondition)
    (isStatement : EmitsStatement env (.plain :: kinds) params body isBody) :
    EmitsStatement env kinds params (emitWhile condition body) fun spot piece =>
      ∃ type c b, isCondition spot type c ∧
        isBody (spot.after ((whileSegments (conditionPiece c type) b).take 2).flatten) b ∧
        piece = whilePiece (conditionPiece c type) b := by
  intro s sameKinds sameParams
  refine ensures_bind.mpr (ensures_get.mpr ?_)
  refine condition_adds isValue s fun type c t held adds => ?_
  have tested := (Builds.start s fun | 1 | 3 => some s.length | _ => none).adds adds
  refine ensures_bind.mpr (ensures_emitBranch.mpr ?_)
  have branched := tested.branch .branchFalse 2 rfl
  refine branched.body (by simp) ?_ rfl rfl sameParams (sameKinds ▸ isStatement)
    fun u b context heldBody settled sameTarget holds built => ?_
  · exact (adds.closed.takesOnly _).append
      ((Piece.TakesOnly.leave (Nat.le_refl 2)).append .nil)
  refine ensures_bind.mpr (ensures_emitBranchTo.mpr ?_)
  have looping := built.branchTo .branch 3 rfl
  refine ensures_bind.mpr (ensures_land.mpr ?_)
  have landed := looping.land (.ofSite t.code.size) 2 rfl
    (by simp [adds.closed.awaits, settled.awaits_enclosed])
    (by simp [adds.closed.leaves, settled.leaves_own 0, tested.size,
      ForwardPatch.ofSite])
  refine ensures_land.mpr ?_
  have finished := landed.land context.breaks 0 rfl
    (by simp [adds.closed.awaits, settled.awaits_enclosed])
    (by simp [holds.breaks, adds.closed.leaves])
  refine ⟨whilePiece (conditionPiece c type) b, finished.finish ?_ ?_, type, c, b,
    held, heldBody, rfl⟩
  · exact ⟨adds.closed.fits, Piece.fits_leave rfl, settled.fits_enclosed rfl rfl,
      Piece.fits_leave rfl, trivial⟩
  · refine ⟨?_, ?_, ?_, ?_, trivial⟩
    · simp [Aims.know, landed.length]
    · simp [Aims.know, labelled]
    · simp [Aims.know, looping.length]
    · simp [Aims.know, labelled]

def forSegments (condition step body : Piece) : List Piece :=
  [condition, [Cell.leave .branchFalse (.ahead 2)], body.redirect enclose, step,
    [Cell.leave .branch (.ahead 3)]]

def forPiece (condition step body : Piece) : Piece :=
  Piece.join (exitsTo [some 5, some 3, some 5, some 0]) (forSegments condition step body)

theorem emitFor_emits {step : EmitM Unit} {isTest isStep : Spot → Piece → Prop}
    (isClosed : EmitsClosed env condition isTest)
    (isStepping : EmitsStatement env kinds params step isStep)
    (isStatement : EmitsStatement env (.plain :: kinds) params body isBody) :
    EmitsStatement env kinds params (emitFor condition step body) fun spot piece =>
      ∃ c p b, isTest spot c ∧ isBody (spot.after ((forSegments c p b).take 2).flatten) b ∧
        isStep (spot.after ((forSegments c p b).take 3).flatten) p ∧
        piece = forPiece c p b := by
  intro s sameKinds sameParams
  refine ensures_bind.mpr (ensures_get.mpr ?_)
  refine (isClosed s).bind fun _ t ⟨c, adds, held⟩ => ?_
  have tested := (Builds.start s fun | 3 => some s.length | _ => none).adds adds
  refine ensures_bind.mpr (ensures_emitBranch.mpr ?_)
  have branched := tested.branch .branchFalse 2 rfl
  refine branched.body (by simp) ?_ rfl rfl sameParams (sameKinds ▸ isStatement)
    fun u b context heldBody settled sameTarget holds built => ?_
  · exact (adds.closed.takesOnly _).append
      ((Piece.TakesOnly.leave (Nat.le_refl 2)).append .nil)
  refine ensures_bind.mpr (ensures_land.mpr ?_)
  have continued := built.land context.continues 1 rfl
    (by simp [adds.closed.awaits, settled.awaits_enclosed])
    (holds.continues sameTarget)
  refine continued.statement sameKinds sameParams isStepping
    fun v p heldStep settledStep stepped => ?_
  refine ensures_bind.mpr (ensures_emitBranchTo.mpr ?_)
  have looping := stepped.branchTo .branch 3 rfl
  refine ensures_bind.mpr (ensures_land.mpr ?_)
  have landed := looping.land (.ofSite t.code.size) 2 rfl
    (by simp [adds.closed.awaits, settled.awaits_enclosed, settledStep.awaits])
    (by simp [adds.closed.leaves, settled.leaves_own 0, tested.size,
      settledStep.leaves_ahead, ForwardPatch.ofSite])
  refine ensures_land.mpr ?_
  have finished := landed.land context.breaks 0 rfl
    (by simp [adds.closed.awaits, settled.awaits_enclosed, settledStep.awaits])
    (by simp [holds.breaks, adds.closed.leaves, settledStep.leaves_ahead])
  refine ⟨forPiece c p b, finished.finish ?_ ?_, c, p, b, held, heldBody, heldStep, rfl⟩
  · exact ⟨adds.closed.fits, Piece.fits_leave rfl, settled.fits_enclosed rfl rfl,
      settledStep.fits, Piece.fits_leave rfl, trivial⟩
  · refine ⟨?_, ?_, ?_, ?_, trivial⟩
    · simp [Aims.know, landed.length]
    · have bodyLength : u.length = _ := built.length
      simp [Aims.know, bodyLength]
    · simp [Aims.know, looping.length]
    · simp [Aims.know, labelled]

def doUntilSegments (body condition : Piece) : List Piece :=
  [body.redirect enclose, condition, [Cell.leave .branchFalse (.ahead 2)]]

def doUntilPiece (body condition : Piece) : Piece :=
  Piece.join (exitsTo [some 3, some 1, some 0]) (doUntilSegments body condition)

theorem emitDoUntil_emits
    (isStatement : EmitsStatement env (.plain :: kinds) params body isBody)
    (isValue : EmitsValue env condition isCondition) :
    EmitsStatement env kinds params (emitDoUntil body condition) fun spot piece =>
      ∃ type b c, isBody spot b ∧
        isCondition
          (spot.after ((doUntilSegments b (conditionPiece c type)).take 1).flatten)
          type c ∧
        piece = doUntilPiece b (conditionPiece c type) := by
  intro s sameKinds sameParams
  refine ensures_bind.mpr (ensures_get.mpr ?_)
  have started := Builds.start s fun | 2 => some s.length | _ => none
  refine started.body (by simp) .nil rfl rfl sameParams (sameKinds ▸ isStatement)
    fun u b context heldBody settled sameTarget holds built => ?_
  refine ensures_bind.mpr (ensures_land.mpr ?_)
  have continued := built.land context.continues 1 rfl
    (by simp [settled.awaits_enclosed]) (holds.continues sameTarget)
  refine condition_adds isValue _ fun type c v held adds => ?_
  rw [continued.types] at adds
  have tested := continued.adds adds
  refine ensures_bind.mpr (ensures_emitBranchTo.mpr ?_)
  have looping := tested.branchTo .branchFalse 2 rfl
  refine ensures_land.mpr ?_
  have finished := looping.land context.breaks 0 rfl
    (by simp [adds.closed.awaits, settled.awaits_enclosed])
    (by simp [holds.breaks, adds.closed.leaves])
  refine ⟨doUntilPiece b (conditionPiece c type), finished.finish ?_ ?_, type, b, c,
    heldBody, ?_, rfl⟩
  · exact ⟨settled.fits_enclosed rfl rfl, adds.closed.fits, Piece.fits_leave rfl, trivial⟩
  · refine ⟨?_, ?_, ?_, trivial⟩
    · simp [Aims.know, looping.length]
    · have bodyLength : u.length = _ := built.length
      simp [Aims.know, bodyLength]
    · simp [Aims.know, labelled]
  · rw [continued.spot] at held
    exact held

def repeatTest : Piece :=
  [Cell.duplicate .int32 0, Cell.pushImmediate 0, Cell.compare .lessEqual .int32 .int32]

def repeatStep : Piece :=
  [Cell.pushInt32 1, Cell.op .sub .int32 .int32, Cell.duplicate .int32 0,
    Cell.op .convert .int32 .boolean]

def repeatHead (count : Piece) : Piece := count ++ repeatTest

def repeatSegments (count body : Piece) : List Piece :=
  [repeatHead count, [Cell.leave .branchTrue (.ahead 2)], body.redirect enclose,
    repeatStep, [Cell.leave .branchTrue (.ahead 3)], [Cell.single .discard .int32]]

def repeatPiece (count body : Piece) : Piece :=
  Piece.join (exitsTo [some 5, some 3, some 5, some 2]) (repeatSegments count body)

private theorem repeatTest_adds {s : Emitter}
    (continuing : ∀ t, Adds s t repeatTest s.types → Ensures env t next post) :
    Ensures env s (do
      emitDuplicate .int32 0
      emitPushImmediate 0
      emitCompare .lessEqual .int32 .int32
      next) post := by
  refine (emitDuplicate_adds .int32 0).bind fun _ t copied => ?_
  refine (emitPushImmediate_adds 0).bind fun _ u pushed => ?_
  refine (emitCompare_adds .lessEqual .int32 .int32).bind fun _ v compared => ?_
  refine continuing v ?_
  have all := (copied.append pushed).append compared
  rw [pushed.types, copied.types] at all
  exact all

private theorem repeatStep_adds {s : Emitter}
    (continuing : ∀ t, Adds s t repeatStep s.types → Ensures env t next post) :
    Ensures env s (do
      discard (emitPushInt32 1)
      emitOp .sub .int32 .int32
      emitDuplicate .int32 0
      emitOp .convert .int32 .boolean
      next) post := by
  rw [ensures_bind, ensures_discard]
  refine (emitPushInt32_adds 1).mono fun _ t pushed => ?_
  refine (emitOp_adds .sub .int32 .int32).bind fun _ u lowered => ?_
  refine (emitDuplicate_adds .int32 0).bind fun _ v copied => ?_
  refine (emitOp_adds .convert .int32 .boolean).bind fun _ w converted => ?_
  refine continuing w ?_
  have all := ((pushed.append lowered).append copied).append converted
  rw [copied.types, lowered.types, pushed.types] at all
  exact all

def countPiece (count : Piece) (type : DataType) : Piece := count ++ conversion type .int32

theorem emitRepeat_emits {count : EmitM Unit} {isCount : Spot → DataType → Piece → Prop}
    (isValue : EmitsValue env count isCount)
    (isStatement : EmitsStatement env (.repeatLoop :: kinds) params body isBody) :
    EmitsStatement env kinds params (emitRepeat count body) fun spot piece =>
      ∃ type c b, isCount spot type c ∧
        isBody (spot.after ((repeatSegments (countPiece c type) b).take 2).flatten) b ∧
        piece = repeatPiece (countPiece c type) b := by
  intro s sameKinds sameParams
  refine (isValue s).bind fun _ t ⟨type, c, counting, held⟩ => ?_
  refine (convert_adds .int32 counting.types).bind fun _ u converting => ?_
  refine repeatTest_adds fun v testing => ?_
  have adds : Adds s v (repeatHead (countPiece c type)) s.types := by
    rw [converting.types] at testing
    exact (counting.append converting).append testing
  refine ensures_bind.mpr (ensures_emitBranch.mpr ?_)
  refine ensures_bind.mpr (ensures_get.mpr ?_)
  have tested := (Builds.start s fun
    | 3 => some (v.appended { opcode := .branchTrue }).length
    | _ => none).adds adds
  have branched := tested.branch .branchTrue 2 rfl
  refine branched.body (by simp) ?_ rfl rfl sameParams (sameKinds ▸ isStatement)
    fun w b context heldBody settled sameTarget holds built => ?_
  · exact (adds.closed.takesOnly _).append
      ((Piece.TakesOnly.leave (Nat.le_refl 2)).append .nil)
  refine ensures_bind.mpr (ensures_land.mpr ?_)
  have continued := built.land context.continues 1 rfl
    (by simp [adds.closed.awaits, settled.awaits_enclosed])
    (holds.continues sameTarget)
  refine repeatStep_adds fun x stepping => ?_
  rw [continued.types] at stepping
  have stepped := continued.adds stepping
  refine ensures_bind.mpr (ensures_emitBranchTo.mpr ?_)
  have looping := stepped.branchTo .branchTrue 3 rfl
  refine ensures_bind.mpr (ensures_land.mpr ?_)
  have landed := looping.land (.ofSite v.code.size) 2 rfl
    (by simp [adds.closed.awaits, settled.awaits_enclosed,
      stepping.closed.awaits])
    (by simp [adds.closed.leaves, settled.leaves_own 0, tested.size,
      stepping.closed.leaves, ForwardPatch.ofSite])
  refine ensures_bind.mpr (ensures_land.mpr ?_)
  have broken := landed.land context.breaks 0 rfl
    (by simp [adds.closed.awaits, settled.awaits_enclosed,
      stepping.closed.awaits])
    (by simp [holds.breaks, adds.closed.leaves, stepping.closed.leaves])
  refine (emitSingle_adds .discard .int32).mono fun _ y dropping => ?_
  rw [broken.types] at dropping
  have finished := broken.adds dropping
  refine ⟨repeatPiece (countPiece c type) b, finished.finish ?_ ?_, type, c, b,
    held, heldBody, rfl⟩
  · exact ⟨adds.closed.fits, Piece.fits_leave rfl, settled.fits_enclosed rfl rfl,
      stepping.closed.fits, Piece.fits_leave rfl, dropping.closed.fits, trivial⟩
  · refine ⟨?_, ?_, ?_, ?_, trivial⟩
    · simp [Aims.know, landed.length]
    · have bodyLength : w.length = _ := built.length
      simp [Aims.know, bodyLength]
    · simp [Aims.know, looping.length]
    · simp [Aims.know, labelled, branched.length]

def withSegments (target body : Piece) : List Piece :=
  [target, [Cell.leave .enterWith (.ahead 2)], body.redirect enclose,
    [Cell.leave .leaveWith (.ahead 3)]]

def withPiece (target body : Piece) : Piece :=
  Piece.join (exitsTo [none, some 3, some 3, some 2]) (withSegments target body)

def brokenWithSegments (target body : Piece) : List Piece :=
  withSegments target body ++ [[Cell.leave .branch (.ahead 4)], [Cell.leaveForGood]]

/-- A `with` that leaves its instances at a `break`. -/
def brokenWithPiece (target body : Piece) : Piece :=
  Piece.join (exitsTo [some 5, some 3, some 3, some 2, some 6])
    (brokenWithSegments target body)

def instancePiece (on : Target) (target : Piece) (type : DataType) : Piece :=
  target ++ instanceConversion on type

theorem emitWith_emits {target : EmitM Unit} {isTarget : Spot → DataType → Piece → Prop}
    (isValue : EmitsValue env target isTarget)
    (isStatement : EmitsStatement env (.withLoop :: kinds) params body isBody) :
    EmitsStatement env kinds params (emitWith target body) fun spot piece =>
      ∃ type o b, isTarget spot type o ∧
        isBody (spot.after
          ((withSegments (instancePiece env.target o type) b).take 2).flatten) b ∧
        (piece = withPiece (instancePiece env.target o type) b ∧
            (∀ cell ∈ b, cell.link ≠ .leave .breakLoop) ∨
          piece = brokenWithPiece (instancePiece env.target o type) b) := by
  intro s sameKinds sameParams
  refine (isValue s).bind fun _ t ⟨type, o, naming, held⟩ => ?_
  refine (convertToInstance_adds naming.types).bind fun _ u converting => ?_
  have adds : Adds s u (instancePiece env.target o type) s.types :=
    naming.append converting
  refine ensures_bind.mpr (ensures_emitBranch.mpr ?_)
  refine ensures_bind.mpr (ensures_get.mpr ?_)
  have named := (Builds.start s fun
    | 3 => some (u.appended { opcode := .enterWith }).length
    | _ => none).adds adds
  have entered := named.branch .enterWith 2 rfl
  refine entered.body (by simp) ?_ rfl rfl sameParams (sameKinds ▸ isStatement)
    fun w b context heldBody settled sameTarget holds built => ?_
  · exact (adds.closed.takesOnly _).append
      ((Piece.TakesOnly.leave (Nat.le_refl 2)).append .nil)
  have bodyLength : w.length = _ := built.length
  refine ensures_bind.mpr (ensures_land.mpr ?_)
  have landed := built.land (.ofSite u.code.size) 2 rfl
    (by simp [adds.closed.awaits, settled.awaits_enclosed])
    (by simp [adds.closed.leaves, settled.leaves_own 0, named.size,
      ForwardPatch.ofSite])
  refine ensures_bind.mpr (ensures_land.mpr ?_)
  have continued := landed.land context.continues 1 rfl
    (by simp [adds.closed.awaits, settled.awaits_enclosed])
    (holds.continues sameTarget)
  refine ensures_bind.mpr (ensures_emitBranchTo.mpr ?_)
  have looping := continued.branchTo .leaveWith 3 rfl
  generalize Emitter.branched _ .leaveWith _ = after at looping ⊢
  refine ensures_ite (fun isBroken => ?_) (fun notBroken => ?_)
  · refine ensures_bind.mpr (ensures_emitBranch.mpr ?_)
    have skipping := looping.branch .branch 4 rfl
    refine ensures_bind.mpr (ensures_land.mpr ?_)
    have broken := skipping.land context.breaks 0 rfl
      (by simp [adds.closed.awaits, settled.awaits_enclosed])
      (by simp [holds.breaks, adds.closed.leaves])
    refine emitLeaveForGood_adds.bind fun _ x leaving => ?_
    rw [broken.types] at leaving
    have left := broken.adds leaving
    refine ensures_land.mpr ?_
    have finished := left.land (.ofSite after.code.size) 4 rfl
      (by simp [adds.closed.awaits, settled.awaits_enclosed,
        leaving.closed.awaits])
      (by
        simp [adds.closed.leaves, settled.leaves_own 2, looping.size,
          leaving.closed.leaves, ForwardPatch.ofSite]
        omega)
    refine ⟨brokenWithPiece (instancePiece env.target o type) b, finished.finish ?_ ?_,
      type, o, b, held, heldBody, Or.inr rfl⟩
    · exact ⟨adds.closed.fits, Piece.fits_leave rfl, settled.fits_enclosed rfl rfl,
        Piece.fits_leave rfl, Piece.fits_leave rfl, leaving.closed.fits, trivial⟩
    · refine ⟨?_, ?_, ?_, ?_, ?_, trivial⟩
      · simp [Aims.know, skipping.length]
      · simp [Aims.know, landed.length]
      · simp [Aims.know, bodyLength]
      · simp [Aims.know, labelled, entered.length]
      · simp [Aims.know, left.length]
  · have unbroken : ∀ cell ∈ b, cell.link ≠ .leave .breakLoop := by
      rw [holds.breakUsed] at notBroken
      simp only [Bool.not_eq_true, Bool.not_eq_false', List.isEmpty_iff] at notBroken
      intro cell member link
      refine Piece.leaves_eq_nil_iff.mp notBroken (cell.redirect enclose) ?_
        (Cell.redirect_link_leave.mpr ⟨.breakLoop, link, rfl⟩)
      rw [Piece.flatten_snoc]
      exact List.mem_append_right _ (Piece.mem_redirect.mpr ⟨cell, member, rfl⟩)
    refine ensures_pure.mpr
      ⟨withPiece (instancePiece env.target o type) b, looping.finish ?_ ?_, type,
      o, b, held, heldBody, Or.inl ⟨rfl, unbroken⟩⟩
    · exact ⟨adds.closed.fits, Piece.fits_leave rfl, settled.fits_unbroken unbroken rfl,
        Piece.fits_leave rfl, trivial⟩
    · refine ⟨?_, ?_, ?_, trivial⟩
      · simp [Aims.know, landed.length]
      · simp [Aims.know, bodyLength]
      · simp [Aims.know, labelled, entered.length]

end

end GameScript.Emission
