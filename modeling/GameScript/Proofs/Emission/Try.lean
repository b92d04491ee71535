import GameScript.Proofs.Emission.Statements

/-! The code of a `try`, whose hook holds the addresses of its other blocks. -/

namespace GameScript.Emission

open Builtin Bytecode Number Syntax

namespace Piece

variable (way other : Way) (index : Nat) (rest : Piece)

@[simp] theorem leaves_cons_pushAwait :
    leaves way index (Cell.pushAwait other :: rest) = leaves way (index + 1) rest := by
  simp [leaves, Cell.pushAwait]

@[simp] theorem awaits_cons_pushAwait :
    awaits way index (Cell.pushAwait other :: rest) =
      if other = way then index :: awaits way (index + 1) rest else awaits way
        (index + 1) rest := by
  simp [awaits, Cell.pushAwait]

theorem fits_pushAwait {kinds : List LoopKind} {targets : List (Option Nat)} {label : Nat}
    (target : (targets.getD label none).isSome) :
    Fits kinds targets [Cell.pushAwait (.ahead label)] := by
  intro cell member way takes
  rw [List.mem_singleton.mp member] at takes
  simp only [Cell.Takes, Cell.pushAwait, Link.await.injEq, reduceCtorEq, false_or] at takes
  rw [← takes]
  exact target

end Piece

section

variable {env : Environment} {s t : Emitter}

theorem Builds.await {aims : Aims} {segments : List Piece} {types : List DataType}
    (builds : Builds aims s t segments types) (label : Nat)
    (unknown : aims (.ahead label) = none) :
    Builds aims s (t.appended (Cell.pushAwait (.ahead label)).ins)
      (segments ++ [[Cell.pushAwait (.ahead label)]]) types := by
  have takes : (Cell.pushAwait (.ahead label)).Takes (.ahead label) := Or.inr rfl
  have only : ∀ way, (Cell.pushAwait (.ahead label)).Takes way → way = .ahead label := by
    intro way taken
    simpa [Cell.Takes, Cell.pushAwait, eq_comm] using taken
  exact builds.cell only (extends_appended aims t (Cell.pushAwait (.ahead label)) rfl
    (Or.inr ⟨_, takes, unknown⟩)) rfl rfl rfl

theorem modifyScope_adds {change : FunctionScope → FunctionScope}
    (keeps : ∀ scope, (change scope).params = scope.params ∧
      (change scope).inFunction = scope.inFunction) :
    Ensures env s (modifyScope change) fun _ t => Adds s t [] s.types := by
  unfold modifyScope
  rw [ensures_modify]
  cases scopes : s.scopes with
  | nil => exact Adds.refl s
  | cons scope outer =>
    refine (Adds.refl s).of_same rfl rfl rfl rfl rfl rfl ?_
    simp [Emitter.frames, scopes, keeps scope]

theorem declareLocal_adds (name : String) :
    Ensures env s (declareLocal name) fun _ t => Adds s t [] s.types :=
  modifyScope_adds fun _ => ⟨rfl, rfl⟩

theorem declareStatic_adds (name : String) :
    Ensures env s (declareStatic name) fun _ t => Adds s t [] s.types :=
  modifyScope_adds fun _ => ⟨rfl, rfl⟩

end

def hookConversion : Piece := [Cell.op .convert .int32 .variant]

def hookCall : Piece := hookConversion ++ callDiscard Internal.tryHook 2

def plainHook : Piece := hookConversion ++ [Cell.pushInt32 (-1)] ++ hookCall

def trySegments (body cleanup : Piece) : List Piece :=
  [[Cell.pushAwait (.ahead 2)], plainHook, body, callDiscard Internal.tryUnhook 0, cleanup,
    callDiscard Internal.finishFinally 0]

def tryPiece (body cleanup : Piece) : Piece :=
  Piece.join (exitsTo [none, none, some 4]) (trySegments body cleanup)

def catchStart (name : String) : Piece := [storeCell .variant (name, .locals)]

def handledSegments (name : String) (body handler cleanup : Piece) : List Piece :=
  [[Cell.pushAwait (.ahead 2)], hookConversion, [Cell.pushAwait (.ahead 3)], hookCall,
    body, callDiscard Internal.tryUnhook 0, [Cell.leave .branch (.ahead 4)],
    catchStart name, handler, callDiscard Internal.finishCatch 0, cleanup,
    callDiscard Internal.finishFinally 0]

/-- The address of the `finally` block is waited for twice, that of the `catch` block
once. -/
def handledTargets : List (Option Nat) := [none, none, some 10, some 7, some 10]

def handledPiece (name : String) (body handler cleanup : Piece) : Piece :=
  Piece.join (exitsTo handledTargets) (handledSegments name body handler cleanup)

/-! The hook of a `try` as one segment. -/

def hookPiece (second : Cell) : Piece :=
  [Cell.pushAwait (.ahead 2)] ++ hookConversion ++ [second] ++ hookCall

/-- The cell pushes the address of a `catch` block, or that there is none. -/
def IsSecondAddress (second : Cell) : Prop :=
  second = Cell.pushInt32 (-1) ∨ second = Cell.pushAwait (.ahead 3)

def hookedSegments (body cleanup : Piece) : List Piece :=
  [hookPiece (Cell.pushInt32 (-1)), body, callDiscard Internal.tryUnhook 0, cleanup,
    callDiscard Internal.finishFinally 0]

theorem tryPiece_eq (body cleanup : Piece) :
    tryPiece body cleanup =
      Piece.join (exitsTo [none, none, some 3]) (hookedSegments body cleanup) := by
  have same : (fun way => (exitsTo [none, none, some 4] way).map
      (Piece.startOf (trySegments body cleanup))) = fun way =>
      (exitsTo [none, none, some 3] way).map
      (Piece.startOf (hookedSegments body cleanup)) := by
    funext way
    match way with
    | .breakLoop | .continueLoop | .ahead 0 | .ahead 1 | .ahead 2 => rfl
    | .ahead (label + 3) => rfl
  rw [tryPiece, Piece.join, same]
  rfl

def guardedSegments (name : String) (body handler cleanup : Piece) : List Piece :=
  [hookPiece (Cell.pushAwait (.ahead 3)), body, callDiscard Internal.tryUnhook 0,
    [Cell.leave .branch (.ahead 4)], catchStart name, handler,
    callDiscard Internal.finishCatch 0, cleanup, callDiscard Internal.finishFinally 0]

def guardedTargets : List (Option Nat) := [none, none, some 7, some 4, some 7]

theorem handledPiece_eq (name : String) (body handler cleanup : Piece) :
    handledPiece name body handler cleanup =
      Piece.join (exitsTo guardedTargets) (guardedSegments name body handler cleanup) := by
  have same : (fun way => (exitsTo handledTargets way).map
      (Piece.startOf (handledSegments name body handler cleanup))) = fun way =>
      (exitsTo guardedTargets way).map
        (Piece.startOf (guardedSegments name body handler cleanup)) := by
    funext way
    match way with
    | .breakLoop | .continueLoop | .ahead 0 | .ahead 1 | .ahead 2 | .ahead 3
    | .ahead 4 => rfl
    | .ahead (label + 5) => rfl
  rw [handledPiece, Piece.join, same]
  rfl

section

variable {env : Environment} {kinds : List LoopKind} {params : List String}
  {isBody isHandler isCleanup : Spot → Piece → Prop} {body handler cleanup : EmitM Unit}

private theorem hookConversion_adds {s : Emitter} :
    Ensures env s (emitOp .convert .int32 .variant) fun _ t =>
      Adds s t hookConversion s.types :=
  emitOp_adds .convert .int32 .variant

theorem emitTry_emits (isStatement : EmitsStatement env kinds params body isBody)
    (isCleaning : EmitsStatement env kinds params cleanup isCleanup) :
    EmitsStatement env kinds params (emitTry false body (fun _ => pure {}) cleanup)
      fun spot piece =>
      ∃ b c, isBody (spot.after ((trySegments b c).take 2).flatten) b ∧
        isCleanup (spot.after ((trySegments b c).take 4).flatten) c ∧
        piece = tryPiece b c := by
  intro s sameKinds sameParams
  unfold emitTry
  refine ensures_bind.mpr (ensures_read.mpr ?_)
  refine ensures_unless trivial fun _ => ?_
  refine ensures_bind.mpr (ensures_emit.mpr ?_)
  have waiting := (Builds.start s fun _ => none).await 2 rfl
  refine hookConversion_adds.bind fun _ t converted => ?_
  refine (emitPushInt32_adds (-1)).bind fun _ u pushed => ?_
  refine hookConversion_adds.bind fun _ v convertedAgain => ?_
  refine (emitCallDiscard_adds Internal.tryHook 2).bind fun _ w ⟨_, called⟩ => ?_
  have hookTypes : v.types = s.types := by
    rw [convertedAgain.types, pushed.types, converted.types]
    rfl
  rw [hookTypes] at called
  have hooking : Adds _ w plainHook s.types :=
    (converted.append pushed).append (convertedAgain.append called)
  have hooked := waiting.adds hooking
  refine hooked.statement sameKinds sameParams isStatement
    fun x b heldBody settledBody tried => ?_
  refine (emitCallDiscard_adds Internal.tryUnhook 0).bind fun _ y ⟨_, unhooking⟩ => ?_
  rw [tried.types] at unhooking
  have unhooked := tried.adds unhooking
  refine ensures_bind.mpr (ensures_pure.mpr ?_)
  refine ensures_bind.mpr (ensures_landAddress.mpr ?_)
  have landed := unhooked.landAddress ⟨[s.code.size]⟩ 2 rfl
    (by simp [hooking.closed.leaves, settledBody.leaves_ahead,
      unhooking.closed.leaves])
    (by simp [hooking.closed.awaits, settledBody.awaits, unhooking.closed.awaits])
  refine ensures_bind.mpr (ensures_land.mpr ?_)
  change Ensures env (y.landedAddress ⟨[s.code.size]⟩) _ _
  refine landed.statement sameKinds sameParams isCleaning
    fun z c heldCleanup settledCleanup cleaned => ?_
  refine (emitCallDiscard_adds Internal.finishFinally 0).mono fun _ z' ⟨_, finishing⟩ => ?_
  rw [cleaned.types] at finishing
  have finished := cleaned.adds finishing
  refine ⟨tryPiece b c, finished.finish ?_ ?_, b, c, heldBody, heldCleanup, rfl⟩
  · exact ⟨Piece.fits_pushAwait rfl, hooking.closed.fits, settledBody.fits,
      unhooking.closed.fits, settledCleanup.fits, finishing.closed.fits, trivial⟩
  · refine ⟨?_, trivial⟩
    rw [Aims.know, if_pos rfl, unhooked.length]
    rfl

theorem emitHandledTry_emits {name : String}
    (isStatement : EmitsStatement env kinds params body isBody)
    (isHandling : EmitsStatement env kinds params handler isHandler)
    (isCleaning : EmitsStatement env kinds params cleanup isCleanup) :
    EmitsStatement env kinds params
      (emitTry true body (emitHandler · name handler) cleanup) fun spot piece => ∃ b h c,
        isBody (spot.after ((handledSegments name b h c).take 4).flatten) b ∧
        isHandler (spot.after ((handledSegments name b h c).take 8).flatten) h ∧
        isCleanup (spot.after ((handledSegments name b h c).take 10).flatten) c ∧
        piece = handledPiece name b h c := by
  intro s sameKinds sameParams
  unfold emitTry
  refine ensures_bind.mpr (ensures_read.mpr ?_)
  refine ensures_unless trivial fun _ => ?_
  refine ensures_bind.mpr (ensures_emit.mpr ?_)
  have waiting := (Builds.start s fun _ => none).await 2 rfl
  refine hookConversion_adds.bind fun _ t converting => ?_
  have converted := waiting.adds converting
  refine ensures_bind.mpr (ensures_emit.mpr ?_)
  have awaiting := converted.await 3 rfl
  refine hookConversion_adds.bind fun _ u convertingAgain => ?_
  refine (emitCallDiscard_adds Internal.tryHook 2).bind fun _ v called => ?_
  obtain ⟨_, calling⟩ := called
  have hookTypes : u.types = s.types := by
    rw [convertingAgain.types]
    exact awaiting.types
  rw [hookTypes] at calling
  have hooking : Adds _ v hookCall s.types := convertingAgain.append calling
  have hooked := awaiting.adds hooking
  refine hooked.statement sameKinds sameParams isStatement
    fun w b heldBody settledBody tried => ?_
  refine (emitCallDiscard_adds Internal.tryUnhook 0).bind fun _ x called => ?_
  obtain ⟨_, unhooking⟩ := called
  rw [tried.types] at unhooking
  have unhooked := tried.adds unhooking
  unfold emitHandler
  refine ensures_bind.mpr (ensures_bind.mpr (ensures_emitBranch.mpr ?_))
  have skipping := unhooked.branch .branch 4 rfl
  refine ensures_bind.mpr (ensures_landAddress.mpr ?_)
  have caught := skipping.landAddress ⟨[t.code.size]⟩ 3 rfl
    (by simp [converting.closed.leaves, hooking.closed.leaves,
      settledBody.leaves_ahead, unhooking.closed.leaves])
    (by
      simp [converting.closed.awaits, hooking.closed.awaits,
        settledBody.awaits, unhooking.closed.awaits, converted.size]
      omega)
  refine ensures_bind.mpr ?_
  refine (declareLocal_adds name).mono fun _ y declaring => ?_
  refine (emitPopVariable_adds .variant .variant (.plain name .locals)).bind
    fun _ z storing => ?_
  rw [declaring.types, caught.types] at storing
  have starting : Adds _ z (catchStart name) s.types := declaring.append storing
  have stored := caught.adds starting
  refine stored.statement sameKinds sameParams isHandling
    fun p h heldHandler settledHandler handled => ?_
  refine (emitCallDiscard_adds Internal.finishCatch 0).bind fun _ q called => ?_
  obtain ⟨_, catching⟩ := called
  rw [handled.types] at catching
  have done := handled.adds catching
  refine ensures_pure.mpr ?_
  refine ensures_bind.mpr (ensures_landAddress.mpr ?_)
  have cleared := done.landAddress ⟨[s.code.size]⟩ 2 rfl
    (by simp [converting.closed.leaves, hooking.closed.leaves,
      settledBody.leaves_ahead, unhooking.closed.leaves, starting.closed.leaves,
      settledHandler.leaves_ahead, catching.closed.leaves])
    (by simp [converting.closed.awaits, hooking.closed.awaits,
      settledBody.awaits, unhooking.closed.awaits, starting.closed.awaits,
      settledHandler.awaits, catching.closed.awaits])
  refine ensures_bind.mpr (ensures_land.mpr ?_)
  have landed := cleared.land (.ofSite x.code.size) 4 rfl
    (by simp [converting.closed.awaits, hooking.closed.awaits,
      settledBody.awaits, unhooking.closed.awaits, starting.closed.awaits,
      settledHandler.awaits, catching.closed.awaits])
    (by
      simp [converting.closed.leaves, hooking.closed.leaves, settledBody.leaves_ahead,
        unhooking.closed.leaves, starting.closed.leaves, settledHandler.leaves_ahead,
        catching.closed.leaves, ForwardPatch.ofSite, unhooked.size]
      omega)
  refine landed.statement sameKinds sameParams isCleaning
    fun r c heldCleanup settledCleanup cleaned => ?_
  refine (emitCallDiscard_adds Internal.finishFinally 0).mono fun _ final called => ?_
  obtain ⟨_, finishing⟩ := called
  rw [cleaned.types] at finishing
  have finished := cleaned.adds finishing
  refine ⟨handledPiece name b h c, finished.finish ?_ ?_, b, h, c, heldBody, heldHandler,
    heldCleanup, rfl⟩
  · exact ⟨Piece.fits_pushAwait rfl, converting.closed.fits, Piece.fits_pushAwait rfl,
      hooking.closed.fits, settledBody.fits, unhooking.closed.fits, Piece.fits_leave rfl,
      starting.closed.fits, settledHandler.fits, catching.closed.fits, settledCleanup.fits,
      finishing.closed.fits, trivial⟩
  · refine ⟨?_, ?_, ?_, trivial⟩
    · rw [Aims.know, if_neg (by decide), Aims.know, if_pos rfl, done.length]
      rfl
    · rw [Aims.know, if_neg (by decide), Aims.know, if_neg (by decide), Aims.know,
        if_pos rfl, skipping.length]
      rfl
    · rw [Aims.know, if_pos rfl, cleared.length]
      rfl

end

end GameScript.Emission
