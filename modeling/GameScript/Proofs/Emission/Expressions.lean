import GameScript.Proofs.Emission.Statements

/-! The code of operators, given the code of their operands. -/

namespace GameScript.Emission

open Bytecode Number Syntax

variable {env : Environment}

section

variable {action : EmitM Unit} {kinds : List LoopKind} {params : List String}

theorem goTo_emitsValue {holds : Spot → DataType → Piece → Prop} (pos : Position)
    (emits : EmitsValue env action holds) :
    EmitsValue env (do goTo pos; action) holds := by
  intro s
  refine (goTo_adds pos).bind fun _ t going => ?_
  refine (emits t).mono fun _ u ⟨type, piece, adds, held⟩ => ?_
  rw [going.types] at adds
  rw [(going.growth fun _ => none).spot] at held
  exact ⟨type, piece, going.append adds, held⟩

theorem goTo_emitsStatement {holds : Spot → Piece → Prop} (pos : Position)
    (emits : EmitsStatement env kinds params action holds) :
    EmitsStatement env kinds params (do goTo pos; action) holds := by
  intro s sameKinds sameParams
  refine (goTo_adds pos).bind fun _ t going => ?_
  have lays := Lays.ofAdds going
  refine (emits t (lays.kinds.trans sameKinds) (lays.params.trans sameParams)).mono
    fun _ u ⟨piece, laying, held⟩ => ?_
  rw [lays.growth.spot] at held
  exact ⟨piece, lays.append laying, held⟩

end

def unaryPiece (op : UnaryOp) (type : DataType) (operand : Piece) : Piece :=
  operand ++ conversion type (unaryOperandType op type) ++
    [Cell.single (if op == .neg then .neg else .not) (unaryOperandType op type)]

variable {operand : EmitM Unit} {isOperand : DataType → Piece → Prop} {op : BinaryOp}
  {areOthers : List (DataType × Piece) → Prop}

theorem emitUnary_emits (op : UnaryOp)
    (isValue : EmitsValue env operand fun _ => isOperand) :
    EmitsValue env (emitUnary op operand) fun _ type piece =>
      ∃ operandType p, isOperand operandType p ∧ type = unaryOperandType op operandType ∧
        piece = unaryPiece op operandType p := by
  intro s
  unfold emitUnary
  refine (isValue s).bind fun _ t ⟨type, p, adds, held⟩ => ?_
  refine ensures_bind.mpr ((ensures_peekType adds.types).mpr ?_)
  refine ensures_unless trivial fun _ => ?_
  refine ensures_bind.mpr ((ensures_peekType adds.types).mpr ?_)
  refine (coerceTop_adds (unaryOperandType op type) adds.types).bind fun _ u coercing => ?_
  refine ensures_bind.mpr ((ensures_peekType coercing.types).mpr ?_)
  refine (emitSingle_adds _ _).mono fun _ v applying => ?_
  rw [coercing.types] at applying
  exact ⟨_, _, (adds.append coercing).append applying, type, p, held, rfl, rfl⟩

/-! Chains that evaluate all operands.  An operand is known by its type and its piece. -/

/-- The operands after the first one, a value of the given type being on the stack. -/
def operandsPiece (op : BinaryOp) : DataType → List (DataType × Piece) → Piece
  | _, [] => []
  | type, (next, operand) :: rest =>
    operand ++ conversion next (operandType op next) ++
      [binaryCell op (operandType op next) type] ++
      operandsPiece op (binaryType op (operandType op next) type) rest

def operandsType (op : BinaryOp) : DataType → List (DataType × Piece) → DataType
  | type, [] => type
  | type, (next, _) :: rest =>
    operandsType op (binaryType op (operandType op next) type) rest

def chainPiece (op : BinaryOp) (type : DataType) (first : Piece)
    (others : List (DataType × Piece)) :
    Piece :=
  first ++ conversion type (operandType op type) ++ operandsPiece op
    (operandType op type) others

def EmitsOperands (env : Environment) (op : BinaryOp) (action : EmitM Unit)
    (holds : List (DataType × Piece) → Prop) : Prop :=
  ∀ s type rest, s.types = type :: rest → Ensures env s action fun _ t =>
    ∃ others, holds others ∧
      Adds s t (operandsPiece op type others) (operandsType op type others :: rest)

theorem EmitsOperands.mono {action : EmitM Unit}
    {holds weaker : List (DataType × Piece) → Prop}
    (emits : EmitsOperands env op action holds)
    (implies : ∀ others, holds others → weaker others) :
    EmitsOperands env op action weaker :=
  fun s type rest top => (emits s type rest top).mono fun _ _ ⟨others, held, adds⟩ =>
    ⟨others, implies others held, adds⟩

/-- A list of parts that starts with one as told, and goes on as told. -/
def StartsWith (isFirst : DataType → Piece → Prop)
    (areOthers : List (DataType × Piece) → Prop) : List (DataType × Piece) → Prop
  | [] => False
  | (type, piece) :: rest => isFirst type piece ∧ areOthers rest

theorem noOperands_emits (op : BinaryOp) : EmitsOperands env op (pure ()) (· = []) := by
  intro s type rest top
  refine ensures_pure.mpr ⟨[], rfl, ?_⟩
  rw [operandsType, ← top]
  exact Adds.refl s

theorem nextOperand_emits {more : EmitM Unit}
    (isValue : EmitsValue env operand fun _ => isOperand)
    (areOperands : EmitsOperands env op more areOthers) :
    EmitsOperands env op (do
      operand
      convertOperand op
      applyBinary op
      more) (StartsWith isOperand areOthers) := by
  intro s type rest top
  refine (isValue s).bind fun _ t ⟨next, p, adds, held⟩ => ?_
  refine (convertOperand_adds op adds.types).bind fun _ u converting => ?_
  rw [top] at converting
  refine (applyBinary_adds op converting.types).bind fun _ v applying => ?_
  refine (areOperands v _ rest applying.types).mono
    fun _ w ⟨others, heldOthers, adding⟩ => ?_
  exact ⟨(next, p) :: others, ⟨held, heldOthers⟩,
    ((adds.append converting).append applying).append adding⟩

theorem emitChain_emits {first others : EmitM Unit} {skipping : EmitM (List Nat)}
    {isFirst : DataType → Piece → Prop} (isStrict : BinaryOp.isLazy env.target op = false)
    (isValue : EmitsValue env first fun _ => isFirst)
    (areOperands : EmitsOperands env op others areOthers) :
    EmitsValue env (emitChain op first skipping others) fun _ type piece =>
      ∃ firstType p parts, isFirst firstType p ∧ areOthers parts ∧
        type = operandsType op (operandType op firstType) parts ∧
        piece = chainPiece op firstType p parts := by
  intro s
  unfold emitChain
  refine (isValue s).bind fun _ t ⟨firstType, p, adds, held⟩ => ?_
  refine ensures_bind.mpr (ensures_read.mpr ?_)
  rw [isStrict]
  refine (convertOperand_adds op adds.types).bind fun _ u converting => ?_
  refine (areOperands u _ _ converting.types).mono fun _ v ⟨parts, heldParts, adding⟩ => ?_
  exact ⟨_, _, (adds.append converting).append adding, firstType, p, parts, held,
    heldParts, rfl, rfl⟩

/-- The operands after the first one, each after a branch that skips it. -/
def lazyPiece (skip : Opcode) : DataType → List (DataType × Piece) → Piece
  | _, [] => []
  | type, (next, operand) :: rest =>
    conversion type .boolean ++ [Cell.leave skip (.ahead 2)] ++ operand ++
      lazyPiece skip next rest

def lastType : DataType → List (DataType × Piece) → DataType
  | type, [] => type
  | _, (next, _) :: rest => lastType next rest

def lazyOperands (skip : Opcode) (type : DataType) (first : Piece)
    (others : List (DataType × Piece)) : Piece :=
  first ++ lazyPiece skip type others ++ conversion (lastType type others) .boolean

def lazyResult (op : BinaryOp) : Piece := [Cell.pushShort (if op == .or then 1 else 0)]

def lazySegments (op : BinaryOp) (type : DataType) (first : Piece)
    (others : List (DataType × Piece)) : List Piece :=
  [lazyOperands (skipOpcode op) type first others, [Cell.leave .branch (.ahead 3)],
    lazyResult op]

def lazyChainPiece (op : BinaryOp) (type : DataType) (first : Piece)
    (others : List (DataType × Piece)) : Piece :=
  Piece.join (exitsTo [none, none, some 2, some 3]) (lazySegments op type first others)

/-- Code has grown by a piece that takes the second label only, at the given sites. -/
structure Skips (s t : Emitter) (piece : Piece) (sites : List Nat)
    (types : List DataType) : Prop where
  growth : ∀ aims : Aims, aims (.ahead 2) = none → Extends aims s t piece
  only : piece.TakesOnly fun way => way = .ahead 2
  noAwait : ∀ way index, piece.awaits way index = []
  sites : sites = piece.leaves (.ahead 2) s.code.size
  types : t.types = types
  loops : t.loops = s.loops
  frames : t.frames = s.frames

namespace Skips

variable {s t u : Emitter} {left right : Piece} {sites more : List Nat}
  {types types' : List DataType}

theorem ofAdds (adds : Adds s t left types) : Skips s t left [] types where
  growth := fun aims _ => adds.growth aims
  only := adds.closed.takesOnly _
  noAwait := adds.closed.awaits
  sites := (adds.closed.leaves _ _).symm
  types := adds.types
  loops := adds.loops
  frames := adds.frames

theorem append (first : Skips s t left sites types)
    (second : Skips t u right more types') :
    Skips s u (left ++ right) (sites ++ more) types' where
  growth := fun aims unknown =>
    (first.growth aims unknown).append (second.growth aims unknown)
  only := first.only.append second.only
  noAwait := fun way index => by
    rw [Piece.awaits_append, first.noAwait, second.noAwait]; rfl
  sites := by
    rw [Piece.leaves_append, first.sites, second.sites,
      (first.growth (fun _ => none) rfl).size]
  types := second.types
  loops := second.loops.trans first.loops
  frames := second.frames.trans first.frames

theorem branch (s : Emitter) (skip : Opcode) :
    Skips s (s.appended { opcode := skip }) [Cell.leave skip (.ahead 2)]
      [s.code.size] s.types where
  growth := fun _ unknown => extends_leave s skip unknown
  only := .leave rfl
  noAwait := fun _ _ => by simp
  sites := by simp
  types := rfl
  loops := rfl
  frames := rfl

theorem builds (skips : Skips s t left sites types) :
    Builds (labelled s.loops fun _ => none) s t [left] types where
  growth := by
    simp only [List.flatten_cons, List.flatten_nil, List.append_nil]
    exact skips.growth _ rfl
  breaks := rfl
  continues := rfl
  types := skips.types
  loops := by
    simp only [List.flatten_cons, List.flatten_nil, List.append_nil]
    rw [note_of_not_takes, skips.loops]
    · exact skips.only.not_takes (by simp)
    · exact skips.only.not_takes (by simp)
  frames := skips.frames

theorem fits (skips : Skips s t left sites types) {kinds : List LoopKind}
    {targets : List (Option Nat)} (target : (targets.getD 2 none).isSome) :
    left.Fits kinds targets := by
  intro cell member way takes
  rw [skips.only cell member way takes]
  exact target

end Skips

def EmitsLazyOperands (env : Environment) (skip : Opcode) (action : EmitM (List Nat))
    (holds : List (DataType × Piece) → Prop) : Prop :=
  ∀ s type rest, s.types = type :: rest → Ensures env s action fun sites t =>
    ∃ others, holds others ∧
      Skips s t (lazyPiece skip type others) sites (lastType type others :: rest)

theorem EmitsLazyOperands.mono {skip : Opcode} {action : EmitM (List Nat)}
    {holds weaker : List (DataType × Piece) → Prop}
    (emits : EmitsLazyOperands env skip action holds)
    (implies : ∀ others, holds others → weaker others) :
    EmitsLazyOperands env skip action weaker :=
  fun s type rest top => (emits s type rest top).mono fun _ _ ⟨others, held, skips⟩ =>
    ⟨others, implies others held, skips⟩

theorem noLazyOperands_emits (skip : Opcode) :
    EmitsLazyOperands env skip (pure []) (· = []) := by
  intro s type rest top
  refine ensures_pure.mpr ⟨[], rfl, ?_⟩
  rw [lastType, ← top]
  exact Skips.ofAdds (Adds.refl s)

theorem nextLazyOperand_emits {skip : Opcode} {more : EmitM (List Nat)}
    (isValue : EmitsValue env operand fun _ => isOperand)
    (areOperands : EmitsLazyOperands env skip more areOthers) :
    EmitsLazyOperands env skip (do
      discard <| convertTo .boolean
      let site ← emitBranch skip
      operand
      let sites ← more
      return site :: sites) (StartsWith isOperand areOthers) := by
  intro s type rest top
  refine (convert_adds .boolean top).bind fun _ t converting => ?_
  refine ensures_bind.mpr (ensures_emitBranch.mpr ?_)
  refine (isValue _).bind fun _ u ⟨next, p, adds, held⟩ => ?_
  refine (areOperands u next _ adds.types).bind
    fun sites v ⟨others, heldOthers, skipping⟩ => ?_
  have types : (t.appended { opcode := skip }).types = rest := converting.types
  rw [types] at skipping
  refine ensures_pure.mpr ⟨(next, p) :: others, ⟨held, heldOthers⟩, ?_⟩
  have front :=
    ((Skips.ofAdds converting).append (Skips.branch t skip)).append (Skips.ofAdds adds)
  exact front.append skipping

theorem emitLazyChain_emits {first others : EmitM Unit} {skipping : EmitM (List Nat)}
    {isFirst : DataType → Piece → Prop} (isLazy : BinaryOp.isLazy env.target op = true)
    (isValue : EmitsValue env first fun _ => isFirst)
    (areOperands : EmitsLazyOperands env (skipOpcode op) skipping areOthers) :
    EmitsValue env (emitChain op first skipping others) fun _ type piece =>
      ∃ firstType p parts, isFirst firstType p ∧ areOthers parts ∧ type = .boolean ∧
        piece = lazyChainPiece op firstType p parts := by
  intro s
  unfold emitChain
  refine (isValue s).bind fun _ t ⟨firstType, p, adds, held⟩ => ?_
  refine ensures_bind.mpr (ensures_read.mpr ?_)
  rw [isLazy]
  refine (areOperands t firstType _ adds.types).bind
    fun sites u ⟨parts, heldParts, skips⟩ => ?_
  refine (convert_adds .boolean skips.types).bind fun _ v converting => ?_
  have operands :
      Skips s v (lazyOperands (skipOpcode op) firstType p parts) sites s.types := by
    have all := ((Skips.ofAdds adds).append skips).append (Skips.ofAdds converting)
    rwa [List.nil_append, List.append_nil] at all
  have evaluated := operands.builds
  refine ensures_bind.mpr (ensures_emitBranch.mpr ?_)
  have skipped := evaluated.branch .branch 3 rfl
  refine ensures_bind.mpr (ensures_land.mpr ?_)
  have landed := skipped.land ⟨sites⟩ 2 rfl
    (by simp [operands.noAwait])
    (by simp [operands.sites])
  refine (emitPushShort_adds (if op == .or then 1 else 0)).bind fun _ w pushing => ?_
  refine (pushType_adds .boolean).bind fun _ x typing => ?_
  have pushed : Adds _ x (lazyResult op) (.boolean :: w.types) := pushing.append typing
  rw [pushing.types, landed.types] at pushed
  have told := landed.adds pushed
  refine ensures_land.mpr ?_
  have finished := told.land (.ofSite v.code.size) 3 rfl
    (by simp [operands.noAwait, pushed.closed.awaits])
    (by
      have absent : ∀ index, Piece.leaves (.ahead 3) index
          (lazyOperands (skipOpcode op) firstType p parts) = [] :=
        Piece.leaves_eq_nil (operands.only.not_takes (by simp))
      simp [absent, pushed.closed.leaves, evaluated.size,
        ForwardPatch.ofSite])
  refine ⟨.boolean, lazyChainPiece op firstType p parts, finished.finishValue ?_ ?_,
    firstType, p, parts, held, heldParts, rfl, rfl⟩
  · exact ⟨operands.fits rfl, Piece.fits_leave rfl, pushed.closed.fits, trivial⟩
  · refine ⟨?_, ?_, trivial⟩
    · simp [Aims.know, skipped.length]
    · simp [Aims.know, told.length]

/-- A conditional is an `if` whose branches push variants. -/
def conditionalPiece (type yesType noType : DataType) (condition yes no : Piece) : Piece :=
  ifElsePiece (conditionPiece condition type) (yes ++ conversion yesType .variant)
    (no ++ conversion noType .variant)

theorem emitConditional_emits {condition yes no : EmitM Unit}
    {isCondition isYes isNo : DataType → Piece → Prop}
    (isValue : EmitsValue env condition fun _ => isCondition)
    (yesValue : EmitsValue env yes fun _ => isYes)
    (noValue : EmitsValue env no fun _ => isNo) :
    EmitsValue env (emitConditional condition yes no) fun _ resultType piece =>
      ∃ type yesType noType c y n, isCondition type c ∧ isYes yesType y ∧ isNo noType n ∧
        resultType = .variant ∧ piece = conditionalPiece type yesType noType c y n := by
  intro s
  refine condition_adds isValue s fun type c t held adds => ?_
  have tested := (Builds.start s fun _ => none).adds adds
  refine ensures_bind.mpr (ensures_emitBranch.mpr ?_)
  have branched := tested.branch .branchFalse 2 rfl
  refine (yesValue _).bind fun _ u pushed => ?_
  obtain ⟨yesType, y, addsYes, heldYes⟩ := pushed
  refine (convert_adds .variant addsYes.types).bind fun _ v convertingYes => ?_
  have yesAdded := addsYes.append convertingYes
  rw [branched.types] at yesAdded
  have first := branched.adds yesAdded
  refine ensures_bind.mpr (ensures_emitBranch.mpr ?_)
  have skipping := first.branch .branch 3 rfl
  refine ensures_bind.mpr (ensures_land.mpr ?_)
  have landed := skipping.land (.ofSite t.code.size) 2 rfl
    (by simp [adds.closed.awaits, addsYes.closed.awaits,
      convertingYes.closed.awaits])
    (by simp [adds.closed.leaves, addsYes.closed.leaves,
      convertingYes.closed.leaves, tested.size, ForwardPatch.ofSite])
  refine (noValue _).bind fun _ w pushed => ?_
  obtain ⟨noType, n, addsNo, heldNo⟩ := pushed
  refine (convert_adds .variant addsNo.types).bind fun _ x convertingNo => ?_
  refine (pushType_adds .variant).bind fun _ z typing => ?_
  have noAdded := (addsNo.append convertingNo).append typing
  rw [convertingNo.types, landed.types, List.append_nil] at noAdded
  have second := landed.adds noAdded
  refine ensures_land.mpr ?_
  have finished := second.land (.ofSite v.code.size) 3 rfl
    (by simp [adds.closed.awaits, addsYes.closed.awaits,
      convertingYes.closed.awaits, addsNo.closed.awaits, convertingNo.closed.awaits])
    (by
      simp [adds.closed.leaves, addsYes.closed.leaves, convertingYes.closed.leaves,
        addsNo.closed.leaves, convertingNo.closed.leaves, first.size, ForwardPatch.ofSite]
      omega)
  refine ⟨.variant, conditionalPiece type yesType noType c y n, finished.finishValue ?_ ?_,
    type, yesType, noType, c, y, n, held, heldYes, heldNo, rfl, rfl⟩
  · exact ⟨adds.closed.fits, Piece.fits_leave rfl, yesAdded.closed.fits,
      Piece.fits_leave rfl, noAdded.closed.fits, trivial⟩
  · refine ⟨?_, ?_, trivial⟩
    · simp [Aims.know, skipping.length]
    · simp [Aims.know, second.length]

end GameScript.Emission
