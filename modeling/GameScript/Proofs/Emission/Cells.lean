import GameScript.Proofs.Emission.Growth

/-! Cells of single instructions, and the actions that emit them. -/

namespace GameScript.Emission

open Bytecode Number Syntax

namespace Cell

def op (opcode : Opcode) (type1 type2 : DataType) : Cell :=
  { ins := { opcode, type1, type2 } }

def single (opcode : Opcode) (type : DataType) : Cell :=
  { ins := { opcode, type1 := type } }

def compare (kind : Comparison) (type1 type2 : DataType) : Cell :=
  { ins := { opcode := .compare, type1, type2, comparison := some kind } }

def duplicate (type : DataType) (extra : UInt8) : Cell :=
  { ins := { opcode := .duplicate, type1 := type, extra } }

def branch (opcode : Opcode) (distance : Int) : Cell :=
  { ins := { opcode }, link := .branch distance }

def leave (opcode : Opcode) (way : Way) : Cell := { ins := { opcode }, link := .leave way }

def pushAwait (way : Way) : Cell :=
  { ins := { opcode := .push, type1 := .int32, immediate := some (.int32 0) },
    link := .await way }

def pushImmediate (value : Int16) : Cell :=
  { ins := { opcode := .pushImmediate, type1 := .int16,
             immediate := some (.int16 value) } }

def pushShort (value : Int16) : Cell :=
  { ins := { opcode := .push, type1 := .int16, immediate := some (.int16 value) } }

def pushInt32 (value : Int32) : Cell :=
  { ins := { opcode := .push, type1 := .int32, immediate := some (.int32 value) } }

def pushInt64 (value : Int64) : Cell :=
  { ins := { opcode := .push, type1 := .int64, immediate := some (.int64 value) } }

def pushDouble (value : Double) : Cell :=
  { ins := { opcode := .push, type1 := .double, immediate := some (.double value) } }

def pushString (text : String) : Cell :=
  { ins := { opcode := .push, type1 := .string }, symbol := some (.string text) }

def pushFunction (name : String) : Cell :=
  { ins := { opcode := .push, type1 := .int32, immediate := some (.int32 0) }
    symbol := some (.function name) }

def call (name : String) (count : Nat) : Cell :=
  { ins := { opcode := .call, type1 := .int32,
             immediate := some (.int16 (Int16.ofInt count)) }
    symbol := some (.function name) }

def callValue (count : Nat) : Cell :=
  { ins := { opcode := .callValue, type1 := .variant, extra := UInt8.ofNat count } }

def extension (extension : Extension) : Cell :=
  { ins := { opcode := .extended, type1 := .int16,
             immediate := some (.int16 extension.code) } }

def pushVariable (opcode : Opcode) (use : VariableUse) : Cell :=
  { ins := { opcode, type1 := .variant, owner := use.owner }, symbol := some use.symbol }

def popVariable (type1 type2 : DataType) (use : VariableUse) : Cell :=
  { ins := { opcode := .pop, type1, type2, owner := use.owner },
    symbol := some use.symbol }

def leaveForGood : Cell := { ins := { opcode := .leaveWith, leavesForGood := true } }

end Cell

/-- The code has grown by a closed piece, and the stack of types has changed as told. -/
structure Adds (s s' : Emitter) (piece : Piece) (types : List DataType) : Prop where
  growth : ∀ aims, Extends aims s s' piece
  closed : piece.Closed
  types : s'.types = types
  loops : s'.loops = s.loops
  frames : s'.frames = s.frames

namespace Adds

variable {s t u : Emitter} {left right piece : Piece} {types types' : List DataType}

theorem refl (s : Emitter) : Adds s s [] s.types where
  growth aims := .refl aims s
  closed := .nil
  types := rfl
  loops := rfl
  frames := rfl

theorem append (first : Adds s t left types) (second : Adds t u right types') :
    Adds s u (left ++ right) types' where
  growth aims := (first.growth aims).append (second.growth aims)
  closed := first.closed.append second.closed
  types := second.types
  loops := second.loops.trans first.loops
  frames := second.frames.trans first.frames

theorem params (adds : Adds s t piece types) : t.params = s.params :=
  Emitter.params_eq_of_frames adds.frames

end Adds

section Primitives

variable {env : Environment} {s : Emitter}

def Emitter.appended (s : Emitter) (ins : Instruction) : Emitter :=
  { s with
    code := s.code.push { ins with address := s.length }
    length := s.length + ins.length }

theorem ensures_emit {ins : Instruction} {post : Nat → Emitter → Prop} :
    Ensures env s (emit ins) post ↔ post s.code.size (s.appended ins) := Iff.rfl

theorem extends_appended (aims : Aims) (s : Emitter) (cell : Cell)
    (symbol : cell.symbol = none)
    (link : cell.link = .none ∨ ∃ way, cell.Takes way ∧ aims way = none) :
    Extends aims s (s.appended cell.ins) [cell] where
  code := by
    have placed : cell.place (fun index => s.length + Piece.offset [cell] index) aims 0 =
        { cell.ins with address := s.length } := by
      rcases link with link | ⟨way, link | link, unknown⟩
      · simp [Cell.place, link]
      · simp [Cell.place, link, unknown]
      · simp [Cell.place, link, unknown]
    simp [Emitter.appended, Piece.realize, Piece.placeFrom, placed]
  length := by simp [Emitter.appended]
  symbols := by simp [Emitter.appended, Piece.symbolsFrom, symbol]
  children := ⟨[], by simp [Emitter.appended], by simp⟩
  contained := by
    apply Piece.Contained.single
    intro distance
    rcases link with link | ⟨way, link | link, -⟩
    · simp [link]
    · simp [link]
    · simp [link]

theorem extends_appendedSymbol (aims : Aims) (s : Emitter) (cell : Cell) {symbol : Symbol}
    (hasSymbol : cell.symbol = some symbol) (link : cell.link = .none) :
    Extends aims s
      { s.appended cell.ins with symbols := s.symbols.push (s.code.size, symbol) }
      [cell] where
  code := by simp [Emitter.appended, Piece.realize, Piece.placeFrom, Cell.place, link]
  length := by simp [Emitter.appended]
  symbols := by simp [Piece.symbolsFrom, hasSymbol]
  children := ⟨[], by simp [Emitter.appended], by simp⟩
  contained := Piece.Contained.single fun distance => by simp [link]

theorem adds_appended (s : Emitter) (cell : Cell) (symbol : cell.symbol = none)
    (link : cell.link = .none) : Adds s (s.appended cell.ins) [cell] s.types where
  growth aims := extends_appended aims s cell symbol (Or.inl link)
  closed := .single link
  types := rfl
  loops := rfl
  frames := rfl

theorem adds_appendedSymbol (s : Emitter) (cell : Cell) {symbol : Symbol}
    (hasSymbol : cell.symbol = some symbol) (link : cell.link = .none) :
    Adds s { s.appended cell.ins with symbols := s.symbols.push (s.code.size, symbol) }
      [cell] s.types where
  growth aims := extends_appendedSymbol aims s cell hasSymbol link
  closed := .single link
  types := rfl
  loops := rfl
  frames := rfl

theorem emitOp_adds (opcode : Opcode) (type1 type2 : DataType) :
    Ensures env s (emitOp opcode type1 type2) fun _ t =>
      Adds s t [Cell.op opcode type1 type2] s.types :=
  adds_appended s (Cell.op opcode type1 type2) rfl rfl

theorem emitSingle_adds (opcode : Opcode) (type : DataType) :
    Ensures env s (emitSingle opcode type) fun _ t =>
      Adds s t [Cell.single opcode type] s.types :=
  adds_appended s (Cell.single opcode type) rfl rfl

theorem emitCompare_adds (kind : Comparison) (type1 type2 : DataType) :
    Ensures env s (emitCompare kind type1 type2) fun _ t =>
      Adds s t [Cell.compare kind type1 type2] s.types :=
  adds_appended s (Cell.compare kind type1 type2) rfl rfl

theorem emitDuplicate_adds (type : DataType) (extra : UInt8) :
    Ensures env s (emitDuplicate type extra) fun _ t =>
      Adds s t [Cell.duplicate type extra] s.types :=
  adds_appended s (Cell.duplicate type extra) rfl rfl

theorem emitPushImmediate_adds (value : Int16) :
    Ensures env s (emitPushImmediate value) fun _ t =>
      Adds s t [Cell.pushImmediate value] s.types :=
  adds_appended s (Cell.pushImmediate value) rfl rfl

theorem emitPushShort_adds (value : Int16) :
    Ensures env s (emitPushShort value) fun _ t =>
      Adds s t [Cell.pushShort value] s.types :=
  adds_appended s (Cell.pushShort value) rfl rfl

theorem emitPushInt32_adds (value : Int32) :
    Ensures env s (emitPushInt32 value) fun _ t =>
      Adds s t [Cell.pushInt32 value] s.types :=
  adds_appended s (Cell.pushInt32 value) rfl rfl

theorem emitPushInt64_adds (value : Int64) :
    Ensures env s (emitPushInt64 value) fun _ t =>
      Adds s t [Cell.pushInt64 value] s.types :=
  adds_appended s (Cell.pushInt64 value) rfl rfl

theorem emitPushDouble_adds (value : Double) :
    Ensures env s (emitPushDouble value) fun _ t =>
      Adds s t [Cell.pushDouble value] s.types :=
  adds_appended s (Cell.pushDouble value) rfl rfl

theorem emitPushString_adds (text : String) :
    Ensures env s (emitPushString text) fun _ t =>
      Adds s t [Cell.pushString text] s.types :=
  adds_appendedSymbol s (Cell.pushString text) rfl rfl

theorem emitPushFunction_adds (name : String) :
    Ensures env s (emitPushFunction name) fun _ t =>
      Adds s t [Cell.pushFunction name] s.types :=
  adds_appendedSymbol s (Cell.pushFunction name) rfl rfl

theorem emitExtension_adds (extension : Extension) :
    Ensures env s (emitExtension extension) fun _ t =>
      Adds s t [Cell.extension extension] s.types :=
  adds_appended s (Cell.extension extension) rfl rfl

theorem emitPushVariable_adds (opcode : Opcode) (use : VariableUse) :
    Ensures env s (emitPushVariable opcode use) fun _ t =>
      Adds s t [Cell.pushVariable opcode use] s.types :=
  adds_appendedSymbol s (Cell.pushVariable opcode use) rfl rfl

theorem emitPopVariable_adds (type1 type2 : DataType) (use : VariableUse) :
    Ensures env s (emitPopVariable type1 type2 use) fun _ t =>
      Adds s t [Cell.popVariable type1 type2 use] s.types :=
  adds_appendedSymbol s (Cell.popVariable type1 type2 use) rfl rfl

theorem emitLeaveForGood_adds :
    Ensures env s emitLeaveForGood fun _ t => Adds s t [Cell.leaveForGood] s.types :=
  adds_appended s Cell.leaveForGood rfl rfl

theorem emitCall_adds (name : String) (count : Nat) :
    Ensures env s (emitCall name count) fun _ t =>
      count < wordCount 15 ∧ Adds s t [Cell.call name count] s.types := by
  unfold emitCall
  refine ensures_ite (fun fits => ?_) (fun _ => trivial)
  exact ⟨fits, adds_appendedSymbol s (Cell.call name count) rfl rfl⟩

theorem emitCallValue_adds (count : Nat) :
    Ensures env s (emitCallValue count) fun _ t =>
      count < wordCount 8 ∧ Adds s t [Cell.callValue count] s.types := by
  unfold emitCallValue
  refine ensures_ite (fun fits => ?_) (fun _ => trivial)
  exact ⟨fits, adds_appended s (Cell.callValue count) rfl rfl⟩

def callDiscard (name : String) (count : Nat) : Piece :=
  [Cell.call name count, Cell.single .discard .variant]

theorem emitCallDiscard_adds (name : String) (count : Nat) :
    Ensures env s (emitCallDiscard name count) fun _ t =>
      count < wordCount 15 ∧ Adds s t (callDiscard name count) s.types := by
  refine (emitCall_adds name count).bind fun _ t called => ?_
  refine (emitSingle_adds .discard .variant).mono fun _ u dropped => ?_
  rw [called.2.types] at dropped
  exact ⟨called.1, called.2.append dropped⟩

theorem ensures_emitBranch {opcode : Opcode} {post : Nat → Emitter → Prop} :
    Ensures env s (emitBranch opcode) post ↔ post s.code.size (s.appended { opcode }) :=
  Iff.rfl

theorem extends_leave {aims : Aims} (s : Emitter) (opcode : Opcode) {way : Way}
    (unknown : aims way = none) :
    Extends aims s (s.appended { opcode }) [Cell.leave opcode way] :=
  extends_appended aims s (Cell.leave opcode way) rfl (Or.inr ⟨way, Or.inl rfl, unknown⟩)

def Emitter.branched (s : Emitter) (opcode : Opcode) (target : Nat) : Emitter :=
  { s.appended { opcode } with
    code := aimAt target (s.appended { opcode }).code s.code.size }

theorem ensures_emitBranchTo {opcode : Opcode} {target : Nat}
    {post : Unit → Emitter → Prop} :
    Ensures env s (emitBranchTo opcode target) post ↔ post () (s.branched opcode target) :=
  Iff.rfl

theorem extends_branched {aims : Aims} (s : Emitter) (opcode : Opcode) {way : Way}
    {target : Nat} (known : aims way = some target) :
    Extends aims s (s.branched opcode target) [Cell.leave opcode way] where
  code := by
    have aimed : (s.branched opcode target).code.toList =
        s.code.toList ++
          [{ opcode, address := s.length, jump := wordDistance s.length target }] := by
      simp [Emitter.branched, Emitter.appended, aimAt, List.modify_eq_set]
    rw [aimed]
    simp [Piece.realize, Piece.placeFrom, Cell.place, Cell.leave, known, Instruction.aim]
  length := by simp [Emitter.branched, Emitter.appended, Cell.leave]
  symbols := by simp [Emitter.branched, Emitter.appended, Piece.symbolsFrom, Cell.leave]
  children := ⟨[], by simp [Emitter.branched, Emitter.appended], by simp⟩
  contained := Piece.Contained.single fun distance => by simp [Cell.leave]

end Primitives

end GameScript.Emission
