import GameScript.Proofs.Evaluation.Machine
import GameScript.Proofs.Execution.Placement

/-! Code of formulas, run wherever it lies. -/

namespace GameScript.Evaluation

open Bytecode Emission Execution Syntax

/-- The cells of a piece are found from an index on, their ways leading where `exits`
says. -/
def Lies (whole : Piece) (start : Nat) (piece : Piece) (exits : Exits) : Prop :=
  ∀ index cell, piece[index]? = some cell →
    whole[start + index]? = some (cell.close exits (start + index))

namespace Lies

variable {whole piece front back : Piece} {start : Nat} {exits own : Exits}

theorem left (lies : Lies whole start (front ++ back) exits) :
    Lies whole start front exits :=
  fun index cell found => lies index cell (by
    have bound := (List.getElem?_eq_some_iff.mp found).1
    rw [List.getElem?_append_left bound, found])

theorem right (lies : Lies whole start (front ++ back) exits) :
    Lies whole (start + front.length) back exits := fun index cell found => by
  have there := lies (front.length + index) cell (by
    rw [List.getElem?_append_right (Nat.le_add_right _ _), Nat.add_sub_cancel_left, found])
  rwa [← Nat.add_assoc] at there

theorem close (lies : Lies whole start (piece.close own) exits) :
    Lies whole start piece (inner start own exits) := fun index cell found => by
  have there := lies index (cell.close own index) (by
    rw [Piece.getElem?_close, found]
    rfl)
  rw [there, close_close]

theorem join {targets : List (Option Nat)} {segments : List Piece}
    (lies : Lies whole start (Piece.join (exitsTo targets) segments) exits) :
    Lies whole start segments.flatten (joined ⟨start, 0⟩ targets segments exits) :=
  lies.close

theorem self (closed : piece.Closed) (exits : Exits) : Lies piece 0 piece exits :=
  fun index cell found => by
    have stays : cell.close exits (0 + index) = cell :=
      Cell.close_eq_self fun way takes =>
        absurd takes (closed.not_takes (List.mem_of_getElem? found))
    rw [stays, Nat.zero_add, found]

end Lies

namespace Meaning

variable {m : Meaning}

/-- Wherever the piece lies, it makes of one stack another and reads the variables told. -/
structure Turns (m : Meaning) (piece : Piece) (before after : List m.Value)
    (read : List (String × Instance)) : Prop where
  runs : ∀ {whole : Piece} {start : Nat} {exits : Exits} (_ : Lies whole start piece exits)
    (reads : List (String × Instance)),
    m.CellRuns whole ⟨start, before, reads⟩ ⟨start + piece.length, after, reads ++ read⟩

def Computes (m : Meaning) (piece : Piece) (outcome : Outcome m.Value) : Prop :=
  ∀ stack, m.Turns piece stack (outcome.value :: stack) outcome.reads

section Turns

variable {before middle after stack : List m.Value}
  {read further : List (String × Instance)} {left right : Piece}

theorem Turns.nil (stack : List m.Value) : m.Turns [] stack stack [] where
  runs _ reads := by
    rw [List.append_nil]
    exact .refl

theorem Turns.append (first : m.Turns left before middle read)
    (second : m.Turns right middle after further) :
    m.Turns (left ++ right) before after (read ++ further) where
  runs lies reads := by
    have one := first.runs lies.left reads
    have other := second.runs lies.right (reads ++ read)
    rw [List.length_append, ← Nat.add_assoc, ← List.append_assoc]
    exact one.trans other

theorem Turns.append_silent (first : m.Turns left before middle read)
    (second : m.Turns right middle after []) :
    m.Turns (left ++ right) before after read := by
  have both := first.append second
  rwa [List.append_nil] at both

theorem Turns.cell {cell : Cell} (link : cell.link = .none)
    (effect : m.effect cell.ins cell.symbol before =
      some { stack := after, reads := read }) :
    m.Turns [cell] before after read where
  runs {whole start exits} lies reads := by
    have found : whole[start]? = some cell := by
      have there := lies 0 cell rfl
      rwa [Nat.add_zero, Cell.close_eq_self (by simp [Cell.Takes, link])] at there
    have place : next? cell start false = some (start + 1) := by simp [next?, link]
    exact .single (cellStep_eq ⟨start, before, reads⟩ found effect place)

theorem leave_runs {whole : Piece} {start target : Nat} {exits : Exits} {opcode : Opcode}
    {way : Way} {jumps : Bool} (lies : Lies whole start [Cell.leave opcode way] exits)
    (exit : exits way = some target)
    (effect : m.effect { opcode } none before = some { stack := after, jumps })
    (reads : List (String × Instance)) :
    m.CellRuns whole ⟨start, before, reads⟩
      ⟨if jumps then target else start + 1, after, reads⟩ := by
  have found : whole[start]? = some (Cell.branch opcode ((target : Int) - start)) := by
    have there := lies 0 _ rfl
    simpa [Cell.close, Cell.leave, Cell.branch, exit] using there
  have place : next? (Cell.branch opcode ((target : Int) - start)) start jumps =
      some (if jumps then target else start + 1) := by
    cases jumps with
    | true =>
      rw [if_pos rfl]
      change some ((start : Int) + ((target : Int) - start)).toNat = some target
      congr 1
      omega
    | false => rfl
  have step := cellStep_eq ⟨start, before, reads⟩ found effect place
  rw [List.append_nil] at step
  exact .single step

theorem jump_runs {whole : Piece} {start target : Nat} {exits : Exits} {way : Way}
    (lies : Lies whole start [Cell.leave .branch way] exits)
    (exit : exits way = some target)
    (stack : List m.Value) (reads : List (String × Instance)) :
    m.CellRuns whole ⟨start, stack, reads⟩ ⟨target, stack, reads⟩ :=
  have effect :
      m.effect { opcode := .branch } none stack = some { stack, jumps := true } := rfl
  leave_runs lies exit effect reads

end Turns

end Meaning

def nameCell (v : Variable) : NameUse → Cell
  | .function name => Cell.pushFunction name
  | .stored name owner => readCell v (name, owner)

namespace Meaning

variable {m : Meaning}

theorem conversion_turns (type wanted : DataType) (x : m.Value) (stack : List m.Value) :
    m.Turns (conversion type wanted) (x :: stack) (m.coerce type wanted x :: stack)
      [] := by
  unfold conversion coerce
  split
  · exact .nil _
  · exact .cell rfl rfl

theorem binaryCell_turns (op : BinaryOp) (top second : DataType) (x y : m.Value)
    (stack : List m.Value) :
    m.Turns [binaryCell op top second] (y :: x :: stack)
      (m.apply op top second x y :: stack) [] := by
  unfold binaryCell apply
  cases comparison : op.comparison? with
  | some kind => exact .cell rfl rfl
  | none => cases op <;> first | exact .cell rfl rfl | cases comparison

theorem unaryCell_turns (op : UnaryOp) (type : DataType) (x : m.Value)
    (stack : List m.Value) :
    m.Turns [Cell.single (if op == .neg then .neg else .not) type] (x :: stack)
      (m.unary (if op == .neg then .neg else .not) type x :: stack) [] := by
  cases op <;> exact .cell rfl rfl

theorem literalCell_computes (value : Literal) :
    m.Computes [literalCell value] ⟨m.literal value, []⟩ := by
  intro stack
  cases value with
  | number value =>
    simp only [literalCell, literal]
    cases integerOf? value with
    | none => exact .cell rfl rfl
    | some n =>
      simp only [integerCell, integer]
      split
      · exact .cell rfl rfl
      · split <;> exact .cell rfl rfl
  | _ => exact .cell rfl rfl

theorem nameCell_computes (v : Variable) (use : NameUse) :
    m.Computes [nameCell v use] (m.name use) := by
  intro stack
  cases use with
  | function name => exact .cell rfl rfl
  | stored name owner =>
    refine .cell rfl ?_
    simp only [nameCell, readCell, Cell.pushVariable, pushOpcode]
    repeat' split
    all_goals rfl

end Meaning

structure IsCode (isLazy : Bool) (names : Variable → NameUse) (formula : Formula)
    (type : DataType) (piece : Piece) : Prop where
  type : type = formula.type names
  computes : ∀ m : Meaning, m.Computes piece (m.evaluate isLazy names formula)

def AreCode (isLazy : Bool) (names : Variable → NameUse) :
    List Formula → List (DataType × Piece) → Prop
  | [] => (· = [])
  | formula :: rest => StartsWith (IsCode isLazy names formula) (AreCode isLazy names rest)

section Formulas

variable {isLazy : Bool} {names : Variable → NameUse}

variable {op : BinaryOp} {others : List Formula} {parts : List (DataType × Piece)}
  {type : DataType}

theorem operandsType_eq (areCode : AreCode isLazy names others parts) (type : DataType) :
    operandsType op type parts = typeAfter names op type others := by
  induction others generalizing parts type with
  | nil =>
    obtain rfl : parts = [] := areCode
    rfl
  | cons next rest induction =>
    match parts, areCode with
    | (_, _) :: parts, ⟨isCode, areCode⟩ =>
      obtain rfl := isCode.type
      exact induction areCode _

theorem operandsPiece_turns {m : Meaning} (op : BinaryOp)
    (areCode : AreCode isLazy names others parts) (type : DataType) (x : m.Value)
    (stack : List m.Value) :
    m.Turns (operandsPiece op type parts) (x :: stack)
      ((m.evaluateAll isLazy names op type x others).value :: stack)
      (m.evaluateAll isLazy names op type x others).reads := by
  induction others generalizing parts type x with
  | nil =>
    obtain rfl : parts = [] := areCode
    exact .nil _
  | cons next rest induction =>
    match parts, areCode with
    | (_, piece) :: parts, ⟨isCode, areCode⟩ =>
      obtain rfl := isCode.type
      have evaluating := isCode.computes m (x :: stack)
      have converting :=
        evaluating.append_silent (Meaning.conversion_turns (next.type names)
        (operandType op (next.type names)) _ _)
      have applying := converting.append_silent
        (Meaning.binaryCell_turns op (operandType op (next.type names)) type x _ stack)
      exact applying.append (induction areCode _ _)

theorem IsCode.literal (pos : Position) (value : Literal) :
    IsCode isLazy names (.literal pos value) (literalType value) [literalCell value] :=
  ⟨rfl, fun _ => Meaning.literalCell_computes value⟩

theorem IsCode.name (v : Variable) :
    IsCode isLazy names (.name v) (names v).type [nameCell v (names v)] :=
  ⟨rfl, fun _ => Meaning.nameCell_computes v (names v)⟩

theorem IsCode.unary (pos : Position) (op : UnaryOp) {operand : Formula}
    {piece : Piece} (isCode : IsCode isLazy names operand type piece) :
    IsCode isLazy names (.unary pos op operand) (unaryOperandType op type)
      (unaryPiece op type piece) := by
  obtain rfl := isCode.type
  refine ⟨rfl, fun m stack => ?_⟩
  have converting := (isCode.computes m stack).append_silent (Meaning.conversion_turns
    (operand.type names) (unaryOperandType op (operand.type names)) _ _)
  exact converting.append_silent
    (Meaning.unaryCell_turns op (unaryOperandType op (operand.type names)) _ _)

theorem IsCode.chain (pos : Position) (strict : (isLogical op && isLazy) = false)
    {first : Formula} {piece : Piece} (isCode : IsCode isLazy names first type piece)
    (areCode : AreCode isLazy names others parts) :
    IsCode isLazy names (.chain pos op first others)
      (operandsType op (operandType op type) parts) (chainPiece op type piece parts) := by
  obtain rfl := isCode.type
  refine ⟨operandsType_eq areCode _, fun m stack => ?_⟩
  have converting := (isCode.computes m stack).append_silent (Meaning.conversion_turns
    (first.type names) (operandType op (first.type names)) _ _)
  have all := converting.append
    (operandsPiece_turns op areCode (operandType op (first.type names)) _ _)
  simp only [Meaning.evaluate, strict]
  exact all

theorem skip_effect {m : Meaning} (op : BinaryOp) (x : m.Value) (stack : List m.Value) :
    m.effect { opcode := skipOpcode op } none (x :: stack) =
      some { stack, jumps := m.truth x != (op == .and) } := by
  unfold skipOpcode
  cases op == .and with
  | true =>
    refine congrArg (fun jumps => some (⟨stack, [], jumps⟩ : Effect m)) ?_
    cases m.truth x <;> rfl
  | false =>
    refine congrArg (fun jumps => some (⟨stack, [], jumps⟩ : Effect m)) ?_
    cases m.truth x <;> rfl

/-- The operands after the first one run up to the end, or an operand decides the result
and the others are skipped. -/
theorem lazyPiece_runs {m : Meaning} (op : BinaryOp)
    (areCode : AreCode isLazy names others parts) (type : DataType) (x : m.Value)
    (stack : List m.Value) {whole : Piece} {start target : Nat} {exits : Exits}
    (lies : Lies whole start
      (lazyPiece (skipOpcode op) type parts ++ conversion (lastType type parts) .boolean)
      exits)
    (exit : exits (.ahead 2) = some target) (reads : List (String × Instance)) :
    m.CellRuns whole ⟨start, x :: stack, reads⟩
      ⟨start + (lazyPiece (skipOpcode op) type parts ++
          conversion (lastType type parts) .boolean).length,
        (m.evaluateLazily isLazy names op type x others).value :: stack,
        reads ++ (m.evaluateLazily isLazy names op type x others).reads⟩ ∨
    (m.evaluateLazily isLazy names op type x others).value = m.boolean (op == .or) ∧
      m.CellRuns whole ⟨start, x :: stack, reads⟩
        ⟨target, stack,
          reads ++ (m.evaluateLazily isLazy names op type x others).reads⟩ := by
  induction others generalizing parts type x start reads with
  | nil =>
    obtain rfl : parts = [] := areCode
    exact Or.inl ((Meaning.conversion_turns type .boolean x stack).runs lies reads)
  | cons next rest induction =>
    match parts, areCode with
    | (_, piece) :: parts, ⟨isCode, areCode⟩ =>
      obtain rfl := isCode.type
      simp only [lazyPiece, List.append_assoc, lastType] at lies ⊢
      have tested := (Meaning.conversion_turns type .boolean x stack).runs lies.left reads
      have branched := Meaning.leave_runs lies.right.left exit
        (skip_effect op (m.coerce type .boolean x) stack) reads
      rw [List.append_nil] at tested
      simp only [Meaning.evaluateLazily]
      split
      case isTrue goesOn =>
        rw [goesOn, bne_self_eq_false, if_neg Bool.false_ne_true] at branched
        have evaluated := (isCode.computes m stack).runs lies.right.right.left reads
        have front := (tested.trans branched).trans evaluated
        rcases induction areCode (next.type names) _ lies.right.right.right _ with
          finished | ⟨value, skipped⟩
        · left
          have all : m.CellRuns whole _ _ := front.trans finished
          simpa only [Outcome.bind, List.length_append, Nat.add_assoc, List.append_assoc]
            using all
        · refine Or.inr ⟨value, ?_⟩
          have all : m.CellRuns whole _ _ := front.trans skipped
          simpa only [Outcome.bind, List.append_assoc] using all
      case isFalse decided =>
        refine Or.inr ⟨rfl, ?_⟩
        rw [bne_iff_ne.mpr decided, if_pos rfl] at branched
        rw [List.append_nil]
        exact tested.trans branched

theorem lazyResult_computes {m : Meaning} (op : BinaryOp) :
    m.Computes (lazyResult op) ⟨m.boolean (op == .or), []⟩ := fun _ => .cell rfl rfl

theorem IsCode.lazyChain (pos : Position) (lazily : (isLogical op && isLazy) = true)
    {first : Formula} {piece : Piece} (isCode : IsCode isLazy names first type piece)
    (areCode : AreCode isLazy names others parts) :
    IsCode isLazy names (.chain pos op first others) .boolean
      (lazyChainPiece op type piece parts) := by
  obtain rfl := isCode.type
  have logical : isLogical op = true := (Bool.and_eq_true_iff.mp lazily).1
  refine ⟨(Formula.type_logical names pos logical first others).symm, fun m stack => ⟨?_⟩⟩
  intro whole start exits lies reads
  let tail := lazyPiece (skipOpcode op) (first.type names) parts ++
    conversion (lastType (first.type names) parts) .boolean
  have flat : (lazySegments op (first.type names) piece parts).flatten =
      piece ++ (tail ++ ([Cell.leave .branch (.ahead 3)] ++ lazyResult op)) := by
    simp [lazySegments, lazyOperands, tail]
  have size : (lazyChainPiece op (first.type names) piece parts).length =
      piece.length + tail.length + 2 := by
    simp [lazyChainPiece, flat, lazyResult, Nat.add_assoc]
  have inside := lies.join
  rw [flat] at inside
  let one := m.evaluate isLazy names first
  let rest := m.evaluateLazily isLazy names op (first.type names) one.value others
  have outcome : m.evaluate isLazy names (.chain pos op first others) =
      ⟨rest.value, one.reads ++ rest.reads⟩ := by
    simp only [Meaning.evaluate, lazily, Outcome.bind]
    rfl
  have skipTo : joined ⟨start, 0⟩ [none, none, some 2, some 3]
      (lazySegments op (first.type names) piece parts) exits (.ahead 2) =
        some (start + piece.length + tail.length + 1) := by
    rw [joined_ahead rfl]
    simp [Piece.startOf, lazySegments, lazyOperands, tail, Nat.add_assoc]
  have finishAt : joined ⟨start, 0⟩ [none, none, some 2, some 3]
      (lazySegments op (first.type names) piece parts) exits (.ahead 3) =
        some (start + (piece.length + tail.length + 2)) := by
    rw [joined_ahead rfl]
    simp [Piece.startOf, lazySegments, lazyOperands, lazyResult, tail, Nat.add_assoc]
  have evaluated := (isCode.computes m stack).runs inside.left reads
  rw [size, outcome, ← List.append_assoc]
  rcases lazyPiece_runs op areCode (first.type names) one.value stack inside.right.left
    skipTo (reads ++ one.reads) with finished | ⟨value, skipped⟩
  · have leaving :=
      Meaning.jump_runs inside.right.right.left finishAt (rest.value :: stack)
      (reads ++ one.reads ++ rest.reads)
    exact (evaluated.trans finished).trans leaving
  · have pushing := (lazyResult_computes op stack).runs inside.right.right.right
      (reads ++ one.reads ++ rest.reads)
    have value : rest.value = m.boolean (op == .or) := value
    rw [List.append_nil] at pushing
    rw [value, ← Nat.add_assoc, ← Nat.add_assoc]
    exact (evaluated.trans skipped).trans pushing

theorem ifElsePiece_computes {m : Meaning} {test one other : Piece}
    {condition yes no : Outcome m.Value} (tests : m.Computes test condition)
    (computesYes : m.Computes one yes) (computesNo : m.Computes other no) :
    m.Computes (ifElsePiece test one other)
      (condition.bind fun x => if m.truth x then yes else no) := by
  refine fun stack => ⟨?_⟩
  intro whole start exits lies reads
  have flat : (ifElseSegments test one other).flatten =
      test ++ ([Cell.leave .branchFalse (.ahead 2)] ++
        (one ++ ([Cell.leave .branch (.ahead 3)] ++ other))) := by
    simp [ifElseSegments]
  have size : (ifElsePiece test one other).length =
      test.length + 1 + one.length + 1 + other.length := by
    simp [ifElsePiece, flat]
    omega
  have elseAt :
    joined ⟨start, 0⟩ [none, none, some 4, some 5] (ifElseSegments test one other) exits
      (.ahead 2) = some (start + test.length + 1 + one.length + 1) := by
    rw [joined_ahead rfl]
    simp [Piece.startOf, ifElseSegments]
    omega
  have finishAt :
    joined ⟨start, 0⟩ [none, none, some 4, some 5] (ifElseSegments test one other)
      exits (.ahead 3) =
        some (start + (test.length + 1 + one.length + 1 + other.length)) := by
    rw [joined_ahead rfl]
    simp [Piece.startOf, ifElseSegments]
    omega
  have inside := lies.join
  rw [flat] at inside
  have tested := (tests stack).runs inside.left reads
  have effect : m.effect { opcode := .branchFalse } none (condition.value :: stack) =
      some { stack, jumps := !m.truth condition.value } := rfl
  have branched :=
    Meaning.leave_runs inside.right.left elseAt effect (reads ++ condition.reads)
  rw [size]
  simp only [Outcome.bind, ← List.append_assoc]
  cases truth : m.truth condition.value with
  | true =>
    rw [truth] at branched
    have evaluated :=
      (computesYes stack).runs inside.right.right.left (reads ++ condition.reads)
    have leaving :=
      Meaning.jump_runs inside.right.right.right.left finishAt (yes.value :: stack)
      (reads ++ condition.reads ++ yes.reads)
    exact ((tested.trans branched).trans evaluated).trans leaving
  | false =>
    rw [truth] at branched
    have evaluated := (computesNo stack).runs inside.right.right.right.right
      (reads ++ condition.reads)
    have place : start + (test.length + 1 + one.length + 1 + other.length) =
        start + test.length + 1 + one.length + 1 + other.length := by omega
    rw [place]
    exact (tested.trans branched).trans evaluated

theorem IsCode.coerced {m : Meaning} {formula : Formula} {piece : Piece}
    (isCode : IsCode isLazy names formula type piece) (wanted : DataType) :
    m.Computes (piece ++ conversion type wanted)
      ((m.evaluate isLazy names formula).map (m.coerce (formula.type names) wanted)) := by
  obtain rfl := isCode.type
  exact fun stack => (isCode.computes m stack).append_silent
    (Meaning.conversion_turns (formula.type names) wanted _ stack)

theorem IsCode.conditional (pos : Position) {condition yes no : Formula}
    {yesType noType : DataType} {c y n : Piece}
    (isCondition : IsCode isLazy names condition type c)
    (isYes : IsCode isLazy names yes yesType y) (isNo : IsCode isLazy names no noType n) :
    IsCode isLazy names (.conditional pos condition yes no) .variant
      (conditionalPiece type yesType noType c y n) :=
  ⟨rfl, fun _ => ifElsePiece_computes (isCondition.coerced .boolean)
    (isYes.coerced .variant) (isNo.coerced .variant)⟩

end Formulas

end GameScript.Evaluation
