import GameScript.Proofs.Evaluation.Laziness
import GameScript.Proofs.Evaluation.Names

/-! Emitted formulas compute their values.

From its first instruction to its end, the code of a formula pushes the value of the
formula and reads what its evaluation reads.  Where logic is about booleans, the value does
not depend on whether the target is lazy. -/

namespace GameScript.Emission

open Evaluation

/-- The instructions emitted since an earlier state, with their names. -/
def Emitter.codeSince (t s : Emitter) : NamedCode :=
  (t.code.toList.drop s.code.size).mapIdx fun index ins =>
    (ins, (t.symbols.toList.drop s.symbols.size).lookup (s.code.size + index))

theorem Extends.codeSince {s t : Emitter} {piece : Piece}
    (growth : Extends noAims s t piece) : t.codeSince s = placed piece s.length := by
  have code : t.code.toList.drop s.code.size = piece.realize noAims s.length := by
    rw [growth.code, ← Array.length_toList, List.drop_left]
  have symbols : t.symbols.toList.drop s.symbols.size = piece.symbolsFrom s.code.size := by
    rw [growth.symbols, ← Array.length_toList, List.drop_left]
  unfold Emitter.codeSince
  rw [code, symbols]
  refine List.ext_getElem? fun index => ?_
  rw [List.getElem?_mapIdx, Piece.getElem?_realize, Piece.lookup_symbolsFrom]
  cases found : piece[index]? with
  | none =>
    have outside := List.getElem?_eq_none_iff.mp found
    symm
    simpa [placed] using outside
  | some cell =>
    rw [getElem?_placed _ found]
    rfl

def Environment.withLogic (env : Environment) (isLazy : Bool) : Environment :=
  { env with target := { env.target with lazyLogic := isLazy } }

end GameScript.Emission

namespace GameScript.Evaluation

open Bytecode Emission Syntax

/-! Code of formulas whose names are settled. -/

section Formulas

variable {env : Environment} {names : Variable → NameUse}

theorem emitUse_emits (v : Variable) (use : NameUse) :
    EmitsValue env (emitUse v use) fun _ type piece =>
      type = use.type ∧ piece = [nameCell v use] := by
  intro s
  cases use with
  | function name =>
    exact (pushed_adds .int32 (emitPushFunction_adds name)).mono fun _ _ adds =>
      ⟨_, _, adds, rfl, rfl⟩
  | stored name owner =>
    exact (pushed_adds .variant (emitPushVariable_adds _ _)).mono fun _ _ adds =>
      ⟨_, _, adds, rfl, rfl⟩

variable (env names)

mutual

theorem emitFormula_emits : ∀ formula : Formula,
    EmitsValue env (emitFormula names formula) fun _ =>
      IsCode env.target.lazyLogic names formula
  | .literal pos value => by
    rw [emitFormula]
    refine goTo_emitsValue pos fun s => ?_
    exact (emitLiteral_adds value).mono fun _ _ adds => ⟨_, _, adds, .literal pos value⟩
  | .name v => by
    rw [emitFormula]
    refine goTo_emitsValue v.pos ((emitUse_emits v (names v)).mono ?_)
    rintro _ _ _ ⟨rfl, rfl⟩
    exact .name v
  | .unary pos op operand => by
    rw [emitFormula]
    refine goTo_emitsValue pos ((emitUnary_emits op (emitFormula_emits operand)).mono ?_)
    rintro _ _ _ ⟨_, _, isCode, rfl, rfl⟩
    exact isCode.unary pos op
  | .chain pos op first others => by
    rw [emitFormula]
    have isFirst := emitFormula_emits first
    refine goTo_emitsValue pos ?_
    cases isLazy : BinaryOp.isLazy env.target op with
    | true =>
      refine (emitLazyChain_emits isLazy isFirst
        (emitLazyFormulas_emits (skipOpcode op) others)).mono ?_
      rintro _ _ _ ⟨_, _, _, isCode, areCode, rfl, rfl⟩
      exact isCode.lazyChain pos isLazy areCode
    | false =>
      refine (emitChain_emits isLazy isFirst (emitFormulas_emits op others)).mono ?_
      rintro _ _ _ ⟨_, _, _, isCode, areCode, rfl, rfl⟩
      exact isCode.chain pos isLazy areCode
  | .conditional pos condition yes no => by
    rw [emitFormula]
    have emits :=
      emitConditional_emits (emitFormula_emits condition) (emitFormula_emits yes)
      (emitFormula_emits no)
    refine goTo_emitsValue pos (emits.mono ?_)
    rintro _ _ _ ⟨_, _, _, _, _, _, isCondition, isYes, isNo, rfl, rfl⟩
    exact isCondition.conditional pos isYes isNo

theorem emitFormulas_emits (op : BinaryOp) : ∀ others : List Formula,
    EmitsOperands env op (emitFormulas names op others)
      (AreCode env.target.lazyLogic names others)
  | [] => noOperands_emits op
  | next :: rest => by
    rw [emitFormulas]
    exact nextOperand_emits (emitFormula_emits next) (emitFormulas_emits op rest)

theorem emitLazyFormulas_emits (skip : Opcode) : ∀ others : List Formula,
    EmitsLazyOperands env skip (emitLazyFormulas names skip others)
      (AreCode env.target.lazyLogic names others)
  | [] => noLazyOperands_emits skip
  | next :: rest => by
    rw [emitLazyFormulas]
    exact nextLazyOperand_emits (emitFormula_emits next) (emitLazyFormulas_emits skip rest)

end

end Formulas

section Runs

variable {env : Environment} {formula : Formula} {s t : Emitter}

/-- A formula adds code of it, its names standing for what they did before. -/
theorem emitExpr_isCode (ran : ((emitExpr formula.expr).run env).run s = .ok ((), t)) :
    ∃ type piece, Adds s t piece (type :: s.types) ∧
      IsCode env.target.lazyLogic (s.use env) formula type piece := by
  have same := (emitExpr_agrees env (s.use env) formula).same s rfl
  rw [ran] at same
  exact (emitFormula_emits env (s.use env) formula s).of_run same.symm

theorem IsCode.runs {isLazy : Bool} {names : Variable → NameUse} {type : DataType}
    {piece : Piece} (isCode : IsCode isLazy names formula type piece)
    (closed : piece.Closed)
    (short : piece.size < 2 ^ 32) (base : Nat) (m : Meaning) (stack : List m.Value) :
    m.Runs (placed piece base) ⟨base, stack, []⟩
      ⟨((base + piece.size : Nat) : Int), (m.evaluate isLazy names formula).value :: stack,
        (m.evaluate isLazy names formula).reads⟩ := by
  have whole := (isCode.computes m stack).runs (Lies.self closed fun _ => none) []
  have runs : m.Runs (placed piece base) _ _ := Meaning.Runs.ofCells short whole
  simpa [Meaning.atAddress, Piece.offset_length, Piece.offset_zero] using runs

theorem emitExpr_runs (ran : ((emitExpr formula.expr).run env).run s = .ok ((), t))
    (short : t.length < 2 ^ 32) (m : Meaning) (stack : List m.Value) :
    let outcome := m.evaluate env.target.lazyLogic (s.use env) formula
    let last : Config m Int := ⟨t.length, outcome.value :: stack, outcome.reads⟩
    m.Runs (t.codeSince s) ⟨s.length, stack, []⟩ last ∧
      m.step (t.codeSince s) last = none := by
  obtain ⟨_, piece, adds, isCode⟩ := emitExpr_isCode ran
  have growth := adds.growth noAims
  have fits : piece.size < 2 ^ 32 := by
    have := growth.length
    omega
  rw [growth.codeSince, growth.length]
  exact ⟨isCode.runs adds.closed fits s.length m stack,
    Meaning.step_end piece s.length _ _⟩

end Runs

theorem Meaning.LogicIsBoolean.evaluate_lazy_eq {m : Meaning} {isBoolean : m.Value → Prop}
    (logic : m.LogicIsBoolean isBoolean) (names : Variable → NameUse) (formula : Formula)
    (isLazy other : Bool) :
    (m.evaluate isLazy names formula).value = (m.evaluate other names formula).value := by
  have same := logic.evaluate_eq names formula
  cases isLazy <;> cases other <;> simp [same]

/-- The code of a formula runs from its first instruction to its end and no further.  It
leaves the stack as it was but for the value of the formula, and has read what evaluation
reads. -/
theorem emitted_formula_evaluates {env : Environment} {formula : Formula} {s t : Emitter}
    (ran : ((emitExpr formula.expr).run env).run s = .ok ((), t))
    (short : t.length < 2 ^ 32) (m : Meaning) (stack : List m.Value) :
    let outcome := m.evaluate env.target.lazyLogic (s.use env) formula
    let last : Config m Int := ⟨t.length, outcome.value :: stack, outcome.reads⟩
    m.Runs (t.codeSince s) ⟨s.length, stack, []⟩ last ∧
      m.step (t.codeSince s) last = none ∧
      ∀ isBoolean, m.LogicIsBoolean isBoolean → ∀ (isLazy : Bool) (u : Emitter),
        ((emitExpr formula.expr).run (env.withLogic isLazy)).run s = .ok ((), u) →
        u.length < 2 ^ 32 →
        ∃ reads, m.Runs (u.codeSince s) ⟨s.length, stack, []⟩
          ⟨u.length, outcome.value :: stack, reads⟩ := by
  obtain ⟨runs, stops⟩ := emitExpr_runs ran short m stack
  refine ⟨runs, stops, fun isBoolean logic isLazy u ranOther shortOther => ?_⟩
  -- names do not depend on the logic of the target
  have same := logic.evaluate_lazy_eq (s.use env) formula isLazy env.target.lazyLogic
  obtain ⟨runsOther, -⟩ := emitExpr_runs ranOther shortOther m stack
  have uses : s.use (env.withLogic isLazy) = s.use env := rfl
  rw [uses] at runsOther
  exact ⟨_, same ▸ runsOther⟩

/-! A formula that is lazy about one of its names. -/

/-- `(a || b) ? c + 1 : -d` -/
def guardedSum : Formula :=
  .conditional 0
    (.chain 0 .or (.name { pos := 0, name := "a" }) [.name { pos := 0, name := "b" }])
    (.chain 0 .add (.name { pos := 0, name := "c" }) [.literal 0 (.boolean true)])
    (.unary 0 .neg (.name { pos := 0, name := "d" }))

/-- Integers, of which the positive ones are true; every variable holds 6. -/
abbrev integers : Meaning where
  Value := Int
  constant
    | .int16 value => value.toInt
    | _ => 0
  text _ := 0
  function _ := 0
  read _ _ := 6
  convert _ wanted x := if wanted = .boolean then (if 0 < x then 1 else 0) else x
  unary opcode _ x := if opcode = .neg then -x else if 0 < x then 0 else 1
  binary opcode _ _ x y :=
    match opcode with
    | .and => if 0 < x then y else 0
    | .or => if 0 < x then 1 else y
    | .add => x + y
    | _ => 0
  compare _ _ _ x y := if x = y then 1 else 0
  truth x := 0 < x

def IsBit (x : Int) : Prop := x = 0 ∨ x = 1

theorem isBit_ite (condition : Prop) [Decidable condition] :
    IsBit (if condition then 1 else 0) := by
  split
  · exact .inr rfl
  · exact .inl rfl

theorem integers_logic : integers.LogicIsBoolean IsBit where
  literals value := by
    cases value with
    | false => exact .inl rfl
    | true => exact .inr rfl
  truth value := by cases value <;> rfl
  convert _ x := isBit_ite (0 < x)
  compare _ _ _ x y := isBit_ite (x = y)
  not x isX := by
    rcases isX with rfl | rfl
    · exact .inr rfl
    · exact .inl rfl
  and x y isX _ := by rcases isX with rfl | rfl <;> rfl
  or x y isX _ := by rcases isX with rfl | rfl <;> rfl

/-- The code so far has so few bytes that addresses are 32-bit numbers. -/
def isShort (result : Unit × Emitter) : Bool := decide (result.2.length < 2 ^ 32)

theorem guardedSum_evaluates :
    ∃ t u : Emitter,
      ((emitExpr guardedSum.expr).run bareEnvironment).run {} = .ok ((), t) ∧
      ((emitExpr guardedSum.expr).run (bareEnvironment.withLogic false)).run
      {} = .ok ((), u) ∧
      integers.Runs (t.codeSince {}) ⟨0, [], []⟩
        ⟨t.length, [(7 : Int)], [("a", .self), ("c", .self)]⟩ ∧
      integers.step (t.codeSince {})
        ⟨t.length, [(7 : Int)], [("a", .self), ("c", .self)]⟩ = none ∧
      ∃ reads, integers.Runs (u.codeSince {}) ⟨0, [], []⟩
        ⟨u.length, [(7 : Int)], reads⟩ := by
  have ends : endsWith isShort (((emitExpr guardedSum.expr).run bareEnvironment).run {}) =
      true := by
    decide +kernel
  have endsOther : endsWith isShort (((emitExpr guardedSum.expr).run
      (bareEnvironment.withLogic false)).run {}) = true := by
    decide +kernel
  have value : (integers.evaluate bareEnvironment.target.lazyLogic
      (({} : Emitter).use bareEnvironment) guardedSum).value =
        (7 : Int) := by decide +kernel
  have reads : (integers.evaluate bareEnvironment.target.lazyLogic
      (({} : Emitter).use bareEnvironment) guardedSum).reads =
        [("a", .self), ("c", .self)] := by
    decide +kernel
  obtain ⟨⟨⟨⟩, t⟩, ran, short⟩ := exists_of_endsWith ends
  obtain ⟨⟨⟨⟩, u⟩, ranOther, shortOther⟩ := exists_of_endsWith endsOther
  have evaluates := emitted_formula_evaluates ran (of_decide_eq_true short) integers []
  simp only [value, reads] at evaluates
  obtain ⟨runs, stops, other⟩ := evaluates
  exact ⟨t, u, ran, ranOther, runs, stops,
    other IsBit integers_logic false u ranOther (of_decide_eq_true shortOther)⟩

/-- `(a == b) && (c == d)` -/
def comparedPairs : Formula :=
  .chain 0 .and
    (.chain 0 .eq (.name { pos := 0, name := "a" }) [.name { pos := 0, name := "b" }])
    [.chain 0 .eq (.name { pos := 0, name := "c" }) [.name { pos := 0, name := "d" }]]

/-- Integers again, but every comparison gives 2, which is true and no bit. -/
abbrev doublingComparisons : Meaning :=
  { integers with
    binary := fun opcode _ _ x y =>
      if opcode = .and then (if 0 < x ∧ 0 < y then 1 else 0)
      else if 0 < x ∨ 0 < y then 1 else 0
    compare := fun _ _ _ _ _ => 2 }

/-- It is not enough that conversions give booleans and that conjunction and disjunction
are those of truth values: a lazy conjunction leaves what a comparison gave, an eager one a
boolean. -/
theorem comparedPairs_depend_on_logic :
    (∀ type x, IsBit (doublingComparisons.convert type .boolean x)) ∧
    (∀ x y, doublingComparisons.binary .and .boolean .boolean x y =
      doublingComparisons.boolean
        (doublingComparisons.truth x && doublingComparisons.truth y)) ∧
    (∀ x y, doublingComparisons.binary .or .boolean .boolean x y =
      doublingComparisons.boolean
        (doublingComparisons.truth x || doublingComparisons.truth y)) ∧
    ∃ t u : Emitter,
      ((emitExpr comparedPairs.expr).run bareEnvironment).run {} = .ok ((), t) ∧
      ((emitExpr comparedPairs.expr).run (bareEnvironment.withLogic false)).run
      {} = .ok ((), u) ∧
      (∃ reads, doublingComparisons.Runs (t.codeSince {}) ⟨0, [], []⟩
        ⟨t.length, [(2 : Int)], reads⟩) ∧
      ∃ reads, doublingComparisons.Runs (u.codeSince {}) ⟨0, [], []⟩
        ⟨u.length, [(1 : Int)], reads⟩ := by
  refine ⟨fun _ x => isBit_ite (0 < x), fun x y => ?_, fun x y => ?_, ?_⟩
  · by_cases isX : 0 < x <;> by_cases isY : 0 < y <;> simp [isX, isY] <;> rfl
  · by_cases isX : 0 < x <;> by_cases isY : 0 < y <;> simp [isX, isY] <;> rfl
  have ends : endsWith isShort
      (((emitExpr comparedPairs.expr).run bareEnvironment).run {}) = true := by
    decide +kernel
  have endsOther : endsWith isShort (((emitExpr comparedPairs.expr).run
      (bareEnvironment.withLogic false)).run {}) = true := by
    decide +kernel
  have value : (doublingComparisons.evaluate bareEnvironment.target.lazyLogic
      (({} : Emitter).use bareEnvironment) comparedPairs).value =
        (2 : Int) := by decide +kernel
  have valueOther :
    (doublingComparisons.evaluate (bareEnvironment.withLogic false).target.lazyLogic
      (({} : Emitter).use (bareEnvironment.withLogic false)) comparedPairs).value =
        (1 : Int) := by
    decide +kernel
  obtain ⟨⟨⟨⟩, t⟩, ran, short⟩ := exists_of_endsWith ends
  obtain ⟨⟨⟨⟩, u⟩, ranOther, shortOther⟩ := exists_of_endsWith endsOther
  obtain ⟨runs, -⟩ := emitExpr_runs ran (of_decide_eq_true short) doublingComparisons []
  obtain ⟨runsOther, -⟩ :=
    emitExpr_runs ranOther (of_decide_eq_true shortOther) doublingComparisons []
  rw [value] at runs
  rw [valueOther] at runsOther
  exact ⟨t, u, ran, ranOther, ⟨_, runs⟩, _, runsOther⟩

end GameScript.Evaluation
