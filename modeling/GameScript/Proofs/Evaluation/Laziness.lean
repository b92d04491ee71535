import GameScript.Proofs.Evaluation.Formula

/-! Booleans among the values of formulas.

Where conversions to booleans and comparisons give booleans, and conjunction and
disjunction are what they should be on them, laziness does not change the value of a
formula. -/

namespace GameScript.Evaluation

open Bytecode Emission Syntax

/-- Some values are booleans: all that have the type of booleans are, and conjunction and
disjunction are what they should be on them. -/
structure Meaning.LogicIsBoolean (m : Meaning) (isBoolean : m.Value → Prop) : Prop where
  literals : ∀ value, isBoolean (m.boolean value)
  truth : ∀ value, m.truth (m.boolean value) = value
  convert : ∀ type x, isBoolean (m.convert type .boolean x)
  compare : ∀ kind top second x y, isBoolean (m.compare kind top second x y)
  not : ∀ x, isBoolean x → isBoolean (m.unary .not .boolean x)
  and : ∀ x y, isBoolean x → isBoolean y →
    m.binary .and .boolean .boolean x y = if m.truth x then y else m.boolean false
  or : ∀ x y, isBoolean x → isBoolean y →
    m.binary .or .boolean .boolean x y = if m.truth x then m.boolean true else y

def combinesBooleans (op : BinaryOp) : Bool := op == .and || op == .or || op == .xor

theorem operandType_eq_boolean {op : BinaryOp} (arithmetic : op.comparison? = none)
    (type : DataType) : operandType op type = .boolean ↔ combinesBooleans op = true := by
  cases op <;> cases type <;> first | decide | cases arithmetic

theorem binaryType_eq_boolean {op : BinaryOp} (arithmetic : op.comparison? = none)
    {top second : DataType} (isTop : top = .boolean ↔ combinesBooleans op = true)
    (isSecond : second = .boolean ↔ combinesBooleans op = true) :
    binaryType op top second = .boolean ↔ combinesBooleans op = true := by
  have either : binaryType op top second = top ∨ binaryType op top second = second := by
    simp only [binaryType, arithmetic, resultType]
    repeat' split
    all_goals simp
  rcases either with same | same
  · rw [same, isTop]
  · rw [same, isSecond]

theorem literalType_eq_boolean {value : Literal}
    (isBoolean : literalType value = .boolean) : ∃ truth, value = .boolean truth := by
  cases value with
  | boolean truth => exact ⟨truth, rfl⟩
  | number value =>
    simp only [literalType, integerType] at isBoolean
    split at isBoolean
    · split at isBoolean <;> cases isBoolean
    · cases isBoolean
  | int64 value => cases isBoolean
  | string text => cases isBoolean

theorem unaryOperandType_eq_boolean {op : UnaryOp} {type : DataType}
    (isBoolean : unaryOperandType op type = .boolean) : op ≠ .neg := by
  rintro rfl
  cases type <;> cases isBoolean

namespace Meaning.LogicIsBoolean

variable {m : Meaning} {isBoolean : m.Value → Prop} (logic : m.LogicIsBoolean isBoolean)
  (isLazy : Bool) (names : Variable → NameUse)

include logic

theorem coerce {type : DataType} {x : m.Value} (known : type = .boolean → isBoolean x) :
    isBoolean (m.coerce type .boolean x) := by
  unfold Meaning.coerce
  split
  case isTrue same => exact known same
  case isFalse => exact logic.convert type x

theorem combine {op : BinaryOp} (combines : combinesBooleans op = true) {x y : m.Value}
    (isX : isBoolean x) (isY : isBoolean y) :
    isBoolean (m.apply op .boolean .boolean x y) := by
  have conjunction : isBoolean (m.binary .and .boolean .boolean x y) := by
    rw [logic.and x y isX isY]
    split
    · exact isY
    · exact logic.literals false
  have disjunction : isBoolean (m.binary .or .boolean .boolean x y) := by
    rw [logic.or x y isX isY]
    split
    · exact logic.literals true
    · exact isY
  cases op <;> first | exact conjunction | exact disjunction | cases combines

theorem apply {op : BinaryOp} {top second : DataType}
    (isTop : op.comparison? = none → (top = .boolean ↔ combinesBooleans op = true))
    (isSecond : op.comparison? = none → (second = .boolean ↔ combinesBooleans op = true))
    {x y : m.Value} (knownX : second = .boolean → isBoolean x)
    (knownY : top = .boolean → isBoolean y)
    (result : binaryType op top second = .boolean) :
    isBoolean (m.apply op top second x y) := by
  cases kind : op.comparison? with
  | some kind' =>
    rw [Meaning.apply, kind]
    exact logic.compare kind' top second x y
  | none =>
    have combines := (binaryType_eq_boolean kind (isTop kind) (isSecond kind)).mp result
    obtain rfl := (isTop kind).mpr combines
    obtain rfl := (isSecond kind).mpr combines
    exact logic.combine combines (knownX rfl) (knownY rfl)

mutual

theorem evaluate : ∀ formula : Formula, formula.type names = .boolean →
    isBoolean (m.evaluate isLazy names formula).value
  | .literal _ value, type => by
    obtain ⟨truth, rfl⟩ := literalType_eq_boolean type
    exact logic.literals truth
  | .name v, type => by
    simp only [Formula.type] at type
    cases use : names v <;> simp [use, NameUse.type] at type
  | .unary _ op operand, type => by
    have known := evaluate operand
    simp only [Formula.type] at type
    simp only [Meaning.evaluate, Outcome.map, type,
      beq_eq_false_iff_ne.mpr (unaryOperandType_eq_boolean type)]
    exact logic.not _ (logic.coerce known)
  | .chain _ op first others, type => by
    have known := evaluate first
    simp only [Formula.type] at type
    simp only [Meaning.evaluate, Outcome.bind]
    split
    · exact evaluateLazily op others known
    · refine evaluateAll op others (fun arithmetic => operandType_eq_boolean arithmetic _)
        (fun isBoolean => ?_) type
      rw [isBoolean]
      exact logic.coerce known
  | .conditional _ _ _ _, type => by cases type

theorem evaluateAll (op : BinaryOp) :
    ∀ (others : List Formula) {type : DataType} {x : m.Value}
    (_ : op.comparison? = none → (type = .boolean ↔ combinesBooleans op = true))
    (_ : type = .boolean → isBoolean x), typeAfter names op type others = .boolean →
    isBoolean (m.evaluateAll isLazy names op type x others).value
  | [], _, _, _, known, type => known type
  | next :: rest, _, _, isType, known, type => by
    have isNext := evaluate next
    have isWanted (arithmetic : op.comparison? = none) :=
      operandType_eq_boolean arithmetic (next.type names)
    refine evaluateAll op rest (fun arithmetic => ?_) (fun result => ?_) type
    · exact binaryType_eq_boolean arithmetic (isWanted arithmetic) (isType arithmetic)
    · refine logic.apply isWanted isType known (fun wanted => ?_) result
      rw [wanted]
      exact logic.coerce isNext

theorem evaluateLazily (op : BinaryOp) :
    ∀ (others : List Formula) {type : DataType} {x : m.Value}
    (_ : type = .boolean → isBoolean x),
    isBoolean (m.evaluateLazily isLazy names op type x others).value
  | [], _, _, known => logic.coerce known
  | next :: rest, _, _, _ => by
    have isNext := evaluate next
    simp only [Meaning.evaluateLazily]
    split
    · exact evaluateLazily op rest isNext
    · exact logic.literals _

end

end Meaning.LogicIsBoolean

/-! Laziness does not change values. -/

namespace Meaning.LogicIsBoolean

section Chains

variable {m : Meaning} {isBoolean : m.Value → Prop} (logic : m.LogicIsBoolean isBoolean)
  (names : Variable → NameUse)

include logic

/-- The first operand of a logical operator decides whether the second one matters. -/
theorem apply_logical {op : BinaryOp} (logical : isLogical op = true) {x y : m.Value}
    (isX : isBoolean x) (isY : isBoolean y) :
    m.apply op .boolean .boolean x y =
      if m.truth x = (op == .and) then y else m.boolean (op == .or) := by
  have conjunction := logic.and x y isX isY
  have disjunction := logic.or x y isX isY
  cases op <;> try cases logical
  case and => exact conjunction
  case or =>
    refine disjunction.trans ?_
    cases truth : m.truth x <;> simp

/-- Once the result of a chain is known, the other operands do not change it. -/
theorem evaluateAll_decided {op : BinaryOp} (logical : isLogical op = true)
    (others : List Formula) :
    (m.evaluateAll false names op .boolean (m.boolean (op == .or)) others).value =
      m.boolean (op == .or) := by
  induction others with
  | nil => rfl
  | cons next rest induction =>
    have isNext := logic.coerce (logic.evaluate false names next)
    have decided : ¬ (op == .or) = (op == .and) := by
      cases op <;> first | decide | cases logical
    simp only [Meaning.evaluateAll, Outcome.bind, operandType_logical logical,
      binaryType_boolean]
    rw [logic.apply_logical logical (logic.literals _) isNext, logic.truth, if_neg decided]
    exact induction

theorem evaluateLazily_eq {op : BinaryOp} (logical : isLogical op = true)
    (others : List Formula) (same : ∀ operand ∈ others,
      (m.evaluate true names operand).value = (m.evaluate false names operand).value)
    {type : DataType} {x : m.Value} (known : type = .boolean → isBoolean x) :
    (m.evaluateLazily true names op type x others).value =
      (m.evaluateAll false names op .boolean (m.coerce type .boolean x) others).value := by
  induction others generalizing type x with
  | nil => rfl
  | cons next rest induction =>
    obtain ⟨sameNext, sameRest⟩ := List.forall_mem_cons.mp same
    have isNext := logic.evaluate false names next
    simp only [Meaning.evaluateLazily, Meaning.evaluateAll, Outcome.bind,
      operandType_logical logical, binaryType_boolean]
    rw [logic.apply_logical logical (logic.coerce known) (logic.coerce isNext)]
    split
    · rw [sameNext]
      exact induction sameRest isNext
    · exact (logic.evaluateAll_decided names logical rest).symm

omit logic in
theorem evaluateAll_congr {op : BinaryOp} (others : List Formula)
    (same : ∀ operand ∈ others,
      (m.evaluate true names operand).value = (m.evaluate false names operand).value)
    (type : DataType) (x : m.Value) :
    (m.evaluateAll true names op type x others).value =
      (m.evaluateAll false names op type x others).value := by
  induction others generalizing type x with
  | nil => rfl
  | cons next rest induction =>
    obtain ⟨sameNext, sameRest⟩ := List.forall_mem_cons.mp same
    simp only [Meaning.evaluateAll, Outcome.bind, sameNext]
    exact induction sameRest _ _

end Chains

variable {m : Meaning} {isBoolean : m.Value → Prop}

mutual

theorem evaluate_eq (logic : m.LogicIsBoolean isBoolean) (names : Variable → NameUse) :
    ∀ formula : Formula,
      (m.evaluate true names formula).value = (m.evaluate false names formula).value
  | .literal _ _ => rfl
  | .name _ => rfl
  | .unary _ op operand => by
    have same := evaluate_eq logic names operand
    simp only [Meaning.evaluate, Outcome.map, same]
  | .chain _ op first others => by
    have same := evaluate_eq logic names first
    have all := evaluate_eq_all logic names others
    simp only [Meaning.evaluate, Outcome.bind, same, Bool.and_true, Bool.and_false]
    split
    case isTrue logical =>
      rw [if_neg Bool.false_ne_true, operandType_logical logical]
      exact logic.evaluateLazily_eq names logical others all
        (logic.evaluate false names first)
    case isFalse =>
      rw [if_neg Bool.false_ne_true]
      exact evaluateAll_congr names others all _ _
  | .conditional _ condition yes no => by
    have sameCondition := evaluate_eq logic names condition
    have sameYes := evaluate_eq logic names yes
    have sameNo := evaluate_eq logic names no
    simp only [Meaning.evaluate, Outcome.bind, sameCondition]
    split
    · simp only [Outcome.map, sameYes]
    · simp only [Outcome.map, sameNo]

theorem evaluate_eq_all (logic : m.LogicIsBoolean isBoolean) (names : Variable → NameUse) :
    ∀ (others : List Formula), ∀ operand ∈ others,
      (m.evaluate true names operand).value = (m.evaluate false names operand).value
  | [] => List.forall_mem_nil _
  | next :: rest =>
    List.forall_mem_cons.mpr
      ⟨evaluate_eq logic names next, evaluate_eq_all logic names rest⟩

end

end Meaning.LogicIsBoolean

end GameScript.Evaluation
