import GameScript.Proofs.Emission.Carry

/-! The stack on which statements rest.

Between the statements of a loop the stack holds one value for each open
`switch` and `repeat`, and every statement leaves it so. -/

namespace GameScript.Emission

open Builtin Bytecode Number Syntax

def LoopKind.keeps : LoopKind → MarkerStack
  | .switch _ | .repeatLoop => [false]
  | .plain | .withLoop => []

/-- The stack between the statements of the innermost of the given loops. -/
def resting (kinds : List LoopKind) : MarkerStack := kinds.flatMap LoopKind.keeps

def restingWays (kinds : List LoopKind) : Ways
  | .breakLoop, level => kinds ≠ [] ∧ level = resting kinds
  | .continueLoop, level =>
    beyondSwitches kinds ≠ [] ∧ level = resting (beyondSwitches kinds)
  | .ahead _, _ => False

def Rests (demands : Demands) (kinds : List LoopKind) (n : Nat) (piece : Piece) : Prop :=
  Carries demands (restingWays kinds) (resting kinds) piece (resting kinds) n

def Pushes (demands : Demands) (n : Nat) (piece : Piece) : Prop :=
  ∀ ways base, Carries demands ways base piece (false :: base) n

section

variable {demands : Demands} {ways : Ways} {kinds : List LoopKind} {kind : LoopKind}
  {n m k : Nat} {condition yes no body step : Piece} {type : DataType} {base : MarkerStack}
  {labels : List (Option MarkerStack)}

theorem Carries.recount {before after : MarkerStack} {piece : Piece}
    (carried : Carries demands ways before piece after n) (same : n = m) :
    Carries demands ways before piece after m := same ▸ carried

theorem Rests.within {piece : Piece} (rests : Rests demands kinds n piece) :
    Carries demands ((restingWays kinds).within labels) (resting kinds) piece
      (resting kinds) n := by
  refine Carries.weaken rests fun way level holds => ?_
  cases way with
  | breakLoop => exact holds
  | continueLoop => exact holds
  | ahead label => exact False.elim holds

namespace Rests

variable {piece : Piece} {targets : List (Option Nat)}
  {segments : List Piece} {index : Nat}

theorem loops (rests : Rests demands kinds n piece) {cell : Cell} (member : cell ∈ piece)
    {way : Way} (taken : cell.Takes way) :
    cell.link = .leave way ∧ (way = .breakLoop ∨ way = .continueLoop) := by
  obtain ⟨⟨level, leads⟩, labelled⟩ := Carries.obeys rests cell member way taken
  cases way with
  | breakLoop => exact ⟨taken.resolve_right fun link => labelled link, Or.inl rfl⟩
  | continueLoop => exact ⟨taken.resolve_right fun link => labelled link, Or.inr rfl⟩
  | ahead label => exact False.elim leads

theorem unawaited (rests : Rests demands kinds n piece) :
    ∀ cell ∈ piece, ∀ way, cell.link ≠ .await way := by
  intro cell member way link
  have left := (rests.loops member (Or.inr link)).1
  rw [link] at left
  simp at left

theorem strides (rests : Rests demands kinds n piece) :
    piece.StridesAt (exitsTo targets) segments index := by
  intro cell member way target exit
  have nowhere : ¬ cell.Takes way := by
    intro taken
    rcases (rests.loops member taken).2 with rfl | rfl <;> simp [exitsTo] at exit
  exact ⟨fun link => absurd (Or.inl link) nowhere, fun link =>
    absurd (Or.inr link) nowhere⟩

theorem stridesRedirected {rename : Way → Way} (rests : Rests demands kinds n piece)
    (breaks : ∀ target, exitsTo targets (rename .breakLoop) = some target → index < target)
    (continues : ∀ target, exitsTo targets (rename .continueLoop) = some target →
      index < target ∨ Piece.startOf segments target < Piece.startOf segments index) :
    (piece.redirect rename).StridesAt (exitsTo targets) segments index := by
  intro cell member way target exit
  obtain ⟨old, oldMember, rfl⟩ := Piece.mem_redirect.mp member
  refine ⟨fun link _ => ?_, fun link => ?_⟩
  · obtain ⟨oldWay, oldLink, rfl⟩ := Cell.redirect_link_leave.mp link
    rcases (rests.loops oldMember (Or.inl oldLink)).2 with rfl | rfl
    · exact Or.inl (breaks target exit)
    · exact continues target exit
  · obtain ⟨oldWay, oldLink, -⟩ := Cell.redirect_link_await.mp link
    exact absurd oldLink (rests.unawaited old oldMember oldWay)

end Rests

theorem Carries.branchFalse {x : Bool} {way : Way} (leads : ways way base) :
    Carries demands ways (x :: base) [Cell.leave .branchFalse way] base 0 :=
  .leave rfl leads fun _ => ⟨fun _ => rfl, fun _ => rfl⟩

theorem Carries.branchTrue {x : Bool} {way : Way} (leads : ways way base) :
    Carries demands ways (x :: base) [Cell.leave .branchTrue way] base 0 :=
  .leave rfl leads fun _ => ⟨fun _ => rfl, fun _ => rfl⟩

/-- Nothing is reached behind a branch but by other branches. -/
theorem Carries.jump {after : MarkerStack} {way : Way} (leads : ways way base) :
    Carries demands ways base [Cell.leave .branch way] after 0 :=
  .leave rfl leads fun _ => ⟨fun _ => rfl, fun differs => absurd rfl differs⟩

namespace Pushes

theorem closed (pushes : Pushes demands n condition) : condition.Closed :=
  (pushes _ []).closed

theorem ne_nil (pushes : Pushes demands n condition) : condition ≠ [] := by
  intro empty
  have same := (pushes (fun _ _ => False) []).eq_of_nil empty
  simp at same

theorem converted (pushes : Pushes demands n condition) (type wanted : DataType) :
    Pushes demands n (condition ++ conversion type wanted) :=
  fun ways base => (pushes ways base).append (.conversion type wanted)

theorem unary (pushes : Pushes demands n condition) (op : UnaryOp) (type : DataType) :
    Pushes demands n (unaryPiece op type condition) :=
  fun ways base => ((pushes ways base).append (.conversion type _)).append (.unary op _)

theorem conditional (pushes : Pushes demands n condition)
    (pushesYes : Pushes demands m yes) (pushesNo : Pushes demands k no)
    (yesType noType : DataType) :
    Pushes demands (n + m + k)
      (conditionalPiece type yesType noType condition yes no) := by
  intro ways base
  refine (Carries.joined [base, false :: base, base, false :: base, base, false :: base]
    [none, none, some base, some (false :: base)]
    [n, 0, m, 0, k] ?_ ?_ ?_ rfl rfl).recount ?_
  · exact ⟨pushes.converted _ _ _ _, .branchFalse rfl, pushesYes.converted _ _ _ _,
      .jump rfl, pushesNo.converted _ _ _ _, trivial⟩
  · exact ⟨rfl, rfl, trivial⟩
  · exact ⟨(pushes.converted _ _).closed.strides, Piece.strides_ahead (by simp),
      (pushesYes.converted _ _).closed.strides, Piece.strides_ahead (by simp),
      (pushesNo.converted _ _).closed.strides, trivial⟩
  · simp only [List.sum_cons, List.sum_nil]
    omega

end Pushes

/-- Each of the operands pushes a value, and together they start so many `catch` blocks. -/
inductive PushAll (demands : Demands) : Nat → List (DataType × Piece) → Prop where
  | nil : PushAll demands 0 []
  | cons {n m : Nat} {piece : Piece} {others : List (DataType × Piece)} (type : DataType)
      (pushes : Pushes demands n piece) (more : PushAll demands m others) :
      PushAll demands (n + m) ((type, piece) :: others)

namespace PushAll

variable {others : List (DataType × Piece)}

theorem operands (all : PushAll demands n others) (op : BinaryOp) (type : DataType) :
    Carries demands ways (false :: base) (operandsPiece op type others)
      (false :: base) n := by
  induction all generalizing type with
  | nil => exact .nil ways _
  | cons next pushes _ induction =>
    exact (((pushes ways _).append (.conversion next _)).append (.binary op _ _)).append
      (induction _)

theorem lazy (all : PushAll demands n others) (op : BinaryOp) (type : DataType)
    (leads : ways (.ahead 2) base) :
    Carries demands ways (false :: base)
      (lazyPiece (skipOpcode op) type others) (false :: base)
      n := by
  have skipping : Carries demands ways (false :: base)
      [Cell.leave (skipOpcode op) (.ahead 2)] base 0 := by
    unfold skipOpcode
    split
    · exact .branchFalse leads
    · exact .branchTrue leads
  induction all generalizing type with
  | nil => exact .nil ways _
  | cons next pushes _ induction =>
    refine Carries.recount ((((Carries.conversion type .boolean).append skipping).append
      (pushes ways base)).append (induction next)) (by omega)

theorem stridesLazy {targets : List (Option Nat)} {segments : List Piece} {index : Nat}
    (all : PushAll demands n others) (op : BinaryOp) (type : DataType)
    (later : ∀ target, targets.getD 2 none = some target → index < target) :
    (lazyPiece (skipOpcode op) type others).StridesAt
    (exitsTo targets) segments index := by
  induction all generalizing type with
  | nil => exact Piece.Closed.nil.strides
  | cons next pushes _ induction =>
    exact (((Piece.strides_conversion _ _).append (Piece.strides_ahead later)).append
      pushes.closed.strides).append (induction next)

end PushAll

theorem Pushes.chain {first : Piece} {others : List (DataType × Piece)} (op : BinaryOp)
    (type : DataType) (pushes : Pushes demands n first) (all : PushAll demands m others) :
    Pushes demands (n + m) (chainPiece op type first others) :=
  fun ways base => ((pushes ways base).append (.conversion type _)).append
    (all.operands op _)

theorem Pushes.lazyChain {first : Piece} {others : List (DataType × Piece)} (op : BinaryOp)
    (type : DataType) (pushes : Pushes demands n first) (all : PushAll demands m others) :
    Pushes demands (n + m) (lazyChainPiece op type first others) := by
  intro ways base
  refine (Carries.joined [base, false :: base, base, false :: base]
    [none, none, some base, some (false :: base)]
    [n + m, 0, 0] ?_ ?_ ?_ rfl rfl).recount ?_
  · exact ⟨((pushes _ base).append (all.lazy op type rfl)).append (.conversion _ .boolean),
      .jump rfl, .pushShort _, trivial⟩
  · exact ⟨rfl, rfl, trivial⟩
  · refine ⟨(pushes.closed.strides.append (all.stridesLazy op type ?_)).append
      (Piece.strides_conversion _ _), Piece.strides_ahead (by simp),
      Piece.strides_unlinked rfl,
      trivial⟩
    rintro target ⟨⟩
    omega
  · simp

/-- The stack with an instance on it, as `convertToInstance` leaves it. -/
def withInstance (on : Target) (type : DataType) (base : MarkerStack) : MarkerStack :=
  if on.hasFunctions && type == .variant then true :: false :: base else false :: base

theorem withInstance_append (on : Target) (type : DataType) (base below : MarkerStack) :
    withInstance on type base ++ below = withInstance on type (base ++ below) := by
  unfold withInstance
  split <;> rfl

@[simp] theorem dropInstance_withInstance (on : Target) (type : DataType)
    (base : MarkerStack) : (withInstance on type base).dropInstance = base := by
  unfold withInstance
  split <;> rfl

theorem Carries.instanceConversion (on : Target) (type : DataType) :
    Carries demands ways (false :: base) (instanceConversion on type)
      (withInstance on type base)
      0 := by
  unfold Emission.instanceConversion withInstance
  split
  · exact .pushMarker
  · exact .conversion type .int32

theorem Rests.function (rests : Rests demands [] n body) :
    Carries demands ways base (functionPiece body) base n := by
  refine .function (Carries.weaken rests fun way level holds => ?_)
  cases way with
  | breakLoop => exact holds.1 rfl
  | continueLoop => exact holds.1 rfl
  | ahead label => exact holds

namespace Rests

theorem append {left right : Piece} (first : Rests demands kinds n left)
    (second : Rests demands kinds m right) : Rests demands kinds (n + m) (left ++ right) :=
  Carries.append first second

theorem ifThen (pushes : Pushes demands n condition) (restsYes : Rests demands kinds m yes)
    (type : DataType) :
    Rests demands kinds (n + m) (ifPiece (conditionPiece condition type) yes) := by
  refine (Carries.joined
    [resting kinds, false :: resting kinds, resting kinds, resting kinds]
    [none, none, some (resting kinds)] [n, 0, m] ?_ ?_ ?_ rfl rfl).recount ?_
  · exact ⟨pushes.converted _ _ _ _, .branchFalse rfl, restsYes.within, trivial⟩
  · exact ⟨rfl, trivial⟩
  · exact ⟨(pushes.converted _ _).closed.strides, Piece.strides_ahead (by simp),
      restsYes.strides, trivial⟩
  · simp

theorem ifElse (pushes : Pushes demands n condition) (restsYes : Rests demands kinds m yes)
    (restsNo : Rests demands kinds k no) (type : DataType) :
    Rests demands kinds (n + m + k)
      (ifElsePiece (conditionPiece condition type) yes no) := by
  refine (Carries.joined
    [resting kinds, false :: resting kinds, resting kinds, resting kinds,
    resting kinds, resting kinds] [none, none, some (resting kinds), some (resting kinds)]
    [n, 0, m, 0, k] ?_ ?_ ?_ rfl rfl).recount ?_
  · exact ⟨pushes.converted _ _ _ _, .branchFalse rfl, restsYes.within, .jump rfl,
      restsNo.within, trivial⟩
  · exact ⟨rfl, rfl, trivial⟩
  · exact ⟨(pushes.converted _ _).closed.strides, Piece.strides_ahead (by simp),
      restsYes.strides, Piece.strides_ahead (by simp), restsNo.strides, trivial⟩
  · simp only [List.sum_cons, List.sum_nil]
    omega

/-- The body of a loop, its `break` and `continue` leading to labels of the construct. -/
theorem enclosed (rests : Rests demands (kind :: kinds) n body)
    (notSwitch : ∀ type, kind ≠ .switch type)
    (breaks : (∃ cell ∈ body, cell.Takes .breakLoop) →
      labels.getD 0 none = some (resting (kind :: kinds)))
    (continues : labels.getD 1 none = some (resting (kind :: kinds))) :
    Carries demands (ways.within labels) (resting (kind :: kinds)) (body.redirect enclose)
      (resting (kind :: kinds)) n := by
  refine Carries.redirect enclose rests rests.unawaited ?_
  intro cell member way takes level holds
  cases way with
  | breakLoop =>
    rw [holds.2]
    exact breaks ⟨cell, member, takes⟩
  | continueLoop =>
    have same : beyondSwitches (kind :: kinds) = kind :: kinds := by
      cases kind with
      | switch type => exact absurd rfl (notSwitch type)
      | plain | withLoop | repeatLoop => rfl
    rw [holds.2, same]
    exact continues
  | ahead label => exact False.elim holds

theorem whileLoop (pushes : Pushes demands n condition)
    (rests : Rests demands (.plain :: kinds) m body) (type : DataType) :
    Rests demands kinds (n + m) (whilePiece (conditionPiece condition type) body) := by
  refine (Carries.joined
    [resting kinds, false :: resting kinds, resting kinds, resting kinds,
    resting kinds] [some (resting kinds), some (resting kinds), some (resting kinds),
    some (resting kinds)] [n, 0, m, 0] ?_ ?_ ?_ rfl rfl).recount ?_
  · exact ⟨pushes.converted _ _ _ _, .branchFalse rfl,
      rests.enclosed (by simp) (fun _ => rfl) rfl, .jump rfl, trivial⟩
  · exact ⟨rfl, rfl, rfl, rfl, trivial⟩
  · have back {index : Nat} (later : 2 ≤ index) (last : index ≤ 3) :
        Piece.startOf (whileSegments (conditionPiece condition type) body) 0 <
          Piece.startOf (whileSegments (conditionPiece condition type) body) index := by
      obtain rfl | rfl : index = 2 ∨ index = 3 := by omega
      · simp [Piece.startOf, whileSegments]
      · simp only [Piece.startOf, whileSegments, List.take_zero, List.take_succ_cons,
          List.flatten_nil, List.flatten_cons, List.length_nil, List.length_cons,
          List.length_append]
        omega
    refine ⟨(pushes.converted _ _).closed.strides, Piece.strides_ahead (by simp),
      rests.stridesRedirected (by simp [exitsTo, enclose]) ?_, Piece.strides_back rfl ?_,
      trivial⟩
    · rintro target ⟨⟩
      exact Or.inr (back (by omega) (by omega))
    · exact back (by omega) (by omega)
  · simp

theorem forLoop (pushes : Pushes demands n condition)
    (rests : Rests demands (.plain :: kinds) m body)
    (restsStep : Rests demands kinds k step) :
    Rests demands kinds (n + m + k) (forPiece condition step body) := by
  refine (Carries.joined
    [resting kinds, false :: resting kinds, resting kinds, resting kinds,
    resting kinds, resting kinds]
      [some (resting kinds), some (resting kinds), some (resting kinds),
    some (resting kinds)] [n, 0, m, k, 0] ?_ ?_ ?_ rfl rfl).recount ?_
  · exact ⟨pushes _ _, .branchFalse rfl, rests.enclosed (by simp) (fun _ => rfl) rfl,
      restsStep.within, .jump rfl, trivial⟩
  · exact ⟨rfl, rfl, rfl, rfl, trivial⟩
  · refine ⟨pushes.closed.strides, Piece.strides_ahead (by simp),
      rests.stridesRedirected (by simp [exitsTo, enclose]) (by simp [exitsTo, enclose]),
      restsStep.strides, Piece.strides_back rfl ?_, trivial⟩
    simp only [Piece.startOf, forSegments, List.take_zero, List.take_succ_cons,
      List.flatten_nil, List.flatten_cons, List.length_nil, List.length_cons,
      List.length_append]
    omega
  · simp only [List.sum_cons, List.sum_nil]
    omega

theorem doUntil (rests : Rests demands (.plain :: kinds) m body)
    (pushes : Pushes demands n condition) (type : DataType) :
    Rests demands kinds (m + n) (doUntilPiece body (conditionPiece condition type)) := by
  refine (Carries.joined
    [resting kinds, resting kinds, false :: resting kinds, resting kinds]
    [some (resting kinds), some (resting kinds), some (resting kinds)]
    [m, n, 0] ?_ ?_ ?_ rfl
    rfl).recount ?_
  · exact ⟨rests.enclosed (by simp) (fun _ => rfl) rfl, pushes.converted _ _ _ _,
      .branchFalse rfl, trivial⟩
  · exact ⟨rfl, rfl, rfl, trivial⟩
  · have hasCells : 0 < condition.length := List.length_pos_iff.mpr pushes.ne_nil
    refine ⟨rests.stridesRedirected (by simp [exitsTo, enclose])
      (by simp [exitsTo, enclose]),
      (pushes.converted _ _).closed.strides, Piece.strides_back rfl ?_, trivial⟩
    simp [Piece.startOf, doUntilSegments, conditionPiece]
    omega
  · simp

theorem repeatLoop (pushes : Pushes demands n condition)
    (rests : Rests demands (.repeatLoop :: kinds) m body) (type : DataType) :
    Rests demands kinds (n + m) (repeatPiece (countPiece condition type) body) := by
  have test (ways : Ways) : Carries demands ways (false :: resting kinds) repeatTest
      (false :: false :: resting kinds) 0 :=
    (Carries.duplicate .int32).append
      ((Carries.pushImmediate fun _ => by decide).append
        (.compare .lessEqual .int32 .int32))
  have again (ways : Ways) : Carries demands ways (false :: resting kinds) repeatStep
      (false :: false :: resting kinds) 0 :=
    (Carries.pushInt32 1).append ((Carries.arithmetic .sub rfl .int32 .int32).append
      ((Carries.duplicate .int32).append (.convert .int32 .boolean)))
  refine (Carries.joined
    [resting kinds, false :: false :: resting kinds, false :: resting kinds,
    false :: resting kinds, false :: false :: resting kinds, false :: resting kinds,
    resting kinds]
    [some (false :: resting kinds), some (false :: resting kinds),
      some (false :: resting kinds),
    some (false :: resting kinds)] [n, 0, m, 0, 0, 0] ?_ ?_ ?_ rfl rfl).recount ?_
  · exact ⟨(pushes.converted _ _ _ _).append (test _), .branchTrue rfl,
      rests.enclosed (by simp) (fun _ => rfl) rfl, again _, .branchTrue rfl,
      .discard .int32, trivial⟩
  · exact ⟨rfl, rfl, rfl, rfl, trivial⟩
  · have closedTest : repeatTest.Closed := (test _).closed
    have closedStep : repeatStep.Closed := (again _).closed
    exact ⟨((pushes.converted _ _).closed.append closedTest).strides,
      Piece.strides_ahead (by simp),
      rests.stridesRedirected (by simp [exitsTo, enclose]) (by simp [exitsTo, enclose]),
      closedStep.strides,
      Piece.strides_back rfl (by simp [Piece.startOf, repeatSegments, repeatStep]),
      Piece.strides_unlinked rfl, trivial⟩
  · simp

private theorem enterWith (on : Target) (type : DataType) {way : Way}
    (leads : ways way base) :
    Carries demands ways (withInstance on type base)
      [Cell.leave .enterWith way] base 0 := by
  refine .leave rfl leads fun _ => ⟨fun below => ?_, fun _ => rfl⟩
  rw [withInstance_append]
  exact dropInstance_withInstance on type (base ++ below)

private theorem leaveWith {way : Way} (leads : ways way base) :
    Carries demands ways base [Cell.leave .leaveWith way] base 0 :=
  .leave rfl leads fun _ => ⟨fun _ => rfl, fun _ => rfl⟩

private theorem instance_closed (on : Target) (pushes : Pushes demands n condition)
    (type : DataType) : (instancePiece on condition type).Closed :=
  ((pushes _ []).append (.instanceConversion on type)).closed

theorem withLoop (on : Target) (pushes : Pushes demands n condition)
    (rests : Rests demands (.withLoop :: kinds) m body)
    (settled : body.Settled (.withLoop :: kinds))
    (unbroken : ∀ cell ∈ body, cell.link ≠ .leave .breakLoop) :
    Rests demands kinds (n + m) (withPiece (instancePiece on condition type) body) := by
  refine (Carries.joined
    [resting kinds, withInstance on type (resting kinds), resting kinds, resting kinds,
    resting kinds] [none, some (resting kinds), some (resting kinds),
    some (resting kinds)] [n, 0, m, 0] ?_ ?_ ?_ rfl rfl).recount ?_
  · refine ⟨(pushes _ _).append (.instanceConversion on type), enterWith on type rfl,
      rests.enclosed (by simp) ?_ rfl, leaveWith rfl, trivial⟩
    rintro ⟨cell, member, takes⟩
    exact absurd (settled cell member _ takes).1 (unbroken cell member)
  · exact ⟨rfl, rfl, rfl, trivial⟩
  · exact ⟨(instance_closed on pushes type).strides, Piece.strides_ahead (by simp),
      rests.stridesRedirected (by simp [exitsTo, enclose]) (by simp [exitsTo, enclose]),
      Piece.strides_leaveWith, trivial⟩
  · simp

theorem brokenWith (on : Target) (pushes : Pushes demands n condition)
    (rests : Rests demands (.withLoop :: kinds) m body) :
    Rests demands kinds (n + m)
      (brokenWithPiece (instancePiece on condition type) body) := by
  refine (Carries.joined
    [resting kinds, withInstance on type (resting kinds), resting kinds, resting kinds,
    resting kinds, resting kinds, resting kinds] [some (resting kinds),
    some (resting kinds), some (resting kinds), some (resting kinds), some (resting kinds)]
    [n, 0, m, 0, 0, 0] ?_ ?_ ?_ rfl rfl).recount ?_
  · exact ⟨(pushes _ _).append (.instanceConversion on type), enterWith on type rfl,
      rests.enclosed (by simp) (fun _ => rfl) rfl, leaveWith rfl, .jump rfl, .leaveForGood,
      trivial⟩
  · exact ⟨rfl, rfl, rfl, rfl, rfl, trivial⟩
  · exact ⟨(instance_closed on pushes type).strides, Piece.strides_ahead (by simp),
      rests.stridesRedirected (by simp [exitsTo, enclose]) (by simp [exitsTo, enclose]),
      Piece.strides_leaveWith, Piece.strides_ahead (by simp), Piece.strides_unlinked rfl,
      trivial⟩
  · simp

/-! Switches, whose arms are told by `spec`. -/

variable {α : Type} {spec : α → ArmSpec} {counts : α → Nat}

private theorem tests {arms : List α} {first : Nat} {spot : Spot} {tests : Piece}
    (held : TestsHold type (arms.map spec) first spot tests)
    (labels : ∀ arm ∈ arms, ∀ spot type piece, (spec arm).isLabel spot type piece →
      Pushes demands (counts arm) piece)
    (leads : ∀ index, first ≤ index → index < first + arms.length →
      ways (.ahead index) (false :: base)) :
    Carries demands ways (false :: base) tests (false :: base)
      (arms.map fun arm => if (spec arm).label.isSome then counts arm else 0).sum := by
  induction arms generalizing first spot tests with
  | nil =>
    obtain rfl : tests = [] := held
    exact .nil ways _
  | cons arm rest induction =>
    have later {spot : Spot} {more : Piece}
        (held : TestsHold type (rest.map spec) (first + 1) spot more) :=
      induction held (fun other member => labels other (List.mem_cons_of_mem arm member))
        fun index low high =>
          leads index (by omega) (by simp only [List.length_cons]; omega)
    rw [List.map_cons] at held
    unfold TestsHold at held
    cases label : (spec arm).label with
    | none =>
      simp only [label] at held
      refine (later held).recount ?_
      simp [label]
    | some action =>
      simp only [label] at held
      obtain ⟨labelType, piece, more, heldLabel, heldMore, rfl⟩ := held
      have pushes := labels arm (List.mem_cons_self) _ _ _ heldLabel
      have test :
        Carries demands ways (false :: base) (testPiece type labelType piece first)
          (false :: base) (counts arm) := by
        have lead := leads first (Nat.le_refl _) (by simp only [List.length_cons]; omega)
        refine ((((Carries.duplicate type).append (pushes _ _)).append
          (.compare .equal labelType type)).append (.branchTrue lead)).recount ?_
        omega
      refine (test.append (later heldMore)).recount ?_
      simp [label]

private theorem stridesTests {arms : List α} {first : Nat} {spot : Spot} {tests : Piece}
    {targets : List (Option Nat)} {segments : List Piece} {index : Nat}
    (held : TestsHold type (arms.map spec) first spot tests)
    (labels : ∀ arm ∈ arms, ∀ spot type piece, (spec arm).isLabel spot type piece →
      Pushes demands (counts arm) piece)
    (later : ∀ label target, first ≤ label → targets.getD label none = some target →
      index < target) : tests.StridesAt (exitsTo targets) segments index := by
  induction arms generalizing first spot tests with
  | nil =>
    obtain rfl : tests = [] := held
    exact Piece.Closed.nil.strides
  | cons arm rest induction =>
    have others {spot : Spot} {more : Piece}
        (held : TestsHold type (rest.map spec) (first + 1) spot more) :=
      induction held (fun other member => labels other (List.mem_cons_of_mem arm member))
        fun label target low => later label target (by omega)
    rw [List.map_cons] at held
    unfold TestsHold at held
    cases label : (spec arm).label with
    | none =>
      simp only [label] at held
      exact others held
    | some action =>
      simp only [label] at held
      obtain ⟨labelType, piece, more, heldLabel, heldMore, rfl⟩ := held
      have pushes := labels arm (List.mem_cons_self) _ _ _ heldLabel
      have test :
        (testPiece type labelType piece first).StridesAt (exitsTo targets) segments
          index :=
        (((Piece.strides_unlinked rfl).append pushes.closed.strides).append
          (Piece.strides_unlinked rfl)).append
          (Piece.strides_ahead fun target => later first target (Nat.le_refl _))
      exact test.append (others heldMore)

private theorem arms {arms : List α} {spot : Spot} {bodies : List Piece}
    (held : BodiesHold type (arms.map spec) spot bodies)
    (rests : ∀ arm ∈ arms, ∀ spot piece, (spec arm).isBody type spot piece →
      Rests demands (.switch type :: kinds) (counts arm) piece)
    (breaks : labels.getD 0 none = some (false :: resting kinds)) :
    CarryAll demands ((restingWays kinds).within labels)
      (List.replicate (arms.length + 1) (false :: resting kinds))
      (bodies.map (·.redirect encloseBreak)) (arms.map counts) := by
  induction arms generalizing spot bodies with
  | nil =>
    obtain rfl : bodies = [] := held
    trivial
  | cons arm rest induction =>
    obtain ⟨body, more, heldBody, heldMore, rfl⟩ := held
    have body := rests arm (List.mem_cons_self) _ _ heldBody
    refine ⟨Carries.redirect encloseBreak body body.unawaited ?_,
      induction heldMore fun other member => rests other (List.mem_cons_of_mem arm member)⟩
    intro cell member way takes level holds
    cases way with
    | breakLoop =>
      rw [holds.2]
      exact breaks
    | continueLoop => exact holds
    | ahead label => exact False.elim holds

private theorem stridesArms {arms : List α} {spot : Spot} {bodies : List Piece}
    {targets : List (Option Nat)} {segments : List Piece} {start : Nat}
    (held : BodiesHold type (arms.map spec) spot bodies)
    (rests : ∀ arm ∈ arms, ∀ spot piece, (spec arm).isBody type spot piece →
      Rests demands (.switch type :: kinds) (counts arm) piece)
    (later : ∀ target, targets.getD 0 none = some target → start + arms.length ≤ target) :
    Piece.StrideFrom (exitsTo targets) segments start
      (bodies.map (·.redirect encloseBreak)) := by
  induction arms generalizing spot bodies start with
  | nil =>
    obtain rfl : bodies = [] := held
    trivial
  | cons arm rest induction =>
    obtain ⟨body, more, heldBody, heldMore, rfl⟩ := held
    have body := rests arm (List.mem_cons_self) _ _ heldBody
    simp only [List.length_cons] at later
    refine ⟨body.stridesRedirected (fun target exit => ?_)
      (by simp [exitsTo, encloseBreak]),
      induction heldMore
        (fun other member => rests other (List.mem_cons_of_mem arm member))
        fun target exit => ?_⟩
    · have bound := later target exit
      omega
    · have bound := later target exit
      omega

/-- The stacks between the segments of a `switch` with so many arms. -/
private def switchLevels (base : MarkerStack) (count : Nat) : List MarkerStack :=
  [base, false :: base, false :: base] ++ List.replicate count (false :: base) ++
    [false :: base, base]

private theorem switchLevels_arm {count index : Nat} (low : 3 ≤ index)
    (high : index ≤ 3 + count) :
    (switchLevels base count)[index]? = some (false :: base) := by
  unfold switchLevels
  by_cases inside : index < 3 + count
  · rw [List.getElem?_append_left (by simp; omega), List.getElem?_append_right
      (by simpa using low), List.getElem?_replicate, if_pos (by simp; omega)]
  · obtain rfl : index = 3 + count := by omega
    have start : 3 + count - ([base, false :: base, false :: base] ++
        List.replicate count (false :: base)).length = 0 := by simp; omega
    rw [List.getElem?_append_right (by simp; omega), start]
    rfl

theorem switch {value : Piece} {arms : List α} {bodyCounts : α → Nat}
    {testSpot bodySpot : Spot} {tests : Piece} {bodies : List Piece}
    (pushes : Pushes demands n value)
    (heldTests : TestsHold type (arms.map spec) 3 testSpot tests)
    (heldBodies : BodiesHold type (arms.map spec) bodySpot bodies)
    (count : bodies.length = arms.length)
    (labels : ∀ arm ∈ arms, ∀ spot type piece, (spec arm).isLabel spot type piece →
      Pushes demands (counts arm) piece)
    (rests : ∀ arm ∈ arms, ∀ spot piece, (spec arm).isBody type spot piece →
      Rests demands (.switch type :: kinds) (bodyCounts arm) piece) :
    Rests demands kinds
      (n + (arms.map fun arm => if (spec arm).label.isSome then counts arm else 0).sum +
        (arms.map bodyCounts).sum)
      (switchPiece type value tests bodies (firstDefault (arms.map spec))) := by
  let testCount :=
    (arms.map fun arm => if (spec arm).label.isSome then counts arm else 0).sum
  let labels' : List (Option MarkerStack) :=
    some (false :: resting kinds) :: none :: some (false :: resting kinds) ::
      List.replicate (List.range' 3 bodies.length).length (some (false :: resting kinds))
  refine (Carries.joined (switchLevels (resting kinds) arms.length) labels'
    ([n, testCount, 0] ++ arms.map bodyCounts ++ [0]) ?_ ?_ ?_ rfl ?_).recount ?_
  · have head : CarryAll demands ((restingWays kinds).within labels')
        ([resting kinds, false :: resting kinds, false :: resting kinds] ++
          [false :: resting kinds])
        (switchHead value tests) [n, testCount, 0] := by
      refine ⟨pushes _ _, Rests.tests heldTests labels fun index low high =>
        ?_, .jump rfl, trivial⟩
      obtain ⟨arm, rfl⟩ := Nat.exists_eq_add_of_le low
      have bound : arm < arms.length := by omega
      simp [Ways.within, labels', Nat.add_comm 3 arm, count, bound]
    have withArms := head.append (Rests.arms heldBodies rests rfl)
    rw [← List.replicate_succ, List.replicate_succ', ← List.append_assoc] at withArms
    have dropped : CarryAll demands ((restingWays kinds).within labels')
        [false :: resting kinds, resting kinds] [[Cell.single .discard type]] [0] :=
      ⟨.discard type, trivial⟩
    have whole := withArms.append dropped
    simpa [switchLevels, switchSegments] using whole
  · have first : firstDefault (arms.map spec) ≤ arms.length := by
      have bound : firstDefault (arms.map spec) ≤ (arms.map spec).length :=
        List.findIdx_le_length
      rwa [List.length_map] at bound
    refine ⟨switchLevels_arm (by omega) (by omega), switchLevels_arm (by omega) (by omega),
      labelsAgree_replicate fun target member => ?_⟩
    rw [List.mem_range'_1] at member
    exact switchLevels_arm member.1 (by omega)
  · refine Piece.StrideFrom.append (Piece.StrideFrom.append ⟨pushes.closed.strides,
      stridesTests heldTests labels ?_, Piece.strides_ahead ?_, trivial⟩
      (stridesArms heldBodies rests ?_)) ⟨Piece.strides_unlinked rfl, trivial⟩
    · intro label target low leads
      obtain ⟨arm, rfl⟩ := Nat.exists_eq_add_of_le low
      rw [Nat.add_comm] at leads
      cases found : (List.range' 3 bodies.length)[arm]? with
      | none => simp [switchTargets, found] at leads
      | some position =>
        have bound := List.mem_range'_1.mp (List.mem_of_getElem? found)
        obtain rfl : position = target := by simpa [switchTargets, found] using leads
        omega
    · rintro target ⟨⟩
      omega
    · rintro target ⟨⟩
      simp [switchHead, count]
  · simp [switchLevels, switchSegments, switchHead, count]
  · simp [testCount]
    omega

theorem breakLoop (inside : kinds ≠ []) : Rests demands kinds 0 breakPiece :=
  .jump ⟨inside, rfl⟩

theorem continueLoop (offered : beyondSwitches kinds ≠ []) :
    Rests demands kinds 0 (continuePiece kinds) := by
  have dropping (ways : Ways) :
      ∀ kinds : List LoopKind, Carries demands ways (resting kinds)
        (discards (switchTypes kinds)) (resting (beyondSwitches kinds)) 0 := by
    intro kinds
    induction kinds with
    | nil => exact .nil ways _
    | cons kind outer induction =>
      cases kind with
      | switch type => exact (Carries.discard type).append induction
      | plain | withLoop | repeatLoop => exact .nil ways _
  exact (dropping _ kinds).append (.jump ⟨offered, rfl⟩)

private theorem unwinding (ways : Ways) (kinds : List LoopKind) :
    Carries demands ways (resting kinds) (unwindPiece kinds) [] 0 := by
  induction kinds with
  | nil => exact .nil ways _
  | cons kind outer induction =>
    cases kind with
    | switch type => exact (Carries.discard type).append induction
    | repeatLoop => exact (Carries.discard .int32).append induction
    | withLoop => exact (Carries.leaveForGood).append induction
    | plain => exact induction

theorem exit : Rests demands kinds 0 (exitPiece kinds) :=
  (unwinding _ kinds).append (.stop .exit .int32 (Or.inl rfl) fun _ => Or.inl ⟨rfl, rfl⟩)

private theorem resting_eq_nil (plain : kinds.any (· != .plain) = false) :
    resting kinds = [] := by
  simp only [List.any_eq_false, bne_iff_ne, Decidable.not_not] at plain
  simp only [resting, List.flatMap_eq_nil_iff]
  intro kind member
  rw [plain kind member]
  rfl

theorem returnValue (pushes : Pushes demands n condition) (type : DataType) :
    Rests demands kinds n
      (condition ++ conversion type .variant ++ returnPiece kinds) := by
  suffices returned :
    Carries demands (restingWays kinds) (false :: resting kinds) (returnPiece kinds)
      (resting kinds) 0 from (pushes.converted type .variant _ _).append returned
  have returning (ways : Ways) (after : MarkerStack) :
      Carries demands ways [false] [Cell.single .ret .variant] after 0 :=
    .stop .ret .variant (Or.inr rfl) fun _ => Or.inr ⟨rfl, rfl⟩
  unfold returnPiece
  split
  · have restored :
      Carries demands (restingWays kinds) [] [Cell.pushVariable .pushLocal returnTemp]
        [false] 0 := .cell ⟨rfl, rfl, rfl, rfl, rfl⟩ (fun _ => rfl) fun _ _ => rfl
    exact (((Carries.popPlain .variant Internal.returnTemp .locals).append
      (unwinding _ kinds)).append restored).append (returning _ _)
  · rename_i plain
    rw [resting_eq_nil (Bool.eq_false_iff.mpr plain)]
    exact returning _ _

theorem tryBlock {cleanup : Piece} (rests : Rests demands kinds n body)
    (restsCleanup : Rests demands kinds m cleanup) :
    Rests demands kinds (n + m) (tryPiece body cleanup) := by
  rw [tryPiece_eq]
  refine (Carries.joined
    [resting kinds, resting kinds, resting kinds, resting kinds, resting kinds,
    resting kinds] [none, none, some (resting kinds)]
      [0, n, 0, m, 0] ?_ ?_ ?_ rfl rfl).recount ?_
  · exact ⟨.hook (Or.inl rfl) rfl nofun, rests.within, .callDiscard fun _ => by decide,
      restsCleanup.within, .callDiscard fun _ => by decide, trivial⟩
  · exact ⟨rfl, trivial⟩
  · refine ⟨Piece.strides_hook (Or.inl rfl) ?_ (by simp), rests.strides,
      Piece.strides_callDiscard _ _, restsCleanup.strides, Piece.strides_callDiscard _ _,
      trivial⟩
    rintro target ⟨⟩
    simp [Piece.startOf, hookedSegments, callDiscard]
  · simp

theorem handledTry {handler cleanup : Piece} (name : String)
    (rests : Rests demands kinds n body) (restsHandler : Rests demands kinds m handler)
    (restsCleanup : Rests demands kinds k cleanup) :
    Rests demands kinds (n + m + k + 1) (handledPiece name body handler cleanup) := by
  rw [handledPiece_eq]
  let level := resting kinds
  let levels :=
    [level, level, level, level, false :: level, level, level, level, level, level]
  let labels := [none, none, some level, some (false :: level), some level]
  let counts := [0, n, 0, 0, 0, m, 0, k, 0]
  have all : CarryAll demands ((restingWays kinds).within labels) levels
      (guardedSegments name body handler cleanup) counts :=
    ⟨.hook (Or.inr rfl) rfl fun _ => rfl, rests.within, .callDiscard fun _ => by decide,
      .jump rfl, .popPlain .variant name .locals, restsHandler.within,
      .callDiscard fun _ => by decide, restsCleanup.within,
      .callDiscard fun _ => by decide, trivial⟩
  have agree : LabelsAgree levels guardedTargets labels := ⟨rfl, rfl, rfl, trivial⟩
  have strides : Piece.StrideFrom (exitsTo guardedTargets)
      (guardedSegments name body handler cleanup) 0
      (guardedSegments name body handler cleanup) := by
    refine ⟨Piece.strides_hook (Or.inr rfl) ?_ ?_, rests.strides,
      Piece.strides_callDiscard _ _, Piece.strides_ahead (by simp [guardedTargets]),
      Piece.strides_unlinked rfl, restsHandler.strides, Piece.strides_callDiscard _ _,
      restsCleanup.strides, Piece.strides_callDiscard _ _, trivial⟩
    · rintro target ⟨⟩
      simp [Piece.startOf, guardedSegments, callDiscard]
    · rintro target ⟨⟩
      simp [Piece.startOf, guardedSegments, catchStart]
  have carried :=
    Carries.handled levels counts all.lengths.2.symm (fun _ _ _ => all.carries)
    (agree.ways all).1 (agree.ways all).2 (Piece.strides strides) rfl
  exact carried.recount (by simp [counts]; omega)

end Rests

end

end GameScript.Emission
