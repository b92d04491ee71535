import GameScript.Proofs.Execution.Trace

/-! The code of each kind of statement does what the statement means. -/

namespace GameScript.Execution

open Bytecode Emission Syntax

/-! What is told of the parts of constructs. -/

def Evaluates (env : Environment) (computation : Computation) : Spot → Piece → Prop :=
  Traced env [computation] fun I site start stop _ =>
    site.Computes start stop (I.evaluate computation)

def Decides (env : Environment) (computations : List Computation)
    (test : (I : Interpretation) → I.State → I.State × Bool) : Spot → Piece → Prop :=
  Traced env computations fun I site start stop _ => site.Tests start stop (test I)

def Executes (env : Environment) (kinds : List LoopKind) (computations : List Computation)
    (meaning : (I : Interpretation) → Meaning I.State) : Spot → Piece → Prop :=
  Traced env computations fun I site start stop exits =>
    site.Simulates start stop exits kinds (meaning I)

def valuePart (computation : Computation) : Part where
  computations := [computation]
  told := fun I site start stop _ => site.Computes start stop (I.evaluate computation)

def testPart (computations : List Computation)
    (test : (I : Interpretation) → I.State → I.State × Bool) : Part where
  computations
  told := fun I site start stop _ => site.Tests start stop (test I)

/-- A statement whose ways are labels of the construct around it. -/
def statementPart (kinds : List LoopKind) (rename : Way → Way)
    (computations : List Computation) (meaning : (I : Interpretation) → Meaning I.State) :
    Part where
  computations
  told := fun I site start stop exits =>
    site.Simulates start stop (fun way => exits (rename way)) kinds (meaning I)

def leavePart (opcode : Opcode) (way : Way) : Part where
  computations := []
  told := fun _ site start stop exits =>
    ∃ target, exits way = some target ∧ site.Jumps start stop opcode target

def cellsPart (piece : Piece) : Part where
  computations := []
  told := fun _ site start stop _ => stop = start + piece.length ∧ site.HasAll start piece

section

variable {env : Environment} {spot : Spot} {piece : Piece} {kinds : List LoopKind}
  {computation : Computation} {computations others : List Computation} {told : Told}
  {test : (I : Interpretation) → I.State → I.State × Bool}
  {meaning : (I : Interpretation) → Meaning I.State}

theorem Traced.recount (traced : Traced env computations told spot piece)
    (same : computations = others) : Traced env others told spot piece := same ▸ traced

theorem jumpTo {I : Interpretation} {site : Site I} {exits : Exits} {way : Way}
    {opcode : Opcode} {start stop p : Nat}
    (told : ∃ target, exits way = some target ∧ site.Jumps start stop opcode target)
    (leads : exits way = some p) : site.Jumps start stop opcode p := by
  obtain ⟨target, isTarget, jumps⟩ := told
  obtain rfl : p = target := Option.some.inj (leads.symm.trans isTarget)
  exact jumps

theorem emitExpr_evaluates (expr : Expr) :
    EmitsValue env (emitExpr expr) fun spot _ piece =>
      Evaluates env (.value expr) spot piece :=
  (emit_emits env (.value expr)).mono fun _ _ _ ⟨nonempty, emitted⟩ =>
    .stretch nonempty emitted

theorem conversion_unlinked (type wanted : DataType) :
    ∀ cell ∈ conversion type wanted, cell.link = .none := by
  unfold conversion
  split <;> simp [Cell.op]

theorem Evaluates.decides (evaluates : Evaluates env computation spot piece)
    (type : DataType) :
    Decides env [computation] (fun I => I.test computation) spot
      (conditionPiece piece type) := by
  refine Traced.append evaluates (.cells (conversion_unlinked type .boolean)) ?_
  rintro I site exits computes ⟨isStop, has⟩ stack s
  rw [isStop]
  unfold conversion at has ⊢
  split
  case isTrue => exact ⟨_, rfl, computes stack s⟩
  case isFalse differs =>
    rw [if_neg differs] at has
    exact ⟨_, I.truth_boolean _, (computes stack s).trans (has 0 _ rfl).toBoolean⟩

theorem repeatTest_runs {I : Interpretation} {site : Site I} {start : Nat}
    (has : site.HasAll start repeatTest) (x : Datum I.Value) (stack : List (Datum I.Value))
    (s : I.State) : site.Runs ⟨start, x :: stack, s⟩
      ⟨start + 3, .boolean (decide (I.toInt32 x ≤ 0)) :: x :: stack, s⟩ := by
  have copied : site.Has start (Cell.duplicate .int32 0) := has 0 _ rfl
  have pushed : site.Has (start + 1) (Cell.pushImmediate 0) := has 1 _ rfl
  have compared : site.Has (start + 2) (Cell.compare .lessEqual .int32 .int32) :=
    has 2 _ rfl
  have all : site.Runs ⟨start, x :: stack, s⟩ ⟨start + 3, _, s⟩ :=
    copied.duplicate.trans (pushed.pushImmediate.trans compared.compareLess)
  rw [I.toInt32_int32] at all
  exact all

theorem repeatStep_recounts {I : Interpretation} {site : Site I} {start stop : Nat}
    (has : site.HasAll start repeatStep) (isStop : stop = start + 4) :
    site.Recounts start stop := by
  subst isStop
  intro x stack s
  have pushed : site.Has start (Cell.pushInt32 1) := has 0 _ rfl
  have lowered : site.Has (start + 1) (Cell.op .sub .int32 .int32) := has 1 _ rfl
  have copied : site.Has (start + 2) (Cell.duplicate .int32 0) := has 2 _ rfl
  have converted : site.Has (start + 3) (Cell.op .convert .int32 .boolean) := has 3 _ rfl
  have all : site.Runs ⟨start, x :: stack, s⟩ ⟨start + 4, _, s⟩ :=
    (pushed.pushInt32.trans lowered.subtract).trans
      (copied.duplicate.trans converted.toBoolean)
  rw [I.toInt32_int32] at all
  exact all

def countsPart (computation : Computation) : Part where
  computations := [computation]
  told := fun I site start stop _ => site.Counts start stop (I.evaluate computation)

theorem Evaluates.counts (evaluates : Evaluates env computation spot piece)
    (type : DataType) : Traced env [computation]
      (fun I site start stop _ => site.Counts start stop (I.evaluate computation)) spot
      (repeatHead (countPiece piece type)) := by
  have counted : Traced env [computation] (fun I site start stop _ => ∀ stack s, ∃ x,
      I.toInt32 x = I.toInt32 (I.evaluate computation s).2 ∧
        site.Runs ⟨start, stack, s⟩ ⟨stop, x :: stack, (I.evaluate computation s).1⟩) spot
      (countPiece piece type) := by
    refine Traced.append evaluates (.cells (conversion_unlinked type .int32)) ?_
    rintro I site exits computes ⟨isStop, has⟩ stack s
    rw [isStop]
    unfold conversion at has ⊢
    split
    case isTrue => exact ⟨_, rfl, computes stack s⟩
    case isFalse differs =>
      rw [if_neg differs] at has
      exact ⟨_, I.toInt32_int32 _, (computes stack s).trans (has 0 _ rfl).toInt32⟩
  refine Traced.append counted (.cells (by decide)) ?_
  rintro I site exits counts ⟨isStop, has⟩ stack s
  obtain ⟨x, isCount, runs⟩ := counts stack s
  rw [isStop]
  exact ⟨x, isCount, runs.trans (repeatTest_runs has x stack _)⟩

/-- A value that is stored outside of functions, where no variable has another name. -/
theorem stored_executes (computation : Computation) (v : Variable) :
    EmitsStatement env kinds [] (do computation.emit; emitStore v)
      (Executes env kinds [computation] fun I => I.assign computation v.name) := by
  intro s _ sameParams
  refine (emit_emits env computation s).bind
    fun _ t ⟨type, piece, adds, nonempty, emitted⟩ => ?_
  refine (emitStore_adds v adds.types).mono fun _ u storing => ?_
  have name : (t.resolve env v).1 = v.name :=
    t.resolve_name env v (adds.params.trans sameParams)
  refine ⟨_, Lays.ofAdds (adds.append storing), ?_⟩
  refine Traced.append (Traced.stretch nonempty emitted)
    (.cells (by simp [storeCell, Cell.popVariable])) ?_
  rintro I site exits computes ⟨isStop, has⟩
  rw [isStop, ← name]
  exact Site.simulates_assign computes (has 0 _ rfl)

theorem assign_executes (pos : Position) (op : AssignOp) (v : Variable) (value : Expr) :
    EmitsStatement env kinds [] (emitStmt (.assign pos op (.var v []) value))
      (Executes env kinds [op.computation v value] fun I =>
        I.assign (op.computation v value) v.name) := by
  cases binary : op.binary? with
  | some b =>
    have isUpdate : op.computation v value = .update v b value := by
      simp [AssignOp.computation, binary]
    rw [emitStmt_update pos value v binary, emitUpdate_eq, isUpdate]
    exact goTo_emitsStatement pos (stored_executes (.update v b value) v)
  | none =>
    cases op with
    | assign => exact goTo_emitsStatement pos (stored_executes (.value value) v)
    | coalesce => exact fun s _ _ => trivial
    | _ => simp [AssignOp.binary?] at binary

theorem if_executes {c y : Piece} {yes : (I : Interpretation) → Meaning I.State}
    (decides : Decides env computations test spot c)
    (executes : Executes env kinds others yes
      (spot.after ((ifSegments c y).take 2).flatten) y) :
    Executes env kinds (computations ++ others) (fun I => .choose (test I) (yes I) .skip)
      spot (ifPiece c y) := by
  have traced : TracedFrom env spot [] (ifSegments c y)
      [testPart computations test, leavePart .branchFalse (.ahead 2),
        statementPart kinds id others yes] :=
    ⟨decides, .leave _ _, executes, trivial⟩
  refine (Traced.join traced fun I site exits told => ?_).recount (by
    simp [testPart, leavePart, statementPart])
  obtain ⟨tests, leaves, simulates, -⟩ := told
  exact Site.simulates_if tests (jumpTo leaves rfl) (simulates.congr rfl rfl)

theorem ifElse_executes {c y n : Piece} {yes no : (I : Interpretation) → Meaning I.State}
    {more : List Computation} (decides : Decides env computations test spot c)
    (executes : Executes env kinds others yes
      (spot.after ((ifElseSegments c y n).take 2).flatten) y)
    (executesNo : Executes env kinds more no
      (spot.after ((ifElseSegments c y n).take 4).flatten) n) :
    Executes env kinds (computations ++ (others ++ more))
      (fun I => .choose (test I) (yes I) (no I)) spot (ifElsePiece c y n) := by
  have traced : TracedFrom env spot [] (ifElseSegments c y n)
      [testPart computations test, leavePart .branchFalse (.ahead 2),
        statementPart kinds id others yes, leavePart .branch (.ahead 3),
        statementPart kinds id more no] :=
    ⟨decides, .leave _ _, executes, .leave _ _, executesNo, trivial⟩
  refine (Traced.join traced fun I site exits told => ?_).recount (by
    simp [testPart, leavePart, statementPart])
  obtain ⟨tests, leaves, simulates, joins, simulatesNo, -⟩ := told
  exact Site.simulates_ifElse tests (jumpTo leaves rfl) (simulates.congr rfl rfl)
    (jumpTo joins rfl) (simulatesNo.congr rfl rfl)

theorem while_executes {c b : Piece} {body : (I : Interpretation) → Meaning I.State}
    (decides : Decides env computations test spot c)
    (executes : Executes env (.plain :: kinds) others body
      (spot.after ((whileSegments c b).take 2).flatten) b) :
    Executes env kinds (computations ++ others) (fun I => .loop (test I) (body I) .skip)
      spot (whilePiece c b) := by
  have traced : TracedFrom env spot [] (whileSegments c b)
      [testPart computations test, leavePart .branchFalse (.ahead 2),
        statementPart (.plain :: kinds) enclose others body,
        leavePart .branch (.ahead 3)] :=
    ⟨decides, .leave _ _, executes.redirect enclose, .leave _ _, trivial⟩
  refine (Traced.join traced fun I site exits told => ?_).recount (by
    simp [testPart, leavePart, statementPart])
  obtain ⟨tests, leaves, simulates, back, -⟩ := told
  refine Site.simulates_loop tests (jumpTo leaves rfl) simulates rfl rfl ?_
  rintro stack s t - ⟨-, rfl⟩
  exact ⟨(jumpTo back rfl).run, .refl _⟩

theorem for_executes {c p b : Piece} {body step : (I : Interpretation) → Meaning I.State}
    {more : List Computation} (decides : Decides env computations test spot c)
    (executes : Executes env (.plain :: kinds) others body
      (spot.after ((forSegments c p b).take 2).flatten) b)
    (steps : Executes env kinds more step
      (spot.after ((forSegments c p b).take 3).flatten) p) :
    Executes env kinds (computations ++ others ++ more)
      (fun I => .loop (test I) (body I) (step I)) spot (forPiece c p b) := by
  have traced : TracedFrom env spot [] (forSegments c p b)
      [testPart computations test, leavePart .branchFalse (.ahead 2),
        statementPart (.plain :: kinds) enclose others body,
        statementPart kinds id more step, leavePart .branch (.ahead 3)] :=
    ⟨decides, .leave _ _, executes.redirect enclose, steps, .leave _ _, trivial⟩
  refine (Traced.join traced fun I site exits told => ?_).recount (by
    simp [testPart, leavePart, statementPart])
  obtain ⟨tests, leaves, simulates, simulatesStep, back, -⟩ := told
  refine Site.simulates_loop tests (jumpTo leaves rfl) simulates rfl rfl ?_
  intro stack s t height stepped
  have turned : site.Runs _ _ :=
    simulatesStep.thenJump (jumpTo back rfl) stack s .normal t height stepped
  exact ⟨turned, turned⟩

theorem doUntil_executes {b c : Piece} {body : (I : Interpretation) → Meaning I.State}
    (executes : Executes env (.plain :: kinds) others body spot b)
    (decides : Decides env computations test
      (spot.after ((doUntilSegments b c).take 1).flatten) c) :
    Executes env kinds (others ++ computations) (fun I => .doUntil (body I) (test I)) spot
      (doUntilPiece b c) := by
  have traced : TracedFrom env spot [] (doUntilSegments b c)
      [statementPart (.plain :: kinds) enclose others body, testPart computations test,
        leavePart .branchFalse (.ahead 2)] :=
    ⟨executes.redirect enclose, decides, .leave _ _, trivial⟩
  refine (Traced.join traced fun I site exits told => ?_).recount (by
    simp [testPart, leavePart, statementPart])
  obtain ⟨simulates, tests, back, -⟩ := told
  exact Site.simulates_doUntil simulates rfl rfl tests (jumpTo back rfl)

theorem repeat_executes {c b : Piece} {body : (I : Interpretation) → Meaning I.State}
    {type : DataType} (evaluates : Evaluates env computation spot c)
    (executes : Executes env (.repeatLoop :: kinds) others body
      (spot.after ((repeatSegments (countPiece c type) b).take 2).flatten) b) :
    Executes env kinds (computation :: others) (fun I => I.repeated computation (body I))
      spot (repeatPiece (countPiece c type) b) := by
  have traced : TracedFrom env spot [] (repeatSegments (countPiece c type) b)
      [countsPart computation, leavePart .branchTrue (.ahead 2),
        statementPart (.repeatLoop :: kinds) enclose others body, cellsPart repeatStep,
        leavePart .branchTrue (.ahead 3), cellsPart [Cell.single .discard .int32]] :=
    ⟨evaluates.counts type, .leave _ _, executes.redirect enclose, .cells (by decide),
      .leave _ _, .cells (by decide), trivial⟩
  refine (Traced.join traced fun I site exits told => ?_).recount (by
    simp [countsPart, leavePart, statementPart, cellsPart])
  obtain ⟨counts, leaves, simulates, ⟨isStop, steps⟩, back, ⟨isLast, drops⟩, -⟩ := told
  exact Site.simulates_repeat counts (jumpTo leaves rfl) simulates rfl rfl
    (repeatStep_recounts steps isStop) (jumpTo back rfl) (drops 0 _ rfl) isLast

/-- What an arm of a `switch` inside the given loops is emitted as. -/
def tracedArm (env : Environment) (kinds : List LoopKind) : SwitchArm → ArmSpec
  | .mk _ label body =>
    { label := label.map emitExpr
      body := emitStmts body
      isLabel := fun spot _ piece =>
        ∀ expr, label = some expr → Evaluates env (.value expr) spot piece
      isBody := fun type => Executes env (.switch type :: kinds) (computationsOf body)
        fun I => meaningOf I body }

theorem tracedArm_specifies (env : Environment) (kinds : List LoopKind) :
    SpecifiesArms (tracedArm env kinds) := fun _ _ _ => ⟨rfl, rfl⟩

theorem test_traced {type labelType : DataType} {label : Piece} (arm : Nat)
    (evaluates : Evaluates env computation (spot.after [Cell.duplicate type 0]) label) :
    Traced env [computation] (fun I site start stop exits => ∀ target value stack s,
      exits (.ahead arm) = some target → site.Runs ⟨start, value :: stack, s⟩
        ⟨if I.equal value (I.evaluate computation s).2 then
          target else stop, value :: stack,
          (I.evaluate computation s).1⟩) spot (testPiece type labelType label arm) := by
  have compared : Traced env [computation] (fun I site start stop _ => ∀ value stack s,
      site.Runs ⟨start, value :: stack, s⟩
        ⟨stop, .boolean (I.equal value (I.evaluate computation s).2) :: value :: stack,
          (I.evaluate computation s).1⟩) spot
      ([Cell.duplicate type 0] ++ label ++ [Cell.compare .equal labelType type]) := by
    have pushed :
      Traced env ([] ++ [computation]) (fun I site start stop _ => ∀ value stack s,
        site.Runs ⟨start, value :: stack, s⟩
          ⟨stop, (I.evaluate computation s).2 :: value :: value :: stack,
            (I.evaluate computation s).1⟩) spot ([Cell.duplicate type 0] ++ label) := by
      refine Traced.append (.cells (by simp [Cell.duplicate])) evaluates ?_
      rintro I site exits ⟨-, has⟩ computes value stack s
      have copied : site.Has spot.index (Cell.duplicate type 0) := has 0 _ rfl
      exact copied.duplicate.trans (computes _ s)
    refine Traced.append pushed (.cells (by simp [Cell.compare])) ?_
    rintro I site exits pushes ⟨isStop, has⟩ value stack s
    rw [isStop]
    exact (pushes value stack s).trans (has 0 _ rfl).compareEqual
  refine Traced.append compared (.leave .branchTrue (.ahead arm)) ?_
  rintro I site exits compares leaves target value stack s leads
  have runs := (compares value stack s).trans (jumpTo leaves leads).ifTrue
  rwa [I.truth_boolean] at runs

/-- The tests of arms whose labels of the construct start with the given one. -/
def testsPart (arms : List SwitchArm) (first : Nat) : Part where
  computations := arms.filterMap SwitchArm.computation?
  told := fun _ site start stop exits => ∀ targets : Nat → Nat,
    (∀ arm, arm < arms.length → exits (.ahead (first + arm)) = some (targets arm)) →
      site.Selects start stop targets (arms.map SwitchArm.computation?)

theorem tests_selects {type : DataType} (arms : List SwitchArm) {first : Nat}
    {tests : Piece}
    (held : TestsHold type (arms.map (tracedArm env kinds)) first spot tests) :
    Traced env (testsPart arms first).computations
      (testsPart arms first).told spot tests := by
  induction arms generalizing first spot tests with
  | nil =>
    obtain rfl : tests = [] := held
    refine (Traced.cells (by simp)).mono ?_
    rintro I site exits ⟨isStop, -⟩ targets - value stack s
    rw [isStop]
    exact .refl _
  | cons arm rest induction =>
    obtain ⟨pos, label, body⟩ := arm
    have others {exits : Exits} {targets : Nat → Nat}
        (leads : ∀ arm, arm < rest.length + 1 →
          exits (.ahead (first + arm)) = some (targets arm)) :
        ∀ arm, arm < rest.length → exits (.ahead (first + 1 + arm)) =
          some (targets (arm + 1)) := by
      intro arm bound
      rw [Nat.add_assoc, Nat.add_comm 1]
      exact leads (arm + 1) (Nat.succ_lt_succ bound)
    cases label with
    | none =>
      refine (induction held).mono fun I site exits selects targets leads => ?_
      exact (selects _ (others leads)).skip
    | some expr =>
      obtain ⟨labelType, label, more, evaluates, later, rfl⟩ := held
      refine Traced.append (test_traced first (evaluates expr rfl)) (induction later) ?_
      intro I site exits tested selects targets leads
      exact (selects _ (others leads)).tested fun value stack s =>
        tested (targets 0) value stack s (leads 0 (Nat.succ_pos _))

def armPart (kinds : List LoopKind) (type : DataType) : SwitchArm → Part
  | .mk _ _ body =>
    statementPart (.switch type :: kinds) encloseBreak (computationsOf body)
      fun I => meaningOf I body

theorem bodies_traced {type : DataType} (arms : List SwitchArm) {front bodies : List Piece}
    (held : BodiesHold type (arms.map (tracedArm env kinds))
      (spot.after front.flatten) bodies) :
    TracedFrom env spot front (bodies.map (·.redirect encloseBreak))
      (arms.map (armPart kinds type)) := by
  induction arms generalizing front bodies with
  | nil =>
    obtain rfl : bodies = [] := held
    exact trivial
  | cons arm rest induction =>
    obtain ⟨pos, label, body⟩ := arm
    obtain ⟨piece, more, executes, later, rfl⟩ := held
    have executes :
      Executes env (.switch type :: kinds) (computationsOf body)
        (fun I => meaningOf I body) (spot.after front.flatten) piece := executes
    refine ⟨executes.redirect encloseBreak, induction ?_⟩
    have place : spot.after (front ++ [piece.redirect encloseBreak]).flatten =
        (spot.after front.flatten).after piece := by
      rw [Piece.flatten_snoc, Spot.after_append]
      simp [Spot.after]
    rw [place]
    exact later

theorem firstDefault_eq (arms : List SwitchArm) :
    firstDefault (arms.map (tracedArm env kinds)) =
      Interpretation.defaultArm (arms.map SwitchArm.computation?) := by
  induction arms with
  | nil => rfl
  | cons arm rest induction =>
    obtain ⟨pos, label, body⟩ := arm
    unfold firstDefault Interpretation.defaultArm at induction ⊢
    cases label <;> simp [List.findIdx_cons, tracedArm, SwitchArm.computation?, induction]

theorem meaningsOf_eq (I : Interpretation) (arms : List SwitchArm) :
    meaningsOf I arms = arms.map fun | .mk _ _ body => meaningOf I body := by
  induction arms with
  | nil => rfl
  | cons arm rest induction =>
    obtain ⟨pos, label, body⟩ := arm
    rw [meaningsOf, induction]
    rfl

theorem flatMap_armPart (kinds : List LoopKind) (type : DataType) (arms : List SwitchArm) :
    (arms.map (armPart kinds type)).flatMap (·.computations) =
      computationsOfArms arms := by
  induction arms with
  | nil => rfl
  | cons arm rest induction =>
    obtain ⟨pos, label, body⟩ := arm
    rw [computationsOfArms, ← induction]
    rfl

def switchParts (kinds : List LoopKind) (type : DataType) (computation : Computation)
    (arms : List SwitchArm) : List Part :=
  [valuePart computation, testsPart arms 3, leavePart .branch (.ahead 2)] ++
    arms.map (armPart kinds type) ++ [cellsPart [Cell.single .discard type]]

section

variable {type : DataType} {arms : List SwitchArm} {v tests : Piece} {bodies : List Piece}

theorem switchParts_arm {index : Nat} {arm : SwitchArm} (found : arms[index]? = some arm) :
    (switchParts kinds type computation arms)[3 + index]? =
      some (armPart kinds type arm) := by
  have inside := (List.getElem?_eq_some_iff.mp found).1
  rw [switchParts, List.append_assoc, List.getElem?_append_right (by simp)]
  show (arms.map (armPart kinds type) ++ _)[3 + index - 3]? = _
  rw [Nat.add_sub_cancel_left, List.getElem?_append_left (by simpa using inside),
    List.getElem?_map, found]
  rfl

theorem switchParts_last : (switchParts kinds type computation arms)[3 + arms.length]? =
    some (cellsPart [Cell.single .discard type]) := by
  have size : ([valuePart computation, testsPart arms 3, leavePart .branch (.ahead 2)] ++
      arms.map (armPart kinds type)).length = 3 + arms.length := by
    rw [List.length_append, List.length_map]
    rfl
  rw [switchParts, List.getElem?_append_right (Nat.le_of_eq size), size, Nat.sub_self]
  rfl

theorem switch_traced (evaluates : Evaluates env computation spot v)
    (heldTests : TestsHold type (arms.map (tracedArm env kinds)) 3 (spot.after v) tests)
    (heldBodies : BodiesHold type (arms.map (tracedArm env kinds))
      (spot.after (switchHead v tests).flatten) bodies) :
    TracedFrom env spot [] (switchSegments type v tests bodies)
      (switchParts kinds type computation arms) := by
  have head : TracedFrom env spot [] (switchHead v tests)
      [valuePart computation, testsPart arms 3, leavePart .branch (.ahead 2)] := by
    refine ⟨evaluates, ?_, .leave _ _, trivial⟩
    have place : spot.after ([] ++ [v]).flatten = spot.after v := by simp
    rw [place]
    exact tests_selects arms heldTests
  refine (head.append (bodies_traced arms heldBodies)).append ⟨.cells ?_, trivial⟩
  simp [Cell.single]

theorem switch_simulates {I : Interpretation} {site : Site I} {exits : Exits}
    {byDefault : Nat}
    (told : ToldFrom site (joined spot (switchTargets bodies.length byDefault)
        (switchSegments type v tests bodies) exits) spot []
          (switchSegments type v tests bodies)
      (switchParts kinds type computation arms))
    (isDefault : byDefault = Interpretation.defaultArm (arms.map SwitchArm.computation?))
    (sizes : bodies.length = arms.length) :
    site.Simulates spot.index
      (spot.index + Piece.startOf (switchSegments type v tests bodies)
        (switchSegments type v tests bodies).length) exits kinds
      (I.switch computation (arms.map SwitchArm.computation?) (meaningsOf I arms)) := by
  have count :
      (meaningsOf I arms).length = arms.length := by rw [meaningsOf_eq, List.length_map]
  have isSize : (switchSegments type v tests bodies).length = 3 + arms.length + 1 := by
    rw [switchSegments, List.length_append, List.length_append, List.length_map, sizes]
    rfl
  rw [isSize]
  generalize switchSegments type v tests bodies = segments at told ⊢
  have value : site.Computes spot.index (spot.index + Piece.startOf segments 1)
      (I.evaluate computation) :=
    told.get (show (switchParts kinds type computation arms)[0]? = _ from rfl)
  have tested := told.get (show (switchParts kinds type computation arms)[1]? = _ from rfl)
  have falls := told.get (show (switchParts kinds type computation arms)[2]? = _ from rfl)
  obtain ⟨isLast, drops⟩ := told.get switchParts_last
  have selects : site.Selects (spot.index + Piece.startOf segments 1)
      (spot.index + Piece.startOf segments 2)
      (fun arm => spot.index + Piece.startOf segments (3 + arm))
      (arms.map SwitchArm.computation?) :=
    tested _ fun arm bound => joined_ahead (switchTargets_arm (sizes ▸ bound))
  have falling : site.Jumps (spot.index + Piece.startOf segments 2)
      (spot.index + Piece.startOf segments 3) .branch
      (spot.index + Piece.startOf segments (3 + byDefault)) :=
      jumpTo falls (joined_ahead rfl)
  rw [isDefault] at falling
  have each (arm : Nat) (meaning : Meaning I.State)
    (found : (meaningsOf I arms)[arm]? = some meaning) :
      site.Simulates (spot.index + Piece.startOf segments (3 + arm))
        (spot.index + Piece.startOf segments (3 + (arm + 1)))
        (fun way => joined spot (switchTargets bodies.length byDefault) segments exits
          (encloseBreak way))
        (.switch type :: kinds) meaning := by
    rw [meaningsOf_eq, List.getElem?_map, Option.map_eq_some_iff] at found
    obtain ⟨⟨pos, label, body⟩, foundArm, rfl⟩ := found
    exact told.get (switchParts_arm foundArm)
  refine Site.simulates_switch value selects falling each ?_ ?_ rfl ?_ ?_
  · rw [List.length_map, count]
  · rw [count, ← sizes]
    exact joined_ahead rfl
  · rw [count]
    exact drops 0 _ rfl
  · rw [count]
    exact isLast

end

theorem switch_executes {type : DataType} {arms : List SwitchArm} {v tests : Piece}
    {bodies : List Piece} (evaluates : Evaluates env computation spot v)
    (heldTests : TestsHold type (arms.map (tracedArm env kinds)) 3 (spot.after v) tests)
    (heldBodies : BodiesHold type (arms.map (tracedArm env kinds))
      (spot.after (switchHead v tests).flatten) bodies)
    (sizes : bodies.length = arms.length) :
    Executes env kinds
      (computation :: (arms.filterMap SwitchArm.computation? ++ computationsOfArms arms))
      (fun I => I.switch computation (arms.map SwitchArm.computation?) (meaningsOf I arms))
      spot (switchPiece type v tests bodies
        (firstDefault (arms.map (tracedArm env kinds)))) := by
  refine (Traced.join (switch_traced evaluates heldTests heldBodies)
    fun I site exits told =>
    switch_simulates told (firstDefault_eq arms) sizes).recount ?_
  simp [switchParts, valuePart, testsPart, leavePart, cellsPart, flatMap_armPart]

theorem discards_unlinked (types : List DataType) :
    ∀ cell ∈ discards types, cell.link = .none := by
  simp [discards, Cell.single]

theorem break_executes :
    Executes env kinds [] (fun _ => .leave .breakLoop) spot breakPiece :=
  (Traced.leave .branch .breakLoop).mono fun _ _ _ ⟨_, leads, jumps⟩ =>
    Site.simulates_break leads jumps

theorem continue_executes :
    Executes env kinds [] (fun _ => .leave .continueLoop) spot (continuePiece kinds) := by
  refine Traced.append (.cells (discards_unlinked _)) (.leave .branch .continueLoop) ?_
  rintro I site exits ⟨isStop, has⟩ ⟨target, leads, jumps⟩
  rw [isStop, discards, List.length_map] at jumps
  exact Site.simulates_continue has leads jumps

theorem exit_executes (plain : .withLoop ∉ kinds) :
    Executes env kinds [] (fun _ => .leave .exit) spot (exitPiece kinds) := by
  rw [exitPiece, Site.unwindPiece_eq plain]
  refine Traced.append (.cells (discards_unlinked _)) (.cells (by simp [Cell.single])) ?_
  rintro I site exits ⟨isStop, has⟩ ⟨-, leaves⟩
  rw [isStop, discards, List.length_map, Site.length_keptTypes] at leaves
  exact Site.simulates_exit has (leaves 0 _ rfl)

theorem nothing_executes :
    EmitsStatement env kinds [] (pure ()) (Executes env kinds [] fun _ => .skip) :=
  fun s _ _ =>
    ensures_pure.mpr ⟨[], Lays.refl s, (Traced.cells (by simp)).mono fun _ _ _ _ =>
    Site.simulates_skip⟩

theorem emitOptional_executes {stmt : Option Stmt}
    (assigns : stmt.all Stmt.isAssignment = true) :
    EmitsStatement env kinds [] (emitOptional stmt)
      (Executes env kinds (stmt.toList.flatMap Stmt.assigned) fun I =>
        assignsOption I stmt) := by
  cases stmt with
  | none => exact nothing_executes
  | some stmt =>
    have isAssignment : stmt.isAssignment = true := by simpa using assigns
    unfold Stmt.isAssignment at isAssignment
    split at isAssignment
    case h_1 pos op v value => exact assign_executes pos op v value
    case h_2 => cases isAssignment

theorem noCondition_decides :
    Decides env [] (fun I => I.optionalTest none) spot [Cell.pushImmediate 1] := by
  refine (Traced.cells (by simp [Cell.pushImmediate])).mono ?_
  rintro I site exits ⟨isStop, has⟩ stack s
  have pushed : site.Has spot.index (Cell.pushImmediate 1) := has 0 _ rfl
  rw [isStop]
  exact ⟨_, I.truth_int32 1 (by decide), pushed.pushImmediate⟩

theorem emitOptionalCondition_decides (condition : Option Expr) :
    EmitsClosed env (emitOptionalCondition condition)
      (Decides env (condition.map Computation.value).toList
        fun I => I.optionalTest (condition.map .value)) := by
  cases condition with
  | none => exact fun s => (emitPushImmediate_adds 1).mono fun _ _ adds =>
    ⟨_, adds, noCondition_decides⟩
  | some condition =>
    intro s
    refine (emitExpr_evaluates condition s).bind
      fun _ t ⟨type, piece, adds, evaluates⟩ => ?_
    refine (convert_adds .boolean adds.types).mono fun _ u converting => ?_
    exact ⟨_, adds.append converting, evaluates.decides type⟩

end

end GameScript.Execution
