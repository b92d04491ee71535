import GameScript.Proofs.Execution.Constructs

/-! Emitted code of structured programs runs as they mean. -/

namespace GameScript.Execution

open Bytecode Emission Syntax

section

variable {env : Environment}

mutual

theorem emitStmt_executes (stmt : Stmt) (kinds : List LoopKind)
    (structured : stmt.isStructured = true) (plain : .withLoop ∉ kinds) :
    EmitsStatement env kinds [] (emitStmt stmt)
      (Executes env kinds stmt.computations fun I => stmt.meaning I) := by
  cases stmt with
  | assign pos op target value =>
    cases target with
    | var v indices =>
      cases indices with
      | nil => exact assign_executes pos op v value
      | cons _ _ => simp [Stmt.isStructured] at structured
    | _ => simp [Stmt.isStructured] at structured
  | block body =>
    obtain ⟨pos, stmts⟩ := body
    exact goTo_emitsStatement pos (emitStmts_executes stmts kinds structured plain)
  | ifElse pos condition yes no =>
    rw [Stmt.isStructured, Bool.and_eq_true] at structured
    have first := emitStmt_executes yes kinds structured.1 plain
    cases no with
    | none =>
      refine goTo_emitsStatement pos
        ((emitIf_emits (emitExpr_evaluates condition) first).mono ?_)
      rintro spot _ - ⟨type, c, y, evaluates, executes, rfl⟩
      exact (if_executes (evaluates.decides type) executes).recount (by
        simp [Stmt.computations, computationsOfOption])
    | some no =>
      have second := emitStmt_executes no kinds structured.2 plain
      refine goTo_emitsStatement pos
        ((emitIfElse_emits (emitExpr_evaluates condition) first second).mono ?_)
      rintro spot _ - ⟨type, c, y, n, evaluates, executes, executesNo, rfl⟩
      exact ifElse_executes (evaluates.decides type) executes executesNo
  | whileLoop pos condition body =>
    have inside :=
      emitStmt_executes body (.plain :: kinds) structured (by simpa using plain)
    refine goTo_emitsStatement pos
      ((emitWhile_emits (emitExpr_evaluates condition) inside).mono ?_)
    rintro spot _ - ⟨type, c, b, evaluates, executes, rfl⟩
    exact while_executes (evaluates.decides type) executes
  | forLoop pos init condition step body =>
    rw [Stmt.isStructured, Bool.and_eq_true, Bool.and_eq_true] at structured
    obtain ⟨⟨starts, steps⟩, structured⟩ := structured
    have inside :=
      emitStmt_executes body (.plain :: kinds) structured (by simpa using plain)
    rw [emitStmt_forLoop]
    refine goTo_emitsStatement pos (((emitOptional_executes starts).bind (emitFor_emits
      (emitOptionalCondition_decides condition) (emitOptional_executes steps) inside)).mono
        ?_)
    rintro spot _
      - ⟨left, right, starting, ⟨c, p, b, decides, executes, stepping, rfl⟩, rfl⟩
    refine Traced.recount (Traced.append starting (for_executes decides executes stepping)
      fun I site exits => Site.simulates_seq) ?_
    simp [Stmt.computations]
  | doUntil pos body condition =>
    have inside :=
      emitStmt_executes body (.plain :: kinds) structured (by simpa using plain)
    refine goTo_emitsStatement pos
      ((emitDoUntil_emits inside (emitExpr_evaluates condition)).mono ?_)
    rintro spot _ - ⟨type, b, c, executes, evaluates, rfl⟩
    exact doUntil_executes executes (evaluates.decides type)
  | repeatLoop pos count body =>
    have inside :=
      emitStmt_executes body (.repeatLoop :: kinds) structured (by simpa using plain)
    refine goTo_emitsStatement pos
      ((emitRepeat_emits (emitExpr_evaluates count) inside).mono ?_)
    rintro spot _ - ⟨type, c, b, evaluates, executes, rfl⟩
    exact repeat_executes evaluates executes
  | switch pos value arms =>
    rw [emitStmt_switch]
    simp only [emitTests_eq (tracedArm_specifies env kinds),
      emitArms_eq (tracedArm_specifies env kinds)]
    refine goTo_emitsStatement pos ((emitSwitch_emits (emitExpr_evaluates value)
      (arms_executed arms kinds structured plain)).mono ?_)
    rintro spot _ - ⟨type, v, tests, bodies, evaluates, heldTests, heldBodies, sizes, rfl⟩
    exact switch_executes evaluates heldTests heldBodies
      (by rwa [List.length_map] at sizes)
  | breakLoop pos =>
    refine goTo_emitsStatement pos (emitBreak_emits.mono ?_)
    rintro spot _ - ⟨-, rfl⟩
    exact break_executes
  | continueLoop pos =>
    refine goTo_emitsStatement pos (emitContinue_emits.mono ?_)
    rintro spot _ - ⟨-, rfl⟩
    exact continue_executes
  | exit pos =>
    refine goTo_emitsStatement pos (emitExit_emits.mono ?_)
    rintro spot _ - rfl
    exact exit_executes plain
  | empty pos => exact goTo_emitsStatement pos nothing_executes
  | _ => cases structured

theorem arms_executed (arms : List SwitchArm) (kinds : List LoopKind)
    (structured : armsAreStructured arms = true) (plain : .withLoop ∉ kinds) :
    ∀ spec ∈ arms.map (tracedArm env kinds), spec.Correct env kinds [] := by
  cases arms with
  | nil => simp
  | cons arm rest =>
    obtain ⟨pos, label, body⟩ := arm
    rw [armsAreStructured, Bool.and_eq_true] at structured
    have others := arms_executed rest kinds structured.2 plain
    have bodies (type : DataType) :=
      emitStmts_executes body (.switch type :: kinds) structured.1 (by simpa using plain)
    intro spec member
    rcases List.mem_cons.mp member with rfl | member
    · refine ⟨?_, bodies⟩
      cases label with
      | none => simp [tracedArm]
      | some label =>
        rintro _ ⟨⟩
        refine (emitExpr_evaluates label).mono ?_
        rintro spot type piece evaluates _ ⟨⟩
        exact evaluates
    · exact others spec member

theorem emitStmts_executes (stmts : List Stmt) (kinds : List LoopKind)
    (structured : areStructured stmts = true) (plain : .withLoop ∉ kinds) :
    EmitsStatement env kinds [] (emitStmts stmts)
      (Executes env kinds (computationsOf stmts) fun I => meaningOf I stmts) := by
  cases stmts with
  | nil => exact nothing_executes
  | cons stmt rest =>
    rw [areStructured, Bool.and_eq_true] at structured
    refine ((emitStmt_executes stmt kinds structured.1 plain).bind
      (emitStmts_executes rest kinds structured.2 plain)).mono ?_
    rintro spot _ - ⟨left, right, first, second, rfl⟩
    exact Traced.append first second fun I site exits => Site.simulates_seq

end

end

namespace Site

variable {I : Interpretation} {site : Site I} {stack : List (Datum I.Value)}
  {state : I.State}

theorem Has.halts {index : Nat} (has : site.Has index (Cell.single .exit .int32)) :
    Halts site.entry site.names site.stretches ⟨index, stack, state⟩ := by
  obtain ⟨ins, found, refers⟩ := has.instruction
  obtain rfl : ins = _ := refers
  refine ⟨?_, Or.inr ⟨_, found, rfl⟩⟩
  rw [has.step_eq found]
  rfl

theorem halts_end (ordered : Ordered 0 site.whole.length site.stretches) :
    Halts site.entry site.names site.stretches ⟨site.whole.length, stack, state⟩ := by
  have size : site.entry.instructions.size = site.whole.length :=
    (site.isCode.resolved site.tables).1
  have unstretched : site.stretches.find? (·.start == site.whole.length) = none := by
    rw [List.find?_eq_none]
    intro stretch member starts
    have bounds := ordered.bounds member
    have same : stretch.start = site.whole.length := by simpa using starts
    omega
  refine ⟨?_, Or.inl size.symm⟩
  simp [Interpretation.step, unstretched, size]

/-- A whole entry lies at its start, with no way out of it. -/
theorem lies_whole : site.Lies ⟨0, 0⟩ site.whole (fun _ => none) site.stretches where
  address := (Piece.offset_zero site.whole).symm
  cells := fun index cell found => by
    rw [Nat.zero_add, found, Cell.close_eq_self fun _ _ => rfl]
  known := fun _ member => member
  only := fun _ member _ _ => member

/-- What a whole entry simulates, it runs to a halt. -/
theorem Simulates.halts {meaning : Meaning I.State} {s t : I.State} {outcome : Outcome}
    (simulates : site.Simulates 0 site.whole.length (fun _ => none) [] meaning)
    (ordered : Ordered 0 site.whole.length site.stretches) (means : meaning s outcome t) :
    ∃ index, site.Runs ⟨0, [], s⟩ ⟨index, [], t⟩ ∧
      Halts site.entry site.names site.stretches ⟨index, [], t⟩ := by
  have finishes := simulates [] s outcome t rfl means
  cases outcome with
  | normal => exact ⟨_, finishes, halts_end ordered⟩
  | exit =>
    obtain ⟨index, has, runs⟩ := finishes
    exact ⟨index, runs, has.halts⟩
  | breakLoop | continueLoop =>
    obtain ⟨_, leads, _⟩ := finishes
    cases leads

end Site

/-- A structured program that is emitted runs as it means: whatever its computations
do, if it leads from variables to others, then its code does so from its first
instruction to a halt, and leaves the stack empty. -/
theorem structured_program_executes {env : Environment} {program : Program}
    {pending : PendingEntry} (structured : areStructured program = true)
    (emitted : emitProgram env program = .ok pending)
    (short : pending.length < 2 ^ 32) (tables : NameTables) :
    ∃ stretches, Ordered 0 (pending.resolve tables).1.instructions.size stretches ∧
      stretches.map (·.computation) = computationsOf program ∧
      (∀ stretch ∈ stretches, stretch.IsEmitted env pending) ∧
      ∀ (I : Interpretation) (s t : I.State) (outcome : Outcome),
      meaningOf I program s outcome t →
        ∃ index,
          Reaches (pending.resolve tables).1 (pending.resolve tables).2 stretches
            ⟨0, [], s⟩ ⟨index, [], t⟩ ∧
          Halts (pending.resolve tables).1 (pending.resolve tables).2 stretches
            (⟨index, [], t⟩ : Config I) := by
  have executes : EmitsStatement env [] [] (emitStmts program) _ :=
    emitStmts_executes program [] structured (by simp)
  obtain ⟨piece, ⟨own, ordered, same, tells⟩, isCode⟩ :=
    emitProgram_isCode executes emitted
  have ends : (Spot.after ⟨0, 0⟩ piece).index = piece.length := Nat.zero_add _
  have size : (pending.resolve tables).1.instructions.size = piece.length :=
    (isCode.resolved tables).1
  rw [ends] at ordered tells
  let site (I : Interpretation) : Site I := ⟨piece, pending, isCode, short, tables, own⟩
  refine ⟨own, size ▸ ordered, same, ?_, fun I s t outcome means => ?_⟩
  · exact (tells .idle (site .idle) _ (site .idle).lies_whole).2
  · exact (tells I (site I) _ (site I).lies_whole).1.halts ordered means

/-- `default: x = n; continue; case n: exit;`. -/
def defaultFirst : List SwitchArm :=
  [.mk 0 none [.assign 0 .assign (.var { pos := 0, name := "x" } [])
    (.var { pos := 0, name := "n" } []),
      .continueLoop 0],
    .mk 0 (some (.var { pos := 0, name := "n" } [])) [.exit 0]]

/-- `repeat (n) switch (n) { default: x = n; continue; case n: exit; }`. -/
def repeatedDefault : Program :=
  [.repeatLoop 0 (.var { pos := 0, name := "n" } [])
    (.switch 0 (.var { pos := 0, name := "n" } []) defaultFirst)]

/-- Assignments are counted, and no two values are equal. -/
def tally : Interpretation where
  State := Nat
  Value := Empty
  evaluate _ s := (s, .int32 2)
  store _ _ s := s + 1
  truth := Interpretation.idle.truth
  toInt32 := Interpretation.idle.toInt32
  equal _ _ := false
  truth_boolean _ := rfl
  truth_int32 _ _ := rfl
  toInt32_int32 _ := rfl

theorem defaultFirst_means (s : Nat) :
    Meaning.breakable (.fallThrough (meaningsOf tally defaultFirst)) s .continueLoop
      (s + 1) := by
  have leaves : meaningOf tally [.continueLoop 0] (s + 1) .continueLoop (s + 1) :=
    Or.inr ⟨by decide, rfl, rfl⟩
  exact ⟨.continueLoop, Or.inr ⟨by decide, Or.inl ⟨s + 1, ⟨rfl, rfl⟩, leaves⟩⟩, rfl⟩

theorem repeatedDefault_means :
    meaningOf tally repeatedDefault (0 : Nat) .normal (2 : Nat) := by
  refine Or.inl ⟨(2 : Nat), ?_, rfl, rfl⟩
  exact .again (defaultFirst_means 0) (Or.inr rfl)
    (.again (defaultFirst_means 1) (Or.inr rfl) .done)

theorem repeatedDefault_executes :
    ∃ pending, emitProgram bareEnvironment repeatedDefault = .ok pending ∧
      ∃ stretches, stretches.map (·.computation) = computationsOf repeatedDefault ∧
        ∃ index,
          Reaches (pending.resolve {}).1 (pending.resolve {}).2 stretches
            (⟨0, [], (0 : Nat)⟩ : Config tally) ⟨index, [], (2 : Nat)⟩ ∧
          Halts (pending.resolve {}).1 (pending.resolve {}).2 stretches
            (⟨index, [], (2 : Nat)⟩ : Config tally) := by
  have addressable : endsWith isAddressable (emitProgram bareEnvironment repeatedDefault) =
      true := by
    decide +kernel
  obtain ⟨pending, emitted, short⟩ := exists_of_endsWith addressable
  have short := Nat.lt_trans (of_decide_eq_true short) (by decide : 2 ^ 31 < 2 ^ 32)
  obtain ⟨stretches, -, same, -, runs⟩ := structured_program_executes rfl emitted short {}
  exact ⟨pending, emitted, stretches, same, runs tally _ _ _ repeatedDefault_means⟩

end GameScript.Execution
