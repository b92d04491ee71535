import GameScript.Proofs.Emission.Balance
import GameScript.Proofs.Emission.Program

/-! The emitter's own stacks: whatever is emitted, they end as high as they must. -/

namespace GameScript.Emission

open Bytecode Syntax

variable {env : Environment} {s t : Emitter}

theorem EmitFault.IsOfProgram.ne_typeUnderflow {fault : EmitFault}
    (ofProgram : fault.IsOfProgram) : fault ≠ .typeUnderflow := by
  rintro rfl
  exact ofProgram

theorem EmitFault.IsOfProgram.ne_typeImbalance {fault : EmitFault}
    (ofProgram : fault.IsOfProgram) (count : Nat) : fault ≠ .typeImbalance count := by
  rintro rfl
  exact ofProgram

/-- The loops and the scopes are as high as before, the types are as told. -/
structure Balances (s t : Emitter) (types : List DataType) : Prop where
  types : t.types = types
  kinds : t.kinds = s.kinds
  frames : t.frames = s.frames

namespace Balances

variable {types : List DataType}

theorem loops (balances : Balances s t types) : t.loops.length = s.loops.length := by
  have heights := congrArg List.length balances.kinds
  simpa [Emitter.kinds] using heights

theorem scopes (balances : Balances s t types) : t.scopes.length = s.scopes.length := by
  have heights := congrArg List.length balances.frames
  simpa [Emitter.frames] using heights

theorem trans {u : Emitter} (first : Balances s t s.types)
    (second : Balances t u types) : Balances s u types where
  types := second.types
  kinds := second.kinds.trans first.kinds
  frames := second.frames.trans first.frames

theorem ofLanded {patch : ForwardPatch}
    (balances : Balances (s.landed patch) t types) : Balances s t types :=
  ⟨balances.types, balances.kinds, balances.frames⟩

end Balances

theorem emitExpr_balances (expr : Expr) (s : Emitter) :
    Ensures env s (emitExpr expr) fun _ t => ∃ type, Balances s t (type :: s.types) := by
  refine (emitExpr_pushes expr .ofNothing s).mono ?_
  rintro _ t ⟨type, piece, adds, -⟩
  have kinds : t.kinds = s.kinds := by rw [Emitter.kinds, adds.loops, Emitter.kinds]
  exact ⟨type, adds.types, kinds, adds.frames⟩

theorem emitStmt_balances (stmt : Stmt) (s : Emitter) :
    Ensures env s (emitStmt stmt) fun _ t => Balances s t s.types := by
  refine (emitStmt_rests stmt s.kinds s.params .ofNothing s rfl rfl).mono ?_
  rintro _ t ⟨piece, lays, -⟩
  exact ⟨lays.types, lays.kinds, lays.frames⟩

theorem emitStmts_balances (stmts : List Stmt) (s : Emitter) :
    Ensures env s (emitStmts stmts) fun _ t => Balances s t s.types := by
  refine (emitStmts_rests stmts s.kinds s.params .ofNothing s rfl rfl).mono ?_
  rintro _ t ⟨piece, lays, -⟩
  exact ⟨lays.types, lays.kinds, lays.frames⟩

theorem emitArm_balances (jump fallback : ForwardPatch) (isDefault : Bool)
    (body : List Stmt) (s : Emitter) :
    Ensures env s (emitArm jump fallback isDefault (emitStmts body)) fun _ t =>
      Balances s t s.types := by
  unfold emitArm
  refine ensures_bind.mpr (ensures_land.mpr ?_)
  cases isDefault with
  | false =>
    refine ensures_bind.mpr (ensures_pure.mpr ?_)
    refine (emitStmts_balances body _).bind fun _ t balances => ?_
    exact balances.ofLanded
  | true =>
    refine ensures_bind.mpr (ensures_bind.mpr (ensures_pure.mpr ?_))
    refine (emitStmts_balances body _).bind fun _ t balances => ?_
    exact balances.ofLanded.ofLanded

theorem emitArms_balances (arms : List SwitchArm) (jumps : List ForwardPatch)
    (fallback : ForwardPatch) (s : Emitter) :
    Ensures env s (emitArms jumps fallback arms) fun _ t => Balances s t s.types := by
  induction arms generalizing jumps fallback s with
  | nil => exact ⟨rfl, rfl, rfl⟩
  | cons arm rest induction =>
    cases arm with
    | mk pos label body =>
      refine (emitArm_balances _ fallback label.isNone body s).bind
        fun unused t first => ?_
      refine (induction jumps.tail unused t).mono fun _ u second => ?_
      rw [first.types] at second
      exact first.trans second

theorem popLoop_run {top : LoopContext} {rest : List LoopContext}
    (loops : t.loops = top :: rest) :
    (popLoop.run env).run t = .ok (top, { t with loops := rest }) := by
  cases t
  cases loops
  rfl

/-- The context of a loop is still there when what stands in the loop has been emitted. -/
theorem popLoop_succeeds {α : Type} {body : EmitM α}
    (balances : ∀ s, Ensures env s body fun _ t => Balances s t s.types)
    {context : LoopContext}
    {value : α} (ran : ((do pushLoop context; body : EmitM α).run env).run s =
      .ok (value, t)) :
    ∃ top rest, (popLoop.run env).run t = .ok (top, { t with loops := rest }) ∧
      rest.length = s.loops.length := by
  have pushed : Ensures env s (do pushLoop context; body) fun _ t =>
      t.loops.length = s.loops.length + 1 :=
    ensures_bind.mpr (ensures_modify.mpr ((balances _).mono fun _ _ kept => kept.loops))
  have height := pushed.of_run ran
  cases loops : t.loops with
  | nil =>
    rw [loops] at height
    cases height
  | cons top rest =>
    rw [loops] at height
    exact ⟨top, rest, popLoop_run loops, Nat.succ.inj height⟩

/-- Whatever is emitted, in whatever state, leaves the stacks of types, loops and scopes as
high as it must; no stack is ever found too low, and none too high at the end. -/
theorem emission_keeps_stacks (env : Environment) :
    (∀ (expr : Expr) (s t : Emitter), ((emitExpr expr).run env).run s = .ok ((), t) →
      (∃ type, t.types = type :: s.types) ∧ t.scopes.length = s.scopes.length ∧
        t.loops.length = s.loops.length) ∧
    (∀ (stmt : Stmt) (s t : Emitter), ((emitStmt stmt).run env).run s = .ok ((), t) →
      t.types = s.types ∧ t.scopes.length = s.scopes.length ∧
        t.loops.length = s.loops.length) ∧
    (∀ (expr : Expr) (s : Emitter) (error : EmitError),
      ((emitExpr expr).run env).run s = .error error → error.fault ≠ .typeUnderflow) ∧
    (∀ (stmt : Stmt) (s : Emitter) (error : EmitError),
      ((emitStmt stmt).run env).run s = .error error → error.fault ≠ .typeUnderflow) ∧
    (∀ (context : LoopContext) (stmt : Stmt) (s t : Emitter),
      ((do pushLoop context; emitStmt stmt : EmitM Unit).run env).run s = .ok ((), t) →
        ∃ top rest, (popLoop.run env).run t = .ok (top, { t with loops := rest }) ∧
          rest.length = s.loops.length) ∧
    (∀ (context : LoopContext) (jumps : List ForwardPatch) (fallback unused : ForwardPatch)
      (arms : List SwitchArm) (s t : Emitter),
      ((do pushLoop context; emitArms jumps fallback arms : EmitM ForwardPatch).run
        env).run s = .ok (unused, t) →
        ∃ top rest, (popLoop.run env).run t = .ok (top, { t with loops := rest }) ∧
          rest.length = s.loops.length) ∧
    ∀ (program : Program) (error : EmitError), emitProgram env program = .error error →
      error.fault ≠ .typeUnderflow ∧ ∀ count, error.fault ≠ .typeImbalance count := by
  refine ⟨?_, ?_, ?_, ?_, ?_, ?_, ?_⟩
  · intro expr s t ran
    obtain ⟨type, balances⟩ := (emitExpr_balances expr s).of_run ran
    exact ⟨⟨type, balances.types⟩, balances.scopes, balances.loops⟩
  · intro stmt s t ran
    have balances := (emitStmt_balances stmt s).of_run ran
    exact ⟨balances.types, balances.scopes, balances.loops⟩
  · intro expr s error ran
    exact ((emitExpr_balances expr s).fault_of_run ran).ne_typeUnderflow
  · intro stmt s error ran
    exact ((emitStmt_balances stmt s).fault_of_run ran).ne_typeUnderflow
  · intro context stmt s t ran
    exact popLoop_succeeds (emitStmt_balances stmt) ran
  · intro context jumps fallback unused arms s t ran
    exact popLoop_succeeds (emitArms_balances arms jumps fallback) ran
  · intro program error refused
    have ofProgram := emitProgram_fault (emitStmts_rests program [] [] .ofNothing) refused
    exact ⟨ofProgram.ne_typeUnderflow, ofProgram.ne_typeImbalance⟩

/-- `while (true) break;` -/
def brokenLoop : Stmt := .whileLoop 0 (.literal 7 (.boolean true)) (.breakLoop 13)

theorem brokenLoop_keeps_stacks :
    ∃ t, ((emitStmt brokenLoop).run bareEnvironment).run {} = .ok ((), t) ∧
      t.types = [] ∧ t.scopes.length = 1 ∧ t.loops.length = 0 := by
  obtain ⟨t, ran⟩ :
      ∃ t, ((emitStmt brokenLoop).run bareEnvironment).run {} = .ok ((), t) :=
    ⟨_, rfl⟩
  exact ⟨t, ran, (emission_keeps_stacks bareEnvironment).2.1 brokenLoop {} t ran⟩

end GameScript.Emission
