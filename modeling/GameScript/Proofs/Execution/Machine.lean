import GameScript.Proofs.Emission.Moves
import GameScript.Proofs.Emission.Program
import GameScript.Proofs.Execution.Meaning

/-! A machine that runs the code of structured statements.

The code of each computation is a stretch that is run as one step. -/

namespace GameScript.Execution

open Bytecode Emission

def Computation.emit : Computation → EmitM Unit
  | .value expr => emitExpr expr
  | .update v op expr => emitOperation v op (emitExpr expr)

/-- The code of a computation, from one instruction up to another. -/
structure Stretch where
  start : Nat
  stop : Nat
  computation : Computation

def Stretch.IsEmitted (env : Environment) (pending : PendingEntry) (stretch : Stretch) :
    Prop :=
  ∃ s t, ((stretch.computation.emit).run env).run s = .ok ((), t) ∧
    s.code.size = stretch.start ∧ t.code.size = stretch.stop ∧
    ∀ index, stretch.start ≤ index → index < stretch.stop →
    pending.code[index]? = t.code[index]?

structure Config (I : Interpretation) where
  index : Nat
  stack : List (Datum I.Value)
  state : I.State

/-- Index of the instruction that a branch leads to, or of the end of the code. -/
def targetIndex? (entry : CodeEntry) (ins : Instruction) : Option Nat :=
  if ins.target = entry.length then some entry.instructions.size
  else entry.indexOfInt? ins.target

namespace Interpretation

variable (I : Interpretation)

def convert? (type : DataType) (value : Datum I.Value) : Option (Datum I.Value) :=
  match type with
  | .boolean => some (.boolean (I.truth value))
  | .int32 => some (.int32 (I.toInt32 value))
  | _ => none

def compare? (kind : Option Comparison) (left right : Datum I.Value) :
    Option (Datum I.Value) :=
  match kind with
  | some .equal => some (.boolean (I.equal left right))
  | some .lessEqual => some (.boolean (decide (I.toInt32 left ≤ I.toInt32 right)))
  | _ => none

def immediate? (ins : Instruction) : Option (Datum I.Value) :=
  match ins.immediate with
  | some (.int16 value) => some (.int32 value.toInt32)
  | some (.int32 value) => some (.int32 value)
  | _ => none

def storedName? (tables : NameTables) (ins : Instruction) : Option String :=
  match ins.reference with
  | some (.var id .normal) => (tables.vars.get? id).map (·.name)
  | _ => none

def execute (entry : CodeEntry) (tables : NameTables) (config : Config I)
    (ins : Instruction) : Option (Config I) :=
  let next := config.index + 1
  match ins.opcode, config.stack with
  | .convert, value :: rest =>
    (I.convert? ins.type2 value).map fun result => ⟨next, result :: rest, config.state⟩
  | .compare, right :: left :: rest =>
    (I.compare? ins.comparison left right).map fun result =>
      ⟨next, result :: rest, config.state⟩
  | .sub, right :: left :: rest =>
    if ins.type1 = .int32 ∧ ins.type2 = .int32 then
      some ⟨next, .int32 (I.toInt32 left - I.toInt32 right) :: rest, config.state⟩
    else none
  | .duplicate, value :: rest =>
    if ins.extra = 0 ∧
      ins.swap = 0 then some ⟨next, value :: value :: rest, config.state⟩ else none
  | .discard, _ :: rest => some ⟨next, rest, config.state⟩
  | .pop, value :: rest =>
    (storedName? tables ins).map fun name => ⟨next, rest, I.store name value config.state⟩
  | .push, stack | .pushImmediate, stack =>
    (I.immediate? ins).map fun value => ⟨next, value :: stack, config.state⟩
  | .branch, stack =>
    (targetIndex? entry ins).map fun target => ⟨target, stack, config.state⟩
  | .branchTrue, value :: rest =>
    if I.truth value then (targetIndex? entry ins).map fun target =>
      ⟨target, rest, config.state⟩
    else some ⟨next, rest, config.state⟩
  | .branchFalse, value :: rest =>
    if I.truth value then some ⟨next, rest, config.state⟩
    else (targetIndex? entry ins).map fun target => ⟨target, rest, config.state⟩
  | _, _ => none

def step (entry : CodeEntry) (tables : NameTables) (stretches : List Stretch)
    (config : Config I) : Option (Config I) :=
  match stretches.find? (·.start == config.index) with
  | some stretch =>
    let (state, value) := I.evaluate stretch.computation config.state
    some ⟨stretch.stop, value :: config.stack, state⟩
  | none => entry.instructions[config.index]?.bind (I.execute entry tables config)

end Interpretation

inductive Reaches {I : Interpretation} (entry : CodeEntry) (tables : NameTables)
    (stretches : List Stretch) : Config I → Config I → Prop where
  | refl (config : Config I) : Reaches entry tables stretches config config
  | head {first next last : Config I}
      (step : I.step entry tables stretches first = some next)
      (rest : Reaches entry tables stretches next last) :
      Reaches entry tables stretches first last

/-- The machine has stopped, at the end of the code or at an `exit`. -/
structure Halts {I : Interpretation} (entry : CodeEntry) (tables : NameTables)
    (stretches : List Stretch) (config : Config I) : Prop where
  stuck : I.step entry tables stretches config = none
  place : config.index = entry.instructions.size ∨
    ∃ ins, entry.instructions[config.index]? = some ins ∧ ins.opcode = .exit

namespace Reaches

variable {I : Interpretation} {entry : CodeEntry} {tables : NameTables}
  {stretches : List Stretch} {first middle last : Config I}

theorem single (step : I.step entry tables stretches first = some last) :
    Reaches entry tables stretches first last := .head step (.refl last)

theorem trans (one : Reaches entry tables stretches first middle)
    (other : Reaches entry tables stretches middle last) :
    Reaches entry tables stretches first last := by
  induction one with
  | refl config => exact other
  | head step _ induction => exact .head step (induction other)

end Reaches

end GameScript.Execution
