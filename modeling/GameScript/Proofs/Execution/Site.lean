import GameScript.Proofs.Execution.Machine

/-! Code at its place in an entry, and what its instructions do there. -/

namespace GameScript.Execution

open Bytecode Emission

structure Site (I : Interpretation) where
  whole : Piece
  pending : PendingEntry
  isCode : whole.IsCodeOf pending
  short : pending.length < 2 ^ 32
  tables : NameTables
  stretches : List Stretch

namespace Site

variable {I : Interpretation} (site : Site I)

def entry : CodeEntry := (site.pending.resolve site.tables).1

def names : NameTables := (site.pending.resolve site.tables).2

abbrev Runs : Config I → Config I → Prop := Reaches site.entry site.names site.stretches

/-- A cell that is run on its own. -/
structure Has (index : Nat) (cell : Cell) : Prop where
  found : site.whole[index]? = some cell
  apart : ∀ stretch ∈ site.stretches, stretch.start ≠ index

end Site

namespace Site.Has

variable {I : Interpretation} {site : Site I} {index : Nat} {cell : Cell}
  {stack : List (Datum I.Value)} {state : I.State} {x y : Datum I.Value} {type : DataType}

theorem instruction (has : site.Has index cell) :
    ∃ ins, site.entry.instructions[index]? = some ins ∧
      Refers site.names (cell.place site.whole.offset noAims index) cell.symbol ins :=
  (site.isCode.resolved site.tables).2 index cell has.found

theorem step_eq (has : site.Has index cell) {ins : Instruction}
    (found : site.entry.instructions[index]? = some ins) :
    I.step site.entry site.names site.stretches ⟨index, stack, state⟩ =
      I.execute site.entry site.names ⟨index, stack, state⟩ ins := by
  have unstretched : site.stretches.find? (·.start == index) = none := by
    rw [List.find?_eq_none]
    intro stretch member
    simpa using has.apart stretch member
  simp [Interpretation.step, unstretched, found]

theorem runs (has : site.Has index cell) (unnamed : cell.symbol = none) {next : Config I}
    (executes : I.execute site.entry site.names ⟨index, stack, state⟩
      (cell.place site.whole.offset noAims index) = some next) :
    site.Runs ⟨index, stack, state⟩ next := by
  obtain ⟨ins, found, refers⟩ := has.instruction
  rw [unnamed] at refers
  obtain rfl : ins = _ := refers
  apply Reaches.single
  rw [has.step_eq found]
  exact executes

theorem discard (has : site.Has index (Cell.single .discard type)) :
    site.Runs ⟨index, x :: stack, state⟩ ⟨index + 1, stack, state⟩ :=
  has.runs rfl rfl

theorem duplicate (has : site.Has index (Cell.duplicate type 0)) :
    site.Runs ⟨index, x :: stack, state⟩ ⟨index + 1, x :: x :: stack, state⟩ :=
  has.runs rfl rfl

theorem toBoolean (has : site.Has index (Cell.op .convert type .boolean)) :
    site.Runs ⟨index, x :: stack, state⟩
      ⟨index + 1, .boolean (I.truth x) :: stack, state⟩ :=
  has.runs rfl rfl

theorem toInt32 (has : site.Has index (Cell.op .convert type .int32)) :
    site.Runs ⟨index, x :: stack, state⟩
      ⟨index + 1, .int32 (I.toInt32 x) :: stack, state⟩ :=
  has.runs rfl rfl

theorem compareEqual {other : DataType}
    (has : site.Has index (Cell.compare .equal type other)) :
    site.Runs ⟨index, y :: x :: stack, state⟩
      ⟨index + 1, .boolean (I.equal x y) :: stack, state⟩ :=
  has.runs rfl rfl

theorem compareLess {other : DataType}
    (has : site.Has index (Cell.compare .lessEqual type other)) :
    site.Runs ⟨index, y :: x :: stack, state⟩
      ⟨index + 1, .boolean (decide (I.toInt32 x ≤ I.toInt32 y)) :: stack, state⟩ :=
  has.runs rfl rfl

theorem subtract (has : site.Has index (Cell.op .sub .int32 .int32)) :
    site.Runs ⟨index, y :: x :: stack, state⟩
      ⟨index + 1, .int32 (I.toInt32 x - I.toInt32 y) :: stack, state⟩ :=
  has.runs rfl rfl

theorem pushImmediate {value : Int16} (has : site.Has index (Cell.pushImmediate value)) :
    site.Runs ⟨index, stack, state⟩ ⟨index + 1, .int32 value.toInt32 :: stack, state⟩ :=
  has.runs rfl rfl

theorem pushInt32 {value : Int32} (has : site.Has index (Cell.pushInt32 value)) :
    site.Runs ⟨index, stack, state⟩ ⟨index + 1, .int32 value :: stack, state⟩ :=
  has.runs rfl rfl

theorem store {resolved : String × Instance}
    (has : site.Has index (storeCell type resolved)) :
    site.Runs ⟨index, x :: stack, state⟩
      ⟨index + 1, stack, I.store resolved.1 x state⟩ := by
  obtain ⟨ins, found, refers⟩ := has.instruction
  obtain ⟨id, known, rfl⟩ := refers
  apply Reaches.single
  rw [has.step_eq found]
  have named : site.names.vars.get? id = some ⟨resolved.1, resolved.2.scope⟩ :=
    Roster.get?_of_idOf? known
  simp [Interpretation.execute, refer, Cell.place, storeCell, Cell.popVariable,
    VariableUse.plain, VariableUse.symbol, Interpretation.storedName?, named]

theorem targetIndex (has : site.Has index cell) {distance : Int}
    (link : cell.link = .branch distance) :
    targetIndex? site.entry (cell.place site.whole.offset noAims index) =
      some ((index : Int) + distance).toNat := by
  have inside := site.isCode.contained index cell has.found distance (Or.inl link)
  have target := site.isCode.target_place site.short index link
  have length : site.entry.length = site.whole.offset site.whole.length := by
    rw [Piece.offset_length]
    exact site.isCode.length
  have size : site.entry.instructions.size = site.whole.length :=
    (site.isCode.resolved site.tables).1
  unfold targetIndex?
  rw [target, length, size]
  by_cases last : ((index : Int) + distance).toNat = site.whole.length
  · rw [last, if_pos rfl]
  · have before : ((index : Int) + distance).toNat < site.whole.length := by omega
    have less := Piece.offset_lt_offset before (Nat.le_refl _)
    rw [if_neg (by omega)]
    obtain ⟨ins, found, refers⟩ :=
      (site.isCode.resolved site.tables).2 _ _ (List.getElem?_eq_getElem before)
    refine (CodeEntry.indexOfInt?_eq_some_iff (site.isCode.increases site.tables)).mpr
      ⟨ins, found, ?_⟩
    rw [refers.address]

variable {target : Nat}

theorem landing {opcode : Opcode}
    (has : site.Has index (Cell.branch opcode ((target : Int) - index))) :
    targetIndex? site.entry ((Cell.branch opcode ((target : Int) - index)).place
      site.whole.offset noAims index) = some target := by
  rw [has.targetIndex rfl]
  congr 1
  omega

theorem jump (has : site.Has index (Cell.branch .branch ((target : Int) - index))) :
    site.Runs ⟨index, stack, state⟩ ⟨target, stack, state⟩ := by
  apply has.runs rfl
  have leads := has.landing
  simp only [Interpretation.execute, Cell.place, Cell.branch, Instruction.aim] at leads ⊢
  rw [leads]
  rfl

theorem branchTrue
    (has : site.Has index (Cell.branch .branchTrue ((target : Int) - index))) :
    site.Runs ⟨index, x :: stack, state⟩
      ⟨if I.truth x then target else index + 1, stack, state⟩ := by
  apply has.runs rfl
  have leads := has.landing
  simp only [Interpretation.execute, Cell.place, Cell.branch, Instruction.aim] at leads ⊢
  rw [leads]
  split <;> rfl

theorem branchFalse
    (has : site.Has index (Cell.branch .branchFalse ((target : Int) - index))) :
    site.Runs ⟨index, x :: stack, state⟩
      ⟨if I.truth x then index + 1 else target, stack, state⟩ := by
  apply has.runs rfl
  have leads := has.landing
  simp only [Interpretation.execute, Cell.place, Cell.branch, Instruction.aim] at leads ⊢
  rw [leads]
  split <;> rfl

end Site.Has

end GameScript.Execution
