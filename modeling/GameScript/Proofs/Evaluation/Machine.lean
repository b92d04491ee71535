import GameScript.Proofs.Emission.BinaryForm
import GameScript.Proofs.Evaluation.Formula
import Mathlib.Logic.Relation

/-! A machine that runs the code of formulas.

Instructions are found by their addresses, and branches lead to addresses.  Cells are run
in the same way, by their indices; where cells have been placed, their instructions do what
they do. -/

namespace GameScript.Evaluation

open Bytecode Emission

structure Effect (m : Meaning) where
  stack : List m.Value
  reads : List (String × Instance) := []
  jumps : Bool := false

structure Config (m : Meaning) (Place : Type) where
  place : Place
  stack : List m.Value
  reads : List (String × Instance)

abbrev NamedCode := List (Instruction × Option Symbol)

namespace Meaning

variable (m : Meaning)

def pushed (ins : Instruction) : Option Symbol → Option (Outcome m.Value)
  | none => ins.immediate.map fun value => ⟨m.constant value, []⟩
  | some (.string text) => some ⟨m.text text, []⟩
  | some (.function name) => some ⟨m.function name, []⟩
  | some (.var name _ .normal) => some ⟨m.read name ins.owner, [(name, ins.owner)]⟩
  | some (.var _ _ _) => none

def effect (ins : Instruction) (symbol : Option Symbol) (stack : List m.Value) :
    Option (Effect m) :=
  match ins.opcode, stack with
  | .convert, x :: rest => some { stack := m.convert ins.type1 ins.type2 x :: rest }
  | .neg, x :: rest | .not, x :: rest =>
    some { stack := m.unary ins.opcode ins.type1 x :: rest }
  | .compare, y :: x :: rest =>
    ins.comparison.map fun kind =>
      { stack := m.compare kind ins.type1 ins.type2 x y :: rest }
  | .branch, stack => some { stack, jumps := true }
  | .branchTrue, x :: rest => some { stack := rest, jumps := m.truth x }
  | .branchFalse, x :: rest => some { stack := rest, jumps := !m.truth x }
  | .push, stack | .pushLocal, stack | .pushGlobal, stack | .pushBuiltin, stack
  | .pushImmediate, stack =>
    (m.pushed ins symbol).map fun pushed =>
      { stack := pushed.value :: stack, reads := pushed.reads }
  | opcode, y :: x :: rest =>
    if opcode.isBinaryOperator then
      some { stack := m.binary opcode ins.type1 ins.type2 x y :: rest }
    else none
  | _, _ => none

/-- One step of the machine, which stops where there is no instruction. -/
def step (code : NamedCode) (config : Config m Int) : Option (Config m Int) := do
  let (ins, symbol) ← code.find? (·.1.address == config.place)
  let effect ← m.effect ins symbol config.stack
  return { place := if effect.jumps then ins.target else config.place + ins.length
           stack := effect.stack, reads := config.reads ++ effect.reads }

def Runs (code : NamedCode) : Config m Int → Config m Int → Prop :=
  Relation.ReflTransGen fun config next => m.step code config = some next

end Meaning

def next? (cell : Cell) (index : Nat) (jumps : Bool) : Option Nat :=
  match cell.link, jumps with
  | .branch distance, true => some ((index : Int) + distance).toNat
  | .branch _, false | .none, false => some (index + 1)
  | _, _ => none

namespace Meaning

variable (m : Meaning)

def cellStep (piece : Piece) (config : Config m Nat) : Option (Config m Nat) := do
  let cell ← piece[config.place]?
  let effect ← m.effect cell.ins cell.symbol config.stack
  let place ← next? cell config.place effect.jumps
  return { place, stack := effect.stack, reads := config.reads ++ effect.reads }

theorem cellStep_eq {m : Meaning} {piece : Piece} (config : Config m Nat) {cell : Cell}
    {effect : Effect m} {place : Nat} (found : piece[config.place]? = some cell)
    (isEffect : m.effect cell.ins cell.symbol config.stack = some effect)
    (next : next? cell config.place effect.jumps = some place) :
    m.cellStep piece config =
      some ⟨place, effect.stack, config.reads ++ effect.reads⟩ := by
  simp [cellStep, found, isEffect, next]

def CellRuns (piece : Piece) : Config m Nat → Config m Nat → Prop :=
  Relation.ReflTransGen fun config next => m.cellStep piece config = some next

end Meaning

theorem wordDistance_add (base source target : Nat) :
    wordDistance (base + source) (base + target) = wordDistance source target := by
  have same :
      ((base + target : Nat) : Int) - (base + source : Nat) = (target : Int) - source := by
    omega
  unfold wordDistance
  rw [same]

/-- The instructions of a piece that starts at an address, with their names. -/
def placed (piece : Piece) (base : Nat) : NamedCode :=
  (piece.realize noAims base).zip (piece.map (·.symbol))

section Placed

variable {piece : Piece} {base index : Nat} {cell : Cell}

theorem address_place (address : Nat → Nat) (index : Nat) (cell : Cell) :
    (cell.place address noAims index).address = address index := by
  obtain ⟨_, _, placed, -⟩ := cell.place_fields address noAims index
  rw [placed]

theorem getElem?_placed (base : Nat) (found : piece[index]? = some cell) :
    (placed piece base)[index]? = some
      (cell.place (fun position => base + piece.offset position) noAims index,
        cell.symbol) := by
  rw [placed, List.getElem?_zip_eq_some]
  rw [Piece.getElem?_realize, List.getElem?_map, found]
  exact ⟨rfl, rfl⟩

theorem find?_placed (found : piece[index]? = some cell) :
    (placed piece base).find? (·.1.address == ((base + piece.offset index : Nat) : Int)) =
      some (cell.place (fun position => base + piece.offset position) noAims index,
        cell.symbol) := by
  have inside := (List.getElem?_eq_some_iff.mp found).1
  have here := getElem?_placed base found
  cases search : (placed piece base).find?
      (·.1.address == ((base + piece.offset index : Nat) : Int)) with
  | none =>
    have differs := List.find?_eq_none.mp search _ (List.mem_of_getElem? here)
    rw [address_place] at differs
    simp at differs
  | some other =>
    -- addresses differ from cell to cell
    obtain ⟨position, there⟩ := List.getElem?_of_mem (List.mem_of_find?_eq_some search)
    have bound : position < piece.length := by
      have bound := (List.getElem?_eq_some_iff.mp there).1
      simpa [placed] using bound
    rw [getElem?_placed base (List.getElem?_eq_getElem bound)] at there
    obtain rfl := Option.some.inj there
    have same : (_ : Bool) = true := List.find?_some search
    have same := eq_of_beq same
    rw [address_place] at same
    obtain rfl := Piece.offset_inj (Nat.le_of_lt bound) (Nat.le_of_lt inside) (by omega)
    obtain ⟨_, rfl⟩ := List.getElem?_eq_some_iff.mp found
    rfl

theorem target_placed (short : piece.size < 2 ^ 32) (index : Nat) {distance : Int}
    (link : cell.link = .branch distance) :
    (cell.place (fun position => base + piece.offset position) noAims index).target =
      ((base + piece.offset ((index : Int) + distance).toNat : Nat) : Int) := by
  have bounded (position : Nat) : piece.offset position < 2 ^ 32 :=
    Nat.lt_of_le_of_lt (piece.offset_le_size position) short
  have words := wordDistance_mul_four (Piece.four_dvd_size (piece.take index))
    (Piece.four_dvd_size (piece.take ((index : Int) + distance).toNat)) (bounded index)
    (bounded ((index : Int) + distance).toNat)
  simp only [Cell.place, link, Instruction.aim, Instruction.target, wordDistance_add,
    Piece.offset] at words ⊢
  omega

end Placed

namespace Meaning

variable {m : Meaning} {piece : Piece}

def atAddress (piece : Piece) (base : Nat) (config : Config m Nat) : Config m Int :=
  ⟨((base + piece.offset config.place : Nat) : Int), config.stack, config.reads⟩

/-- What an instruction does depends neither on its address nor on where it leads. -/
theorem effect_place {cell : Cell} {index place : Nat} {jumps : Bool}
    (next : next? cell index jumps = some place) (address : Nat → Nat)
    (symbol : Option Symbol) (stack : List m.Value) :
    m.effect (cell.place address noAims index) symbol stack =
      m.effect cell.ins symbol stack := by
  unfold next? at next
  cases link : cell.link with
  | none =>
    rw [Cell.place, link]
    rfl
  | branch distance =>
    rw [Cell.place, link]
    rfl
  | held distance => simp [link] at next
  | leave way => simp [link] at next
  | await way => simp [link] at next

theorem step_placed {base : Nat} (short : piece.size < 2 ^ 32) {config next : Config m Nat}
    (step : m.cellStep piece config = some next) :
    m.step (placed piece base) (atAddress piece base config) =
      some (atAddress piece base next) := by
  obtain ⟨cell, found, step⟩ := Option.bind_eq_some_iff.mp step
  obtain ⟨effect, isEffect, step⟩ := Option.bind_eq_some_iff.mp step
  obtain ⟨place, isNext, same⟩ := Option.bind_eq_some_iff.mp step
  obtain rfl := Option.some.inj same
  have length : (cell.place (fun position => base + piece.offset position) noAims
      config.place).length = cell.ins.length := by
    obtain ⟨_, _, placed, -⟩ :=
      cell.place_fields (fun position => base + piece.offset position) noAims config.place
    rw [placed]
    rfl
  have after := Piece.offset_succ found
  simp only [Meaning.step, atAddress, find?_placed found, Option.bind_eq_bind,
    Option.bind_some, effect_place isNext, isEffect, Option.pure_def, Option.some.injEq,
    Config.mk.injEq, and_true]
  unfold next? at isNext
  split at isNext
  case h_1 distance link jumps =>
    obtain rfl := Option.some.inj isNext
    rw [jumps, if_pos rfl, target_placed short _ link]
  case h_2 link stays =>
    obtain rfl := Option.some.inj isNext
    rw [stays, if_neg Bool.false_ne_true, length, after]
    omega
  case h_3 link stays =>
    obtain rfl := Option.some.inj isNext
    rw [stays, if_neg Bool.false_ne_true, length, after]
    omega
  case h_4 => cases isNext

theorem Runs.ofCells {base : Nat} (short : piece.size < 2 ^ 32)
    {config last : Config m Nat} (runs : m.CellRuns piece config last) :
    m.Runs (placed piece base) (atAddress piece base config) (atAddress piece base last) :=
  Relation.ReflTransGen.lift (atAddress piece base) (fun _ _ => step_placed short) _ _ runs

theorem step_end (piece : Piece) (base : Nat) (stack : List m.Value)
    (reads : List (String × Instance)) :
    m.step (placed piece base) ⟨((base + piece.size : Nat) : Int), stack, reads⟩ =
      none := by
  have missing :
    (placed piece base).find? (·.1.address == ((base + piece.size : Nat) : Int)) =
      none := by
    rw [List.find?_eq_none]
    intro entry member same
    obtain ⟨index, found⟩ := List.getElem?_of_mem member
    have inside : index < piece.length := by
      have bound := (List.getElem?_eq_some_iff.mp found).1
      simpa [placed] using bound
    rw [getElem?_placed base (List.getElem?_eq_getElem inside)] at found
    obtain rfl := Option.some.inj found
    have same := eq_of_beq same
    rw [address_place] at same
    have before := Piece.offset_lt_offset inside (Nat.le_refl _)
    rw [Piece.offset_length] at before
    omega
  rw [Meaning.step, missing]
  rfl

end Meaning

end GameScript.Evaluation
