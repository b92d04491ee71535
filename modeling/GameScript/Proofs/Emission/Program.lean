import GameScript.Emission.Resolution
import GameScript.Proofs.Bytecode.Addresses
import GameScript.Proofs.Emission.Construct

/-! Whole programs: the piece that is the code of an entry, and its names as numbers. -/

namespace GameScript.Roster

variable {α : Type} [DecidableEq α] {roster other : Roster α} {item : α} {id : Nat}

theorem idOf?_eq_some_iff :
    roster.idOf? item = some id ↔
      ∃ bound : id < roster.items.length, roster.items[id] = item ∧
        ∀ (earlier : Nat) (less : earlier < id), roster.items[earlier] ≠ item := by
  simp [idOf?, List.idxOf?, List.findIdx?_eq_some_iff_getElem]

theorem get?_of_idOf? (known : roster.idOf? item = some id) :
    roster.get? id = some item := by
  obtain ⟨bound, found, -⟩ := idOf?_eq_some_iff.mp known
  exact List.getElem?_eq_some_iff.mpr ⟨bound, found⟩

theorem idOf?_of_prefix (more : roster.items <+: other.items)
    (known : roster.idOf? item = some id) : other.idOf? item = some id := by
  obtain ⟨bound, found, first⟩ := idOf?_eq_some_iff.mp known
  have same (index : Nat) (less : index < roster.items.length) :
      other.items[index]? = some roster.items[index] := by
    obtain ⟨added, items⟩ := more
    rw [← items, List.getElem?_append_left less, List.getElem?_eq_getElem less]
  obtain ⟨later, there⟩ := List.getElem?_eq_some_iff.mp (same id bound)
  refine idOf?_eq_some_iff.mpr ⟨later, there.trans found, fun earlier less => ?_⟩
  obtain ⟨_, before⟩ := List.getElem?_eq_some_iff.mp (same earlier (by omega))
  rw [before]
  exact first earlier less

theorem prefix_intern : roster.items <+: (roster.intern item).1.items := by
  unfold intern
  split
  · exact List.prefix_refl _
  · exact List.prefix_append _ _

theorem idOf?_intern :
    (roster.intern item).1.idOf? item = some (roster.intern item).2 := by
  unfold intern
  split
  case h_1 id known => exact known
  case h_2 unknown =>
    have absent : item ∉ roster.items := by simpa [idOf?] using unknown
    refine idOf?_eq_some_iff.mpr ⟨by simp, by simp, fun earlier less same => ?_⟩
    rw [List.getElem_append_left less] at same
    exact absent (same ▸ List.getElem_mem less)

end GameScript.Roster

namespace GameScript.Bytecode

theorem wordDistance_mul_four {source target : Nat} (sourceWords : 4 ∣ source)
    (targetWords : 4 ∣ target) (sourceBound : source < 2 ^ 32)
    (targetBound : target < 2 ^ 32) :
    wordDistance source target * 4 = (target : Int) - source := by
  obtain ⟨first, rfl⟩ := sourceWords
  obtain ⟨last, rfl⟩ := targetWords
  have words :
      (((4 * last : Nat) : Int) - (4 * first : Nat)).tdiv 4 = (last : Int) - first := by
    have factor :
        ((4 * last : Nat) : Int) - (4 * first : Nat) =
        ((last : Int) - first) * 4 := by omega
    rw [factor, Int.mul_tdiv_cancel _ (by decide)]
  unfold wordDistance Number.nearestSignedWord
  rw [words]
  have count : (Number.wordCount (32 - 1) : Int) = 2 ^ 31 := by decide
  rw [count]
  omega

end GameScript.Bytecode

namespace GameScript.Emission

open Bytecode Syntax

/-- The tables hold the same names under the same numbers, and perhaps more. -/
structure TablesExtend (tables other : NameTables) : Prop where
  strings : tables.strings.items <+: other.strings.items
  functions : tables.functions.items <+: other.functions.items
  vars : tables.vars.items <+: other.vars.items

theorem TablesExtend.refl (tables : NameTables) : TablesExtend tables tables :=
  ⟨List.prefix_refl _, List.prefix_refl _, List.prefix_refl _⟩

theorem TablesExtend.trans {tables other last : NameTables}
    (first : TablesExtend tables other) (second : TablesExtend other last) :
    TablesExtend tables last :=
  ⟨first.strings.trans second.strings, first.functions.trans second.functions,
    first.vars.trans second.vars⟩

def Symbol.number? (tables : NameTables) : Symbol → Option Nat
  | .string text => tables.strings.idOf? text
  | .var name scope _ => tables.vars.idOf? ⟨name, scope.scope⟩
  | .function name => tables.functions.idOf? name

theorem Symbol.number?_extend {tables other : NameTables} {symbol : Symbol} {id : Nat}
    (more : TablesExtend tables other) (known : symbol.number? tables = some id) :
    symbol.number? other = some id := by
  cases symbol with
  | string text => exact Roster.idOf?_of_prefix more.strings known
  | var name scope access => exact Roster.idOf?_of_prefix more.vars known
  | function name => exact Roster.idOf?_of_prefix more.functions known

def refer (symbol : Symbol) (id : Nat) (ins : Instruction) : Instruction :=
  match symbol with
  | .string _ => { ins with immediate := some (.string id) }
  | .var _ _ access => { ins with reference := some (.var id access) }
  | .function _ => { ins with reference := some (.function id) }

/-- The instruction, with the number of its symbol written into it. -/
def Refers (tables : NameTables) (ins : Instruction) : Option Symbol → Instruction → Prop
  | none, resolved => resolved = ins
  | some symbol, resolved =>
    ∃ id, symbol.number? tables = some id ∧ resolved = refer symbol id ins

theorem Refers.extend {tables other : NameTables} {ins resolved : Instruction}
    {symbol : Option Symbol} (more : TablesExtend tables other)
    (refers : Refers tables ins symbol resolved) : Refers other ins symbol resolved := by
  cases symbol with
  | none => exact refers
  | some symbol =>
    obtain ⟨id, known, same⟩ := refers
    exact ⟨id, Symbol.number?_extend more known, same⟩

theorem Cell.place_fields (address : Nat → Nat) (aims : Aims) (index : Nat) (cell : Cell) :
    ∃ jump immediate, cell.place address aims index =
        { cell.ins with address := address index, jump, immediate } ∧
      (cell.link.holds = false → immediate = cell.ins.immediate) := by
  refine ⟨(cell.place address aims index).jump,
    (cell.place address aims index).immediate, ?_, ?_⟩
  · cases link : cell.link with
    | leave way => cases aim : aims way <;> simp [Cell.place, link, aim, Instruction.aim]
    | await way => cases aim : aims way <;> simp [Cell.place, link, aim, Instruction.hold]
    | _ => simp [Cell.place, link, Instruction.aim, Instruction.hold]
  · cases link : cell.link with
    | leave way => cases aim : aims way <;> simp [Cell.place, link, aim, Instruction.aim]
    | held distance => simp [Link.holds]
    | await way => simp [Link.holds]
    | _ => simp [Cell.place, link, Instruction.aim]

theorem Refers.address {tables : NameTables} {address : Nat → Nat} {aims : Aims}
    {index : Nat} {cell : Cell} {symbol : Option Symbol} {ins : Instruction}
    (refers : Refers tables (cell.place address aims index) symbol ins) :
    ins.address = address index := by
  obtain ⟨jump, immediate, placed, -⟩ := cell.place_fields address aims index
  rw [placed] at refers
  cases symbol with
  | none => rw [show ins = _ from refers]
  | some name =>
    obtain ⟨id, -, rfl⟩ := refers
    cases name <;> rfl

theorem resolveSymbol_spec (code : Code) (tables : NameTables) {index : Nat}
    (symbol : Symbol) (bound : index < code.size) :
    ∃ other id, resolveSymbol (code, tables) (index, symbol) =
        (code.modify index (refer symbol id), other) ∧
      TablesExtend tables other ∧ symbol.number? other = some id := by
  unfold resolveSymbol
  simp only [if_pos bound]
  cases symbol with
  | string text =>
    exact ⟨_, _, rfl, ⟨Roster.prefix_intern, List.prefix_refl _, List.prefix_refl _⟩,
      Roster.idOf?_intern⟩
  | var name scope access =>
    exact ⟨_, _, rfl, ⟨List.prefix_refl _, List.prefix_refl _, Roster.prefix_intern⟩,
      Roster.idOf?_intern⟩
  | function name =>
    exact ⟨_, _, rfl, ⟨List.prefix_refl _, Roster.prefix_intern, List.prefix_refl _⟩,
      Roster.idOf?_intern⟩

inductive RefersAll (tables : NameTables) : List Instruction → Piece → List Instruction →
      Prop where
  | nil : RefersAll tables [] [] []
  | cons {ins resolved : Instruction} {cell : Cell}
      {code rest : List Instruction} {piece : Piece}
      (refers : Refers tables ins cell.symbol resolved)
      (others : RefersAll tables code piece rest) :
      RefersAll tables (ins :: code) (cell :: piece) (resolved :: rest)

namespace RefersAll

variable {tables : NameTables} {code resolved : List Instruction} {piece : Piece}

theorem get (refers : RefersAll tables code piece resolved) {index : Nat} {cell : Cell}
    (found : piece[index]? = some cell) :
    ∃ ins result, code[index]? = some ins ∧ resolved[index]? = some result ∧
      Refers tables ins cell.symbol result := by
  induction refers generalizing index with
  | nil => simp at found
  | cons refers _ induction =>
    cases index with
    | zero =>
      simp only [List.getElem?_cons_zero, Option.some.injEq] at found
      subst found
      exact ⟨_, _, rfl, rfl, refers⟩
    | succ index => exact induction found

theorem length (refers : RefersAll tables code piece resolved) :
    resolved.length = piece.length := by
  induction refers with
  | nil => rfl
  | cons _ _ induction => simp [induction]

end RefersAll

private theorem resolve_piece (piece : Piece) (middle : List Instruction)
    (sizes : middle.length = piece.length) :
    ∀ (front : List Instruction) (code : Code) (tables : NameTables),
      code.toList = front ++ middle →
      ∃ resolved other,
      ((piece.symbolsFrom front.length).foldl resolveSymbol (code, tables)).2 = other ∧
        ((piece.symbolsFrom front.length).foldl resolveSymbol (code, tables)).1.toList =
          front ++ resolved ∧
        TablesExtend tables other ∧ RefersAll other middle piece resolved := by
  induction piece generalizing middle with
  | nil =>
    intro front code tables isCode
    obtain rfl : middle = [] := List.length_eq_zero_iff.mp sizes
    exact ⟨[], tables, rfl, isCode, .refl tables, .nil⟩
  | cons cell rest induction =>
    intro front code tables isCode
    match middle, sizes with
    | ins :: middle, sizes =>
      have bound : front.length < code.size := by
        rw [← Array.length_toList, isCode]
        simp
      have restSizes : middle.length = rest.length := by simpa using sizes
      cases symbol : cell.symbol with
      | none =>
        obtain ⟨resolved, other, isOther, isResolved, more, refers⟩ :=
          induction middle restSizes (front ++ [ins]) code tables (by simp [isCode])
        simp only [List.length_append, List.length_singleton] at isOther isResolved
        refine ⟨ins :: resolved, other, ?_, ?_, more, ?_⟩
        · simp [Piece.symbolsFrom, symbol, isOther]
        · simp [Piece.symbolsFrom, symbol, isResolved]
        · exact .cons (by rw [symbol]; rfl) refers
      | some name =>
        obtain ⟨next, id, step, grown, known⟩ := resolveSymbol_spec code tables name bound
        have isNext : (code.modify front.length (refer name id)).toList =
            (front ++ [refer name id ins]) ++ middle := by
          rw [Array.toList_modify, isCode, Piece.modify_append_cons]
          simp
        obtain ⟨resolved, other, isOther, isResolved, more, refers⟩ :=
          induction middle restSizes (front ++ [refer name id ins]) _ next isNext
        simp only [List.length_append, List.length_singleton] at isOther isResolved
        refine ⟨refer name id ins :: resolved, other, ?_, ?_, grown.trans more, ?_⟩
        · simp [Piece.symbolsFrom, symbol, step, isOther]
        · simp [Piece.symbolsFrom, symbol, step, isResolved]
        · refine .cons ?_ refers
          rw [symbol]
          exact ⟨id, Symbol.number?_extend more known, rfl⟩

def noAims : Aims := fun _ => none

structure Piece.IsCodeOf (piece : Piece) (pending : PendingEntry) : Prop where
  code : pending.code.toList = piece.realize noAims 0
  length : pending.length = piece.size
  symbols : pending.symbols.toList = piece.symbolsFrom 0
  children : ∀ child ∈ pending.children.toList, ∃ (index : Nat) (cell : Cell),
    piece[index]? = some cell ∧ cell.opensBody = true ∧ child.offset = piece.offset index
  distinct : (pending.children.toList.map (·.offset)).Nodup
  contained : piece.Contained
  closed : piece.Closed

def bareEnvironment : Environment :=
  { target := .ofGeneration .gms23, registry := ⟨[], [], [], [], [], 0⟩, functions := {},
    name := "demo" }

def programRun (program : Program) : EmitM PendingEntry := do
  predeclare program
  emitStmts program
  finishEntry

theorem emitProgram_eq (env : Environment) (program : Program) :
    emitProgram env program = (((programRun program).run env).run {}).map (·.1) := rfl

variable {env : Environment} {program : Program} {isProgram : Spot → Piece → Prop}

theorem programRun_ensures
    (emits : EmitsStatement env [] [] (emitStmts program) isProgram) :
    Ensures env {} (programRun program) fun pending _ =>
      ∃ piece, isProgram ⟨0, 0⟩ piece ∧ piece.IsCodeOf pending := by
  refine ensures_bind.mpr (ensures_modify.mpr ?_)
  refine (emits _ rfl rfl).bind fun _ t ⟨piece, lays, holds⟩ => ?_
  refine ensures_bind.mpr (ensures_get.mpr (ensures_bind.mpr (ensures_read.mpr ?_)))
  have nowhere : aimsOf [] = noAims := by
    funext way
    cases way <;> rfl
  have growth := lays.growth
  refine ensures_ite (fun _ => ⟨piece, holds, ?_⟩) fun someType => ?_
  · obtain ⟨added, children, starts, distinct⟩ := growth.children
    refine ⟨?_, ?_, ?_, ?_, ?_, growth.contained, Piece.Settled.closed lays.settled⟩
    · simpa [nowhere] using growth.code
    · simpa using growth.length
    · simpa using growth.symbols
    · intro child member
      have isAdded : child ∈ added := by simpa [children] using member
      simpa using starts child isAdded
    · simpa [children] using distinct
  · exact absurd (by rw [lays.types]; rfl) someType

theorem emitProgram_isCode {pending : PendingEntry}
    (emits : EmitsStatement env [] [] (emitStmts program) isProgram)
    (emitted : emitProgram env program = .ok pending) :
    ∃ piece, isProgram ⟨0, 0⟩ piece ∧ piece.IsCodeOf pending := by
  have ensured := programRun_ensures emits
  rw [emitProgram_eq] at emitted
  cases ran : ((programRun program).run env).run {} with
  | ok result =>
    rw [ran] at emitted
    obtain rfl : result.1 = pending := Except.ok.inj emitted
    exact ensured.of_run ran
  | error error =>
    rw [ran] at emitted
    cases emitted

theorem emitProgram_fault {error : EmitError}
    (emits : EmitsStatement env [] [] (emitStmts program) isProgram)
    (refused : emitProgram env program = .error error) : error.fault.IsOfProgram := by
  have ensured := programRun_ensures emits
  rw [emitProgram_eq] at refused
  cases ran : ((programRun program).run env).run {} with
  | ok result =>
    rw [ran] at refused
    cases refused
  | error other =>
    rw [ran] at refused
    obtain rfl : other = error := Except.error.inj refused
    exact ensured.fault_of_run ran

/-- The entry has so few bytes that addresses are 32-bit numbers. -/
def isAddressable (pending : PendingEntry) : Bool := decide (pending.length < 2 ^ 31)

namespace Piece

theorem four_dvd_size (piece : Piece) : 4 ∣ piece.size := by
  induction piece with
  | nil => exact Nat.dvd_zero 4
  | cons cell rest induction =>
    rw [size_cons]
    exact Nat.dvd_add cell.ins.four_dvd_length induction

end Piece

namespace Piece.IsCodeOf

variable {piece : Piece} {pending : PendingEntry}

theorem resolved (isCode : piece.IsCodeOf pending) (tables : NameTables) :
    (pending.resolve tables).1.instructions.size = piece.length ∧
    ∀ (index : Nat) (cell : Cell), piece[index]? = some cell →
      ∃ ins, (pending.resolve tables).1.instructions[index]? = some ins ∧
        Refers (pending.resolve tables).2 (cell.place piece.offset noAims index)
          cell.symbol ins := by
  obtain ⟨resolved, other, isOther, isResolved, -, refers⟩ :=
    resolve_piece piece (piece.realize noAims 0) (by simp) [] pending.code tables
      (by simp [isCode.code])
  have sameCode : (pending.resolve tables).1.instructions.toList = resolved := by
    simpa [PendingEntry.resolve, ← isCode.symbols] using isResolved
  have sameTables : (pending.resolve tables).2 = other := by
    rw [← isOther]
    simp [PendingEntry.resolve, ← isCode.symbols]
  constructor
  · rw [← Array.length_toList, sameCode, refers.length]
  · intro index cell found
    obtain ⟨ins, result, foundIns, foundResult, referring⟩ := refers.get found
    refine ⟨result, by rw [← Array.getElem?_toList, sameCode, foundResult], ?_⟩
    rw [Piece.getElem?_realize, found, Option.map_some, Option.some.injEq] at foundIns
    rw [sameTables]
    simpa [← foundIns] using referring

theorem instruction_cell (isCode : piece.IsCodeOf pending) (tables : NameTables)
    {index : Nat} {ins : Instruction}
    (found : (pending.resolve tables).1.instructions[index]? = some ins) :
    ∃ cell, piece[index]? = some cell ∧
      Refers (pending.resolve tables).2 (cell.place piece.offset noAims index) cell.symbol
        ins := by
  obtain ⟨size, each⟩ := isCode.resolved tables
  have bound : index < piece.length := size ▸ (Array.getElem?_eq_some_iff.mp found).1
  obtain ⟨other, there, refers⟩ := each index _ (List.getElem?_eq_getElem bound)
  obtain rfl : other = ins := Option.some.inj (there.symm.trans found)
  exact ⟨_, List.getElem?_eq_getElem bound, refers⟩

theorem increases (isCode : piece.IsCodeOf pending) (tables : NameTables) :
    (pending.resolve tables).1.Increases := by
  intro first second ins other less found foundOther
  obtain ⟨_, _, refers⟩ := isCode.instruction_cell tables found
  obtain ⟨_, inside, refersOther⟩ := isCode.instruction_cell tables foundOther
  rw [refers.address, refersOther.address]
  exact Piece.offset_lt_offset less (Nat.le_of_lt (List.getElem?_eq_some_iff.mp inside).1)

theorem addressAt (isCode : piece.IsCodeOf pending) (tables : NameTables) {index : Nat}
    (bound : index ≤ piece.length) :
    (pending.resolve tables).1.addressAt index = piece.offset index := by
  unfold CodeEntry.addressAt
  split
  case h_1 ins found =>
    obtain ⟨_, _, refers⟩ := isCode.instruction_cell tables found
    exact refers.address
  case h_2 missing =>
    have last : index = piece.length := by
      rw [Array.getElem?_eq_none_iff, (isCode.resolved tables).1] at missing
      omega
    rw [last, Piece.offset_length]
    exact isCode.length

theorem target_place (isCode : piece.IsCodeOf pending) (short : pending.length < 2 ^ 32)
    (index : Nat) {cell : Cell} {distance : Int} (link : cell.link = .branch distance) :
    (cell.place piece.offset noAims index).target =
      piece.offset ((index : Int) + distance).toNat := by
  have bounded (position : Nat) : piece.offset position < 2 ^ 32 := by
    have least := piece.offset_le_size position
    have whole := isCode.length
    omega
  have words := wordDistance_mul_four (Piece.four_dvd_size (piece.take index))
    (Piece.four_dvd_size (piece.take ((index : Int) + distance).toNat)) (bounded index)
    (bounded ((index : Int) + distance).toNat)
  simp only [Cell.place, link, Instruction.aim, Instruction.target,
    Piece.offset] at words ⊢
  omega

end Piece.IsCodeOf

end GameScript.Emission
