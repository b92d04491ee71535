import GameScript.Proofs.Emission.Balance
import GameScript.Proofs.Emission.Program
import GameScript.Proofs.Stack.Levels

/-! The stack of values in finished entries. -/

namespace GameScript.Bytecode

open Builtin

theorem MarkerStack.apply_congr {ins other : Instruction}
    (opcode : ins.opcode = other.opcode) (type1 : ins.type1 = other.type1)
    (swap : ins.swap = other.swap) (extra : ins.extra = other.extra)
    (access : ins.access? = other.access?)
    (marker : ins.isStackTopMarker = other.isStackTopMarker)
    (count : ins.argumentCount = other.argumentCount)
    (extension : ins.extension? = other.extension?) (stack : MarkerStack) :
    MarkerStack.apply ins stack = MarkerStack.apply other stack := by
  have isSwap :
      ins.isSwap = other.isSwap := by simp only [Instruction.isSwap, opcode, type1]
  simp only [MarkerStack.apply, opcode, type1, swap, extra, access, marker, count,
    extension, isSwap]

namespace CodeEntry

/-- Control may pass from an instruction to another one, or to the end of the code. -/
def PassesTo (entry : CodeEntry) (index : Nat) (ins : Instruction) (next : Nat) : Prop :=
  next ∈ entry.successors index ∨
    next = entry.instructions.size ∧
      (ins.isTerminator = false ∧ index + 1 = entry.instructions.size ∨
        ins.mayJump = true ∧ ins.target = entry.length)

/-- A `try` statement starts at one instruction and its `catch` block at another one:
the hook is told the address of the block. -/
structure Catches (entry : CodeEntry) (tables : NameTables) (start handler : Nat) :
    Prop where
  hook : ∃ ins, entry.instructions[start + 4]? = some ins ∧
    ins.calls tables Internal.tryHook = true
  address : ∃ ins, entry.instructions[start + 2]? = some ins ∧ ins.immediate =
    some (.int32 (Int32.ofInt (Number.nearestSignedWord 32 (entry.addressAt handler))))

/-- The stack before each instruction and at the end of the code is as told. -/
structure Disciplined (entry : CodeEntry) (markers : Nat → MarkerStack) : Prop where
  start : markers 0 = []
  bodies : ∀ child ∈ entry.children, ∃ index,
    entry.indexOf? child.offset = some index ∧ markers index = []
  finish : markers entry.instructions.size = []
  passes : ∀ index ins next, entry.instructions[index]? = some ins →
    entry.PassesTo index ins next → markers next = MarkerStack.apply ins (markers index)
  /-- Nothing is taken from below what is known of the stack. -/
  frame : ∀ index ins below, entry.instructions[index]? = some ins →
    MarkerStack.apply ins (markers index ++ below) =
      MarkerStack.apply ins (markers index) ++ below
  exits : ∀ index ins, entry.instructions[index]? = some ins → ins.opcode = .exit →
    (markers index).length = 0
  returns : ∀ index ins, entry.instructions[index]? = some ins → ins.opcode = .ret →
    (markers index).length = 1

end CodeEntry

end GameScript.Bytecode

namespace GameScript.Emission

open Builtin Bytecode Syntax

/-- What stays of a cell when it is placed and its name gets a number. -/
structure Cell.Yields (cell : Cell) (address : Nat) (ins : Instruction) : Prop where
  address : ins.address = address
  opcode : ins.opcode = cell.ins.opcode
  terminator : ins.isTerminator = cell.ins.isTerminator
  mayJump : ins.mayJump = cell.ins.mayJump
  effect : ∀ stack, MarkerStack.apply ins stack = MarkerStack.apply cell.resolved stack

variable {ins : Instruction}

/-- An immediate that is an address belongs to a plain push, where it does not matter. -/
private theorem apply_immediate {immediate : Option Immediate}
    (same : immediate = ins.immediate ∨ ins.opcode = .push) (address : Nat) (jump : Int)
    (reference : Option Reference) (stack : MarkerStack) :
    MarkerStack.apply { ins with address, jump, immediate, reference } stack =
      MarkerStack.apply { ins with reference } stack := by
  rcases same with rfl | isPush
  · apply MarkerStack.apply_congr <;> rfl
  · apply MarkerStack.apply_congr
    case marker =>
      simp only [Instruction.isStackTopMarker, isPush]
      rfl
    case count => simp [Instruction.argumentCount, isPush]
    case extension => simp [Instruction.extension?, isPush]
    all_goals rfl

private theorem apply_string (ins : Instruction) (first second address : Nat) (jump : Int)
    (stack : MarkerStack) :
    MarkerStack.apply { ins with address, jump, immediate := some (.string first) } stack =
      MarkerStack.apply { ins with immediate := some (.string second) } stack := by
  apply MarkerStack.apply_congr
  case count => cases ins.opcode <;> simp [Instruction.argumentCount]
  case extension => cases ins.opcode <;> simp [Instruction.extension?]
  all_goals rfl

private theorem apply_reference {first second : Reference}
    (sameAccess : Instruction.access? { ins with reference := some first } =
      Instruction.access? { ins with reference := some second }) (stack : MarkerStack) :
    MarkerStack.apply { ins with reference := some first } stack =
      MarkerStack.apply { ins with reference := some second } stack := by
  apply MarkerStack.apply_congr
  case access => exact sameAccess
  all_goals rfl

theorem Refers.yields {tables : NameTables} {address : Nat → Nat} {aims : Aims}
    {index : Nat} {cell : Cell}
    (refers : Refers tables (cell.place address aims index) cell.symbol ins)
    (holds : cell.link.holds = true → cell.ins.opcode = .push) :
    cell.Yields (address index) ins := by
  obtain ⟨jump, immediate, placed, same⟩ := cell.place_fields address aims index
  have keeps : immediate = cell.ins.immediate ∨ cell.ins.opcode = .push := by
    cases holding : cell.link.holds with
    | true => exact Or.inr (holds holding)
    | false => exact Or.inl (same holding)
  rw [placed] at refers
  cases symbol : cell.symbol with
  | none =>
    rw [symbol] at refers
    obtain rfl : ins = _ := refers
    refine ⟨rfl, rfl, rfl, rfl, fun stack => ?_⟩
    rw [Cell.resolved, symbol]
    exact apply_immediate keeps (address index) jump cell.ins.reference stack
  | some name =>
    rw [symbol] at refers
    obtain ⟨id, -, rfl⟩ := refers
    cases name with
    | string text =>
      refine ⟨rfl, rfl, rfl, rfl, fun stack => ?_⟩
      rw [Cell.resolved, symbol]
      exact apply_string cell.ins id 0 (address index) jump stack
    | var name scope access =>
      refine ⟨rfl, rfl, rfl, rfl, fun stack => ?_⟩
      rw [Cell.resolved, symbol]
      exact (apply_immediate keeps (address index) jump
        (some (.var id access)) stack).trans (apply_reference rfl stack)
    | function name =>
      refine ⟨rfl, rfl, rfl, rfl, fun stack => ?_⟩
      rw [Cell.resolved, symbol]
      exact (apply_immediate keeps (address index) jump (some (.function id)) stack).trans
        (apply_reference rfl stack)

section

variable {piece : Piece} {pending : PendingEntry} {ways : Ways}
  {markers : List MarkerStack} {handlers : List (Nat × Nat)} (tables : NameTables)

variable {ins : Instruction}

private theorem instruction_leveled (isCode : piece.IsCodeOf pending)
    (levels : Levels ways [] piece [] markers handlers) {index : Nat}
    (found : (pending.resolve tables).1.instructions[index]? = some ins) :
    ∃ cell stack, piece[index]? = some cell ∧
      stackAt markers [] index = some stack ∧
      cell.Keeps ways (stackAt markers []) index stack ∧
      Refers (pending.resolve tables).2 (cell.place piece.offset noAims index)
        cell.symbol ins ∧
      cell.Yields (piece.offset index) ins := by
  obtain ⟨cell, foundCell, refers⟩ := isCode.instruction_cell tables found
  have bound : index < markers.length := by
    rw [levels.size]
    exact (List.getElem?_eq_some_iff.mp foundCell).1
  have foundStack : markers[index]? = some markers[index] := List.getElem?_eq_getElem bound
  have keeps := levels.keeps index cell _ foundCell foundStack
  exact ⟨cell, _, foundCell, stackAt_of_get foundStack, keeps, refers,
    refers.yields keeps.holds⟩

private theorem jump_target (isCode : piece.IsCodeOf pending)
    (short : pending.length < 2 ^ 32) {index : Nat} {cell : Cell} {stack : MarkerStack}
    (keeps : cell.Keeps ways (stackAt markers []) index stack)
    (found : piece[index]? = some cell)
    (refers : Refers (pending.resolve tables).2 (cell.place piece.offset noAims index)
      cell.symbol ins)
    (jumps : cell.ins.mayJump = true) :
    ∃ target, target ≤ piece.length ∧ ins.target = piece.offset target ∧
      stackAt markers [] target = some (MarkerStack.apply cell.resolved stack) := by
  rcases keeps.linked jumps with ⟨distance, link⟩ | ⟨way, link⟩
  · have inside := isCode.contained index cell found distance (Or.inl link)
    have sameTarget : ins.target = (cell.place piece.offset noAims index).target := by
      cases symbol : cell.symbol with
      | none =>
        rw [symbol] at refers
        exact congrArg Instruction.target refers
      | some name =>
        rw [symbol] at refers
        obtain ⟨id, -, rfl⟩ := refers
        cases name <;> rfl
    refine ⟨_, by omega, ?_, (keeps.jump jumps distance link).2⟩
    rw [sameTarget, isCode.target_place short index link]
  · exact absurd (Or.inl link) (isCode.closed.not_takes (List.mem_of_getElem? found))

/-- The stack that an instruction leaves is the one that control meets next. -/
private theorem stackAt_passes (isCode : piece.IsCodeOf pending)
    (short : pending.length < 2 ^ 32) (levels : Levels ways [] piece [] markers handlers)
    {index next : Nat} {cell : Cell} {stack : MarkerStack}
    (found : (pending.resolve tables).1.instructions[index]? = some ins)
    (foundCell : piece[index]? = some cell)
    (keeps : cell.Keeps ways (stackAt markers []) index stack)
    (refers : Refers (pending.resolve tables).2 (cell.place piece.offset noAims index)
      cell.symbol ins)
    (yields : cell.Yields (piece.offset index) ins)
    (passes : (pending.resolve tables).1.PassesTo index ins next) :
    stackAt markers [] next = some (MarkerStack.apply cell.resolved stack) := by
  have size := (isCode.resolved tables).1
  have increases := isCode.increases tables
  rw [CodeEntry.PassesTo, CodeEntry.mem_successors found, yields.terminator,
    yields.mayJump] at passes
  rcases passes with (⟨continues, rfl, -⟩ | ⟨jumps, leads⟩) | ⟨atEnd,
    ⟨continues, last⟩ | ⟨jumps, leads⟩⟩
  · exact keeps.next continues
  · obtain ⟨target, bound, isTarget, there⟩ :=
      jump_target tables isCode short keeps foundCell refers jumps
    obtain ⟨other, foundOther, address⟩ :=
      (CodeEntry.indexOfInt?_eq_some_iff increases).mp leads
    obtain ⟨_, _, inside, _, _, _, yieldsOther⟩ :=
      instruction_leveled tables isCode levels foundOther
    rw [yieldsOther.address, isTarget] at address
    have same : next = target :=
      Piece.offset_inj (Nat.le_of_lt (List.getElem?_eq_some_iff.mp inside).1)
        bound (by omega)
    rw [same, there]
  · rw [atEnd, ← last]
    exact keeps.next continues
  · obtain ⟨target, bound, isTarget, there⟩ :=
      jump_target tables isCode short keeps foundCell refers jumps
    have length : (pending.resolve tables).1.length = piece.offset piece.length := by
      rw [Piece.offset_length]
      exact isCode.length
    rw [isTarget, length] at leads
    have isEnd : target = piece.length := Piece.offset_inj bound (Nat.le_refl _) (by omega)
    rw [atEnd, size, ← isEnd, there]

theorem Levels.disciplined (levels : Levels ways [] piece [] markers handlers)
    (isCode : piece.IsCodeOf pending) (short : pending.length < 2 ^ 32) :
    (pending.resolve tables).1.Disciplined fun index =>
    (stackAt markers [] index).getD [] := by
  have size := (isCode.resolved tables).1
  have increases := isCode.increases tables
  refine ⟨?_, ?_, ?_, ?_, ?_, ?_, ?_⟩
  · rw [levels.start]
    rfl
  · intro child member
    obtain ⟨index, cell, found, opens, offset⟩ := isCode.children child member
    obtain ⟨ins, there, -⟩ := (isCode.resolved tables).2 index cell found
    obtain ⟨other, stack, foundOther, atIndex, keeps, -, yields⟩ :=
      instruction_leveled tables isCode levels there
    obtain rfl : cell = other := Option.some.inj (found.symm.trans foundOther)
    refine ⟨index, (CodeEntry.indexOf?_eq_some_iff increases).mpr ⟨ins, there, ?_⟩, ?_⟩
    · rw [yields.address, offset]
    · rw [atIndex, Option.getD_some, keeps.opens opens]
  · rw [size, ← levels.size, stackAt_length]
    rfl
  · intro index ins next found passes
    obtain ⟨cell, stack, foundCell, atIndex, keeps, refers, yields⟩ :=
      instruction_leveled tables isCode levels found
    rw [atIndex, Option.getD_some, yields.effect stack,
      stackAt_passes tables isCode short levels found
      foundCell keeps refers yields passes, Option.getD_some]
  · intro index ins below found
    obtain ⟨cell, stack, -, atIndex, keeps, -, yields⟩ :=
      instruction_leveled tables isCode levels found
    rw [atIndex, Option.getD_some, yields.effect, yields.effect]
    exact keeps.frame below
  · intro index ins found isExit
    obtain ⟨cell, stack, -, atIndex, keeps, -, yields⟩ :=
      instruction_leveled tables isCode levels found
    rw [atIndex, Option.getD_some, keeps.exits (yields.opcode ▸ isExit)]
    rfl
  · intro index ins found isRet
    obtain ⟨cell, stack, -, atIndex, keeps, -, yields⟩ :=
      instruction_leveled tables isCode levels found
    rw [atIndex, Option.getD_some]
    exact keeps.returns (yields.opcode ▸ isRet)

theorem Levels.catches (levels : Levels ways [] piece [] markers handlers)
    (isCode : piece.IsCodeOf pending) {pair : Nat × Nat} (member : pair ∈ handlers) :
    (pending.resolve tables).1.Catches (pending.resolve tables).2 pair.1 pair.2 ∧
      (stackAt markers [] pair.2).getD [] = false :: (stackAt markers [] pair.1).getD
      [] := by
  have handles := levels.handled pair member
  obtain ⟨stack, before, deeper⟩ := handles.deeper
  refine ⟨⟨?_, ?_⟩, by rw [before, deeper]; rfl⟩
  · obtain ⟨cell, found, isCall, symbol⟩ := handles.called
    obtain ⟨ins, there, refers⟩ := (isCode.resolved tables).2 _ cell found
    refine ⟨ins, there, ?_⟩
    rw [symbol] at refers
    obtain ⟨id, known, rfl⟩ := refers
    obtain ⟨jump, immediate, placed, -⟩ :=
      cell.place_fields piece.offset noAims (pair.1 + 4)
    have named := Roster.get?_of_idOf? known
    simp [Instruction.calls, refer, placed, isCall, Instruction.function?, named]
  · obtain ⟨cell, found, unnamed, link⟩ := handles.held
    obtain ⟨ins, there, refers⟩ := (isCode.resolved tables).2 _ cell found
    refine ⟨ins, there, ?_⟩
    rw [unnamed] at refers
    obtain rfl : ins = _ := refers
    have bound : pair.2 ≤ piece.length := by
      have inside := (List.getElem?_eq_some_iff.mp deeper).1
      simp only [List.length_append, levels.size, List.length_singleton] at inside
      omega
    have position :
        ((pair.1 + 2 : Nat) + ((pair.2 : Int) - (pair.1 + 2))).toNat = pair.2 := by omega
    rw [isCode.addressAt tables bound]
    simp only [Cell.place, link, Instruction.hold, position]

end

/-- A program without the marker keeps the discipline of the stack: each of its
`catch` blocks starts one value deeper than the `try` that it belongs to. -/
theorem emitted_entry_disciplined {env : Environment} {program : Program}
    {pending : PendingEntry} (emitted : emitProgram env program = .ok pending)
    (short : pending.length < 2 ^ 32)
    (plain : ∀ mention ∈ mentionsOfBlock program, IsPlain mention) (tables : NameTables) :
    ∃ (markers : Nat → MarkerStack) (handlers : List (Nat × Nat)),
      (pending.resolve tables).1.Disciplined markers ∧
      handlers.length = catches (mentionsOfBlock program) ∧
      (handlers.Pairwise fun one other => one.1 < other.1) ∧
      ∀ pair ∈ handlers,
        (pending.resolve tables).1.Catches (pending.resolve tables).2 pair.1 pair.2 ∧
        markers pair.2 = false :: markers pair.1 := by
  have met :
      Demands.Met ⟨True, False⟩ (mentionsOfBlock program) (calleesOfBlock program) :=
    ⟨fun _ => plain, False.elim⟩
  obtain ⟨piece, rests, isCode⟩ :=
    emitProgram_isCode (emitStmts_rests program [] [] met) emitted
  obtain ⟨markers, handlers, levels, count⟩ := Carries.leveled trivial rests
  exact ⟨fun index => (stackAt markers [] index).getD [], handlers,
    levels.disciplined tables isCode short, count, levels.increasing,
    fun _ => levels.catches tables isCode⟩

/-- `repeat (true) try { exit; } catch (e) {}`. -/
def guardedExit : Program :=
  [.repeatLoop 0 (.literal 0 (.boolean true))
    (.tryBlock 0 ⟨0, [.exit 0]⟩ (some ("e", ⟨0, []⟩)) none)]

theorem guardedExit_disciplined :
    ∃ pending, emitProgram bareEnvironment guardedExit = .ok pending ∧
      ∃ (markers : Nat → MarkerStack) (handlers : List (Nat × Nat)),
        (pending.resolve {}).1.Disciplined markers ∧ handlers.length = 1 ∧
        (handlers.Pairwise fun one other => one.1 < other.1) ∧
        ∀ pair ∈ handlers,
          (pending.resolve {}).1.Catches (pending.resolve {}).2 pair.1 pair.2 ∧
          markers pair.2 = false :: markers pair.1 := by
  have addressable : endsWith isAddressable (emitProgram bareEnvironment guardedExit) =
      true := by
    decide +kernel
  obtain ⟨pending, emitted, test⟩ := exists_of_endsWith addressable
  have short := Nat.lt_trans (of_decide_eq_true test) (by decide : 2 ^ 31 < 2 ^ 32)
  refine ⟨pending, emitted, emitted_entry_disciplined emitted short ?_ {}⟩
  simp [guardedExit, mentionsOfBlock, Stmt.mentions, Expr.mentions, mentionsOfHandler,
    mentionsOfCleanup, IsPlain, Carries.IsNoMarker]

end GameScript.Emission
