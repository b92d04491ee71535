import GameScript.Listing
import GameScript.Proofs.Bytecode.Encoding
import GameScript.Proofs.Emission.Balance
import GameScript.Proofs.Emission.Program
import GameScript.Proofs.Flow.Links

/-! Every jump of a finished entry leads to one of its instructions, or to its end. -/

namespace GameScript.Bytecode

open Builtin Number

theorem codeLength_eq_sum (code : List Instruction) :
    codeLength code = (code.map (·.length)).sum := by
  induction code with
  | nil => rfl
  | cons ins rest induction =>
    rw [List.map_cons, List.sum_cons, ← induction]
    rfl

theorem assignAddressesFrom_eq_self {code : List Instruction} {start : Nat}
    (contiguous : ∀ index ins, code[index]? = some ins →
      ins.address = start + codeLength (code.take index)) :
        assignAddressesFrom start code = code := by
  induction code generalizing start with
  | nil => rfl
  | cons ins rest induction =>
    have first : ins.address = start := contiguous 0 ins rfl
    have others : assignAddressesFrom (start + ins.length) rest = rest := by
      refine induction fun index other found => ?_
      rw [contiguous (index + 1) other found, Nat.add_assoc]
      rfl
    rw [assignAddressesFrom, others, ← first]

theorem Instruction.immediateInt?_hold (ins : Instruction) {address : Nat}
    (short : address < 2 ^ 31) :
    (ins.hold address).immediateInt? = some (address : Int) := by
  have count : (wordCount (32 - 1) : Int) = 2 ^ 31 := by decide
  have nearest : nearestSignedWord 32 address = address := by
    unfold nearestSignedWord
    rw [count]
    omega
  have back : (Int32.ofInt (address : Int)).toInt = address :=
    Int32.toInt_ofInt_of_le (by omega) (by omega)
  simp [immediateInt?, hold, Immediate.toInt?, nearest, back]

theorem mem_eraseReps {xs : List Nat} {x : Nat} : x ∈ xs.eraseReps ↔ x ∈ xs := by
  have looping : ∀ (xs : List Nat) (last : Nat) (kept : List Nat),
      x ∈ List.eraseRepsBy.loop (· == ·) last xs kept ↔ x ∈ kept ∨ x = last ∨ x ∈ xs := by
    intro xs
    induction xs with
    | nil => simp [List.eraseRepsBy.loop, or_comm]
    | cons next rest induction =>
      intro last kept
      rw [List.eraseRepsBy.loop]
      split
      case h_1 same =>
        obtain rfl : last = next := by simpa using same
        simp [induction]
      case h_2 =>
        simp only [induction, List.mem_cons]
        rw [or_assoc, or_left_comm]
  cases xs with
  | nil => rfl
  | cons first rest => simpa [List.eraseReps, List.eraseRepsBy] using looping rest first []

namespace CodeEntry

variable {entry : CodeEntry} {tables : NameTables}

theorem mem_blockAddresses {address : Nat} :
    address ∈ entry.blockAddresses tables ↔ entry.instructions ≠ #[] ∧
      (address = 0 ∨ ∃ (index : Nat) (ins : Instruction),
        entry.instructions[index]? = some ins ∧
        (address : Int) ∈ entry.blockStartsOf tables index ins ∧ address < 2 ^ 32) := by
  have words : wordCount 32 = 2 ^ 32 := by decide
  have listed : address ∈ ((entry.instructions.toList.zipIdx.flatMap fun item =>
      entry.blockStartsOf tables item.2 item.1).filter (isUnsignedWord 32)).map Int.toNat ↔
      ∃ (index : Nat) (ins : Instruction), entry.instructions[index]? = some ins ∧
        (address : Int) ∈ entry.blockStartsOf tables index ins ∧ address < 2 ^ 32 := by
    simp only [List.mem_map, List.mem_filter, List.mem_flatMap, Prod.exists,
      isUnsignedWord, words, Bool.and_eq_true, decide_eq_true_eq,
      List.mem_zipIdx_iff_getElem?, Array.getElem?_toList]
    constructor
    · rintro ⟨start, ⟨⟨ins, index, found, starts⟩, low, high⟩, rfl⟩
      refine ⟨index, ins, found, ?_, by omega⟩
      rwa [Int.toNat_of_nonneg low]
    · rintro ⟨index, ins, found, starts, bound⟩
      exact ⟨address, ⟨⟨ins, index, found, starts⟩, by omega, by omega⟩, by simp⟩
  unfold blockAddresses
  split
  case isTrue empty => simp [Array.isEmpty_iff.mp empty]
  case isFalse nonempty =>
    have nonempty : entry.instructions ≠ #[] := fun empty => nonempty (by simp [empty])
    rw [mem_eraseReps, List.mem_mergeSort, List.mem_cons, listed]
    simp [nonempty]

theorem mem_blockAddresses_of_target {index address : Nat} {ins : Instruction}
    (found : entry.instructions[index]? = some ins) (jumps : ins.mayJump = true)
    (target : ins.target = address) (short : address < 2 ^ 32) :
    address ∈ entry.blockAddresses tables := by
  refine mem_blockAddresses.mpr ⟨?_, Or.inr ⟨index, ins, found, ?_, short⟩⟩
  · intro empty
    simp [empty] at found
  · rw [← target]
    unfold blockStartsOf
    cases opcode : ins.opcode <;> simp_all [Instruction.mayJump]

def HasAddress (entry : CodeEntry) (address : Int) : Prop :=
  ∃ ins ∈ entry.instructions, (ins.address : Int) = address

def Reaches (entry : CodeEntry) (address : Int) : Prop :=
  entry.HasAddress address ∨ address = entry.length

/-- The hook called at an index is told the address of a `finally` block, and that
of a `catch` block or that there is none. -/
def HookIsTold (entry : CodeEntry) (index : Nat) (finish : Int) (handler : Option Int) :
    Prop :=
  4 ≤ index ∧
    (∃ ins, entry.instructions[index - 4]? = some ins ∧ ins.immediateInt? = some finish) ∧
    ∃ ins, entry.instructions[index - 2]? = some ins ∧
    ins.immediateInt? = some (handler.getD (-1))

/-- Instructions follow each other from the start of the entry to its end, and all
branches lead to them. -/
structure BranchesClosed (entry : CodeEntry) (tables : NameTables) : Prop where
  addresses : assignAddresses entry.instructions.toList = entry.instructions.toList
  length : (Codec.encode entry.instructions.toList).length = entry.length
  targets : ∀ ins ∈ entry.instructions, ins.mayJump = true → entry.Reaches ins.target
  /-- A branch that has not been landed yet leads to itself. -/
  landed : ∀ ins ∈ entry.instructions,
    ins.opcode ∈ [.branch, .branchTrue, .branchFalse, .enterWith] → ins.jump ≠ 0
  listed : ∀ ins ∈ entry.instructions, ins.mayJump = true →
    ∃ address ∈ entry.blockAddresses tables, (address : Int) = ins.target

/-- Hooks are told addresses of instructions, and blocks start at instructions. -/
structure HooksClosed (entry : CodeEntry) (tables : NameTables) : Prop where
  hooks : ∀ (index : Nat) (ins : Instruction), entry.instructions[index]? = some ins →
    ins.calls tables Internal.tryHook = true →
    ∃ finish handler, entry.HookIsTold index finish handler ∧ entry.HasAddress finish ∧
      ∀ address, handler = some address → entry.HasAddress address
  blocks : ∀ address ∈ entry.blockAddresses tables, entry.Reaches address

end CodeEntry

end GameScript.Bytecode

namespace GameScript.Emission

open Builtin Bytecode Syntax

theorem Refers.same {tables : NameTables} {source ins : Instruction}
    {symbol : Option Symbol} (refers : Refers tables source symbol ins) :
    ins.address = source.address ∧ ins.opcode = source.opcode ∧ ins.type1 = source.type1 ∧
      ins.jump = source.jump ∧ ins.leavesForGood = source.leavesForGood := by
  cases symbol with
  | none =>
    obtain rfl : ins = source := refers
    exact ⟨rfl, rfl, rfl, rfl, rfl⟩
  | some symbol =>
    obtain ⟨id, -, rfl⟩ := refers
    cases symbol <;> exact ⟨rfl, rfl, rfl, rfl, rfl⟩

structure Cell.Becomes (cell : Cell) (piece : Piece) (tables : NameTables) (index : Nat)
    (ins : Instruction) : Prop where
  found : piece[index]? = some cell
  refers : Refers tables (cell.place piece.offset noAims index) cell.symbol ins
  address : ins.address = piece.offset index
  opcode : ins.opcode = cell.ins.opcode
  length : ins.length = cell.ins.length
  mayJump : ins.mayJump = cell.ins.mayJump
  target : ins.target = (cell.place piece.offset noAims index).target

namespace Piece.IsCodeOf

variable {piece : Piece} {pending : PendingEntry} {tables : NameTables}
  {index position : Nat} {ins : Instruction}

theorem becomes (isCode : piece.IsCodeOf pending)
    (found : (pending.resolve tables).1.instructions[index]? = some ins) :
    ∃ cell : Cell, cell.Becomes piece (pending.resolve tables).2 index ins := by
  obtain ⟨cell, foundCell, refers⟩ := isCode.instruction_cell tables found
  obtain ⟨address, opcode, type1, jump, forGood⟩ := refers.same
  obtain ⟨placedJump, immediate, placed, -⟩ := cell.place_fields piece.offset noAims index
  have target : ins.target = (cell.place piece.offset noAims index).target := by
    simp only [Instruction.target, address, jump]
  rw [placed] at address opcode type1 forGood
  refine ⟨cell, foundCell, refers, address, opcode, ?_, ?_, target⟩
  · simp only [Instruction.length, opcode, type1]
  · simp only [Instruction.mayJump, opcode, forGood]

theorem hasAddress (isCode : piece.IsCodeOf pending) (tables : NameTables)
    (bound : position < piece.length) :
    (pending.resolve tables).1.HasAddress (piece.offset position) := by
  obtain ⟨ins, found, refers⟩ :=
    (isCode.resolved tables).2 position _ (List.getElem?_eq_getElem bound)
  exact ⟨ins, Array.mem_of_getElem? found, congrArg Int.ofNat refers.address⟩

theorem reaches (isCode : piece.IsCodeOf pending) (tables : NameTables)
    (bound : position ≤ piece.length) :
    (pending.resolve tables).1.Reaches (piece.offset position) := by
  rcases Nat.lt_or_eq_of_le bound with inside | rfl
  · exact Or.inl (isCode.hasAddress tables inside)
  · right
    rw [Piece.offset_length]
    exact congrArg Int.ofNat isCode.length.symm

theorem lengths (isCode : piece.IsCodeOf pending) (tables : NameTables) :
    (pending.resolve tables).1.instructions.toList.map (·.length) =
      piece.map (·.ins.length) := by
  apply List.ext_getElem?
  intro index
  rw [List.getElem?_map, List.getElem?_map, Array.getElem?_toList]
  cases found : (pending.resolve tables).1.instructions[index]? with
  | none =>
    have beyond := Array.getElem?_eq_none_iff.mp found
    rw [(isCode.resolved tables).1] at beyond
    rw [List.getElem?_eq_none beyond]
    rfl
  | some ins =>
    obtain ⟨cell, becomes⟩ := isCode.becomes found
    rw [becomes.found, Option.map_some, Option.map_some, becomes.length]

theorem contiguous (isCode : piece.IsCodeOf pending) (tables : NameTables) :
    assignAddresses (pending.resolve tables).1.instructions.toList =
      (pending.resolve tables).1.instructions.toList := by
  refine assignAddressesFrom_eq_self fun index ins found => ?_
  rw [Array.getElem?_toList] at found
  obtain ⟨cell, becomes⟩ := isCode.becomes found
  rw [becomes.address, Nat.zero_add, codeLength_eq_sum, List.map_take, isCode.lengths,
    Piece.offset, Piece.size, List.map_take]

theorem length_encode (isCode : piece.IsCodeOf pending) (tables : NameTables) :
    (Codec.encode (pending.resolve tables).1.instructions.toList).length =
      (pending.resolve tables).1.length := by
  rw [Codec.length_encode, codeLength_eq_sum, isCode.lengths]
  exact isCode.length.symm

theorem branch_target (isCode : piece.IsCodeOf pending) (short : pending.length < 2 ^ 32)
    {cell : Cell} (becomes : cell.Becomes piece tables index ins) (leads : cell.Leads)
    (jumps : ins.mayJump = true) :
    ∃ position ≤ piece.length, ins.target = piece.offset position ∧
      cell.link = .branch ((position : Int) - index) := by
  rw [becomes.mayJump] at jumps
  rcases leads.linked jumps with ⟨distance, link⟩ | ⟨way, link⟩
  · obtain ⟨low, high⟩ := isCode.contained index cell becomes.found distance (Or.inl link)
    refine ⟨((index : Int) + distance).toNat, by omega, ?_, ?_⟩
    · rw [becomes.target, isCode.target_place (by omega) index link]
    · rw [link]
      congr 1
      omega
  · exact absurd (Or.inl link)
      (isCode.closed.not_takes (List.mem_of_getElem? becomes.found))

theorem landed (isCode : piece.IsCodeOf pending) (short : pending.length < 2 ^ 32)
    {cell : Cell} (becomes : cell.Becomes piece tables index ins) (leads : cell.Leads)
    (jumps : ins.mayJump = true) (bounded : ins.opcode ≠ .leaveWith) : ins.jump ≠ 0 := by
  intro still
  obtain ⟨position, bound, target, link⟩ := isCode.branch_target short becomes leads jumps
  have same : piece.offset position = piece.offset index := by
    have here := becomes.address
    simp only [Instruction.target, still] at target
    omega
  have inside := (List.getElem?_eq_some_iff.mp becomes.found).1
  obtain rfl := Piece.offset_inj bound (Nat.le_of_lt inside) same
  rw [becomes.opcode] at bounded
  exact bounded (leads.moves (by rw [link, Int.sub_self]))

theorem pushes_address (isCode : piece.IsCodeOf pending) (short : pending.length < 2 ^ 31)
    (pushes : piece.PushesAddress index) (tables : NameTables) :
    ∃ ins cell position, (pending.resolve tables).1.instructions[index]? = some ins ∧
      ins.immediateInt? = some (piece.offset position : Int) ∧ position < piece.length ∧
      piece[index]? = some cell ∧ cell.link = .held ((position : Int) - index) := by
  obtain ⟨cell, found, -, unnamed, holds⟩ := pushes
  obtain ⟨ins, there, refers⟩ := (isCode.resolved tables).2 index cell found
  rcases holds with ⟨way, link⟩ | ⟨distance, link, low, high⟩
  · exact absurd (Or.inr link) (isCode.closed.not_takes (List.mem_of_getElem? found))
  · have bound := piece.offset_le_size ((index : Int) + distance).toNat
    have whole := isCode.length
    rw [unnamed] at refers
    have placed : ins = _ := refers
    simp only [Cell.place, link] at placed
    refine ⟨ins, cell, ((index : Int) + distance).toNat, there, ?_, by omega, found, ?_⟩
    · rw [placed]
      exact Instruction.immediateInt?_hold _ (by omega)
    · rw [link]
      congr 1
      omega

theorem shows (isCode : piece.IsCodeOf pending) {source : Instruction}
    {symbol : Option Symbol} (shown : piece.Shows index source symbol)
    (tables : NameTables) :
    ∃ ins, (pending.resolve tables).1.instructions[index]? = some ins ∧
      Refers (pending.resolve tables).2 { source with address := piece.offset index }
        symbol ins := by
  obtain ⟨cell, found, rfl, rfl, link⟩ := shown
  obtain ⟨ins, there, refers⟩ := (isCode.resolved tables).2 index cell found
  refine ⟨ins, there, ?_⟩
  simpa only [Cell.place, link] using refers

theorem hook_told (isCode : piece.IsCodeOf pending) (short : pending.length < 2 ^ 31)
    {start : Nat} (hooks : piece.HooksFrom start) (tables : NameTables) :
    ∃ finish handler, (pending.resolve tables).1.HookIsTold (start + 4) finish handler ∧
      (pending.resolve tables).1.HasAddress finish ∧
      ∀ address, handler = some address →
      (pending.resolve tables).1.HasAddress address := by
  obtain ⟨ins, -, finish, there, holds, inside, -⟩ :=
    isCode.pushes_address short hooks.first tables
  have isFinish := isCode.hasAddress tables inside
  rcases hooks.second with pushes | shown
  · obtain ⟨second, -, handler, thereSecond, holdsSecond, insideSecond, -⟩ :=
      isCode.pushes_address short pushes tables
    refine ⟨_, some (piece.offset handler : Int),
      ⟨by omega, ⟨ins, there, holds⟩, second, thereSecond, holdsSecond⟩, isFinish, ?_⟩
    rintro address ⟨⟩
    exact isCode.hasAddress tables insideSecond
  · obtain ⟨second, thereSecond, refers⟩ := isCode.shows shown tables
    obtain rfl : second = _ := refers
    exact ⟨_, none, ⟨by omega, ⟨ins, there, holds⟩, _, thereSecond, rfl⟩, isFinish, nofun⟩

end Piece.IsCodeOf

theorem Cell.Becomes.callsHook {cell : Cell} {piece : Piece} {tables : NameTables}
    {index : Nat} {ins : Instruction} (becomes : cell.Becomes piece tables index ins)
    (calls : ins.calls tables Internal.tryHook = true) : cell.callsHook = true := by
  have refers := becomes.refers
  simp only [Instruction.calls, Bool.and_eq_true, beq_iff_eq] at calls
  rw [becomes.opcode] at calls
  unfold Cell.callsHook
  rw [calls.1]
  split
  case h_1 name symbol =>
    rw [symbol] at refers
    obtain ⟨id, known, rfl⟩ := refers
    have isName : tables.functions.get? id = some name := Roster.get?_of_idOf? known
    have called : tables.functions.get? id = some Internal.tryHook := calls.2
    rw [isName] at called
    simpa using called
  case h_2 => rfl

namespace Piece.HooksFrom

variable {piece : Piece} {start : Nat}

theorem offsets (hooks : piece.HooksFrom start) :
    piece.offset (start + 4) = piece.offset start + 24 ∧
      piece.offset (start + 6) = piece.offset (start + 4) + 12 := by
  have shown {index : Nat} {ins : Instruction} {symbol : Option Symbol}
      (shows : piece.Shows index ins symbol) :
      piece.offset (index + 1) = piece.offset index + ins.length := by
    obtain ⟨cell, found, rfl, -⟩ := shows
    exact offset_succ found
  have pushed {index : Nat} (pushes : piece.PushesAddress index) :
      piece.offset (index + 1) = piece.offset index + 8 := by
    obtain ⟨cell, found, same, -⟩ := pushes
    rw [offset_succ found, same]
    rfl
  have second : piece.offset (start + 3) = piece.offset (start + 2) + 8 := by
    rcases hooks.second with pushes | shows
    · exact pushed pushes
    · exact shown shows
  have first := pushed hooks.first
  have converted : piece.offset (start + 2) = piece.offset (start + 1) + 4 :=
    shown hooks.converted
  have again : piece.offset (start + 4) = piece.offset (start + 3) + 4 :=
    shown hooks.convertedAgain
  have called : piece.offset (start + 5) = piece.offset (start + 4) + 8 :=
    shown hooks.called
  have discarded : piece.offset (start + 6) = piece.offset (start + 5) + 4 :=
    shown hooks.discarded
  omega

theorem bound (hooks : piece.HooksFrom start) : start + 6 ≤ piece.length := by
  obtain ⟨cell, found, -⟩ := hooks.discarded
  exact (List.getElem?_eq_some_iff.mp found).1

end Piece.HooksFrom

namespace Piece.IsCodeOf

variable {piece : Piece} {pending : PendingEntry} {tables : NameTables} {index : Nat}
  {ins : Instruction}

theorem reaches_next (isCode : piece.IsCodeOf pending) {cell : Cell}
    (becomes : cell.Becomes piece (pending.resolve tables).2 index ins) :
    (pending.resolve tables).1.Reaches ((ins.address : Int) + ins.length) := by
  have next := Piece.offset_succ becomes.found
  have inside := (List.getElem?_eq_some_iff.mp becomes.found).1
  have reaches := isCode.reaches tables (Nat.succ_le_of_lt inside)
  rw [Nat.succ_eq_add_one, next, ← becomes.length, ← becomes.address] at reaches
  exact_mod_cast reaches

/-- Whatever makes blocks start makes them start at instructions, or at the end. -/
theorem reaches_blocks (isCode : piece.IsCodeOf pending) (short : pending.length < 2 ^ 31)
    (leads : ∀ cell ∈ piece, cell.Leads) (hooked : piece.Hooked)
    (found : (pending.resolve tables).1.instructions[index]? = some ins) :
    ∀ start ∈ (pending.resolve tables).1.blockStartsOf
      (pending.resolve tables).2 index ins, (pending.resolve tables).1.Reaches start := by
  obtain ⟨cell, becomes⟩ := isCode.becomes found
  have next := isCode.reaches_next becomes
  have target (jumps : ins.mayJump = true) :
      (pending.resolve tables).1.Reaches ins.target := by
    obtain ⟨position, bound, isTarget, -⟩ := isCode.branch_target (by omega) becomes
      (leads cell (List.mem_of_getElem? becomes.found)) jumps
    rw [isTarget]
    exact isCode.reaches tables bound
  intro start member
  unfold CodeEntry.blockStartsOf at member
  cases opcode : ins.opcode <;> simp only [opcode] at member
  case branch | branchTrue | branchFalse | enterWith =>
    simp only [List.mem_cons, List.not_mem_nil, or_false] at member
    rcases member with rfl | rfl
    · exact next
    · exact target (by simp [Instruction.mayJump, opcode])
  case leaveWith =>
    split at member
    case isTrue => simp at member
    case isFalse stays =>
      obtain rfl := List.mem_singleton.mp member
      exact target (by simp [Instruction.mayJump, opcode, stays])
  case exit | ret =>
    obtain rfl := List.mem_singleton.mp member
    exact next
  case call =>
    split at member
    case isFalse => simp at member
    case isTrue hook =>
      simp only [Bool.and_eq_true, decide_eq_true_eq] at hook
      obtain ⟨first, rfl, hooks⟩ :=
        hooked index cell becomes.found (becomes.callsHook hook.2)
      obtain ⟨finish, handler, ⟨-, ⟨one, thereOne, holdsOne⟩, two, thereTwo, holdsTwo⟩,
        isFinish, isHandler⟩ := isCode.hook_told short hooks tables
      obtain ⟨before, after⟩ := hooks.offsets
      have bound := hooks.bound
      have address := becomes.address
      simp only [thereOne, thereTwo, Option.bind_some, holdsOne, holdsTwo,
        Option.getD_some, List.mem_append, List.mem_cons, List.not_mem_nil,
        or_false] at member
      rcases member with (rfl | member) | rfl | rfl
      · exact Or.inl isFinish
      · split at member
        case isTrue => simp at member
        case isFalse told =>
          obtain rfl := List.mem_singleton.mp member
          cases handler with
          | none => exact absurd rfl told
          | some handler => exact Or.inl (isHandler handler rfl)
      · have begins := isCode.reaches tables (show first ≤ piece.length by omega)
        have same : (ins.address : Int) - 24 = piece.offset first := by omega
        rwa [same]
      · have ends := isCode.reaches tables bound
        have same : (ins.address : Int) + 12 = piece.offset (first + 6) := by omega
        rwa [same]
  all_goals simp at member

theorem branchesClosed (isCode : piece.IsCodeOf pending) (short : pending.length < 2 ^ 32)
    (leads : ∀ cell ∈ piece, cell.Leads) (tables : NameTables) :
    (pending.resolve tables).1.BranchesClosed (pending.resolve tables).2 where
  addresses := isCode.contiguous tables
  length := isCode.length_encode tables
  targets := by
    intro ins member jumps
    obtain ⟨index, found⟩ := Array.getElem?_of_mem member
    obtain ⟨cell, becomes⟩ := isCode.becomes found
    obtain ⟨position, bound, target, -⟩ := isCode.branch_target short becomes
      (leads cell (List.mem_of_getElem? becomes.found)) jumps
    rw [target]
    exact isCode.reaches tables bound
  landed := by
    intro ins member forward
    obtain ⟨index, found⟩ := Array.getElem?_of_mem member
    obtain ⟨cell, becomes⟩ := isCode.becomes found
    simp only [List.mem_cons, List.not_mem_nil, or_false] at forward
    refine isCode.landed short becomes
      (leads cell (List.mem_of_getElem? becomes.found)) ?_ ?_
    · rcases forward with opcode | opcode | opcode | opcode <;>
        simp [Instruction.mayJump, opcode]
    · rcases forward with opcode | opcode | opcode | opcode <;> simp [opcode]
  listed := by
    intro ins member jumps
    obtain ⟨index, found⟩ := Array.getElem?_of_mem member
    obtain ⟨cell, becomes⟩ := isCode.becomes found
    obtain ⟨position, bound, target, -⟩ := isCode.branch_target short becomes
      (leads cell (List.mem_of_getElem? becomes.found)) jumps
    have least := piece.offset_le_size position
    have whole := isCode.length
    exact ⟨piece.offset position, CodeEntry.mem_blockAddresses_of_target found jumps target
      (by omega), target.symm⟩

theorem hooksClosed (isCode : piece.IsCodeOf pending) (short : pending.length < 2 ^ 31)
    (leads : ∀ cell ∈ piece, cell.Leads) (hooked : piece.Hooked) (tables : NameTables) :
    (pending.resolve tables).1.HooksClosed (pending.resolve tables).2 where
  hooks := by
    intro index ins found calls
    obtain ⟨cell, becomes⟩ := isCode.becomes found
    obtain ⟨start, rfl, hooks⟩ := hooked index cell becomes.found (becomes.callsHook calls)
    exact isCode.hook_told short hooks tables
  blocks := by
    intro address member
    obtain ⟨hasCode, rfl | ⟨index, ins, found, starts, -⟩⟩ :=
      CodeEntry.mem_blockAddresses.mp member
    · have first := isCode.reaches tables (Nat.zero_le piece.length)
      rwa [Piece.offset_zero] at first
    · exact isCode.reaches_blocks short leads hooked found _ starts

end Piece.IsCodeOf

/-- Whatever program is emitted, its jumps are closed, and so are its hooks if the
hook is called by no name in the program. -/
theorem emitted_jumps_closed {env : Environment} {program : Program}
    {pending : PendingEntry} (emitted : emitProgram env program = .ok pending)
    (short : pending.length < 2 ^ 31) (tables : NameTables) :
    (pending.resolve tables).1.BranchesClosed (pending.resolve tables).2 ∧
      (Internal.tryHook ∉ calleesOfBlock program →
        (pending.resolve tables).1.HooksClosed (pending.resolve tables).2) := by
  have met :
    Demands.Met ⟨False, Internal.tryHook ∉ calleesOfBlock program⟩
      (mentionsOfBlock program) (calleesOfBlock program) := ⟨False.elim, id⟩
  obtain ⟨piece, rests, isCode⟩ :=
    emitProgram_isCode (emitStmts_rests program [] [] met) emitted
  exact ⟨isCode.branchesClosed (by omega) (Carries.leads rests) tables,
    fun spare =>
      isCode.hooksClosed short (Carries.leads rests) (Carries.hooked spare rests) tables⟩

/-- `repeat (true) try { break; } catch (e) {} finally {}`. -/
def guardedBreak : Program :=
  [.repeatLoop 0 (.literal 0 (.boolean true))
    (.tryBlock 0 ⟨0, [.breakLoop 0]⟩ (some ("e", ⟨0, []⟩)) (some ⟨0, []⟩))]

theorem guardedBreak_jumps_closed :
    ∃ pending, emitProgram bareEnvironment guardedBreak = .ok pending ∧
      (pending.resolve {}).1.BranchesClosed (pending.resolve {}).2 ∧
      (pending.resolve {}).1.HooksClosed (pending.resolve {}).2 := by
  have addressable : endsWith isAddressable (emitProgram bareEnvironment guardedBreak) =
      true := by
    decide +kernel
  obtain ⟨pending, emitted, short⟩ := exists_of_endsWith addressable
  obtain ⟨branches, hooks⟩ := emitted_jumps_closed emitted (of_decide_eq_true short) {}
  exact ⟨pending, emitted, branches, hooks (by decide)⟩

/-- `@@try_hook@@(handler, finish);`. -/
def namedHook (handler finish : Int64) : Stmt :=
  .expr 0
    (.call { pos := 0, name := Internal.tryHook,
             builtin := some ⟨Internal.tryHook, none, 0⟩ }
    [.literal 0 (.int64 handler), .literal 0 (.int64 finish)])

/-- A program that calls the hook by its name can tell it anything. -/
theorem namedHook_not_closed :
    ∃ pending, emitProgram bareEnvironment [namedHook 3 3] = .ok pending ∧
      pending.length < 2 ^ 31 ∧
      3 ∈ (pending.resolve {}).1.blockAddresses (pending.resolve {}).2 ∧
      ¬ (pending.resolve {}).1.Reaches 3 := by
  have strays : endsWith (fun pending : PendingEntry => isAddressable pending &&
      (pending.resolve {}).1.length != 3 &&
      (pending.resolve {}).1.instructions.all (·.address != 3) &&
      (pending.resolve {}).1.instructions[4]?.any fun ins =>
        ((pending.resolve {}).1.blockStartsOf (pending.resolve {}).2 4 ins).contains 3)
      (emitProgram bareEnvironment [namedHook 3 3]) = true := by decide +kernel
  obtain ⟨pending, emitted, test⟩ := exists_of_endsWith strays
  simp only [Bool.and_eq_true, Array.all_eq_true', Option.any_eq_true,
    List.contains_iff_mem, bne_iff_ne] at test
  obtain ⟨⟨⟨short, length⟩, others⟩, ins, found, starts⟩ := test
  refine ⟨pending, emitted, of_decide_eq_true short, ?_, ?_⟩
  · refine CodeEntry.mem_blockAddresses.mpr ⟨?_, Or.inr ⟨4, ins, found, starts, by decide⟩⟩
    rintro empty
    simp [empty] at found
  · rintro (⟨ins, member, address⟩ | whole)
    · exact others ins member (by omega)
    · omega

end GameScript.Emission
