import GameScript.Proofs.Flow.Closure

/-! Emitted code has a binary form from which it is read back.

Every emitted instruction holds what its operation encodes, but for the number of
its name.  Resolution writes that number and nothing else, so the finished
instructions are canonical. -/

namespace GameScript.Bytecode

inductive NameKind where
  | string | variable | function
deriving DecidableEq, Repr

/-- The kind of the name that an instruction refers to: a push of a string, of a variable
or of a function, a store, or a call. -/
def Instruction.nameKind? (ins : Instruction) : Option NameKind :=
  match ins.opcode.opcodeClass, ins.type1, ins.reference with
  | .push, .string, _ => some .string
  | .push, .variant, _ => some .variable
  | .push, _, some (.function _) => some .function
  | .pop, _, _ => some .variable
  | .call, _, _ => some .function
  | _, _, _ => none

/-- The number of a variable leaves a byte of its word free, and other numbers are
words. -/
def Instruction.numbersFit (ins : Instruction) : Bool :=
  (match ins.reference with
    | some (.var id _) => decide (id < 2 ^ 24)
    | some (.function id) => decide (id < 2 ^ 32)
    | none => true) &&
  match ins.immediate with
    | some (.string id) => decide (id < 2 ^ 32)
    | _ => true

/-- A distance of less than 2 ^ 24 bytes fits in the low bits of a branch. -/
theorem wordDistance_bounds {source target : Nat} (sourceWords : 4 ∣ source)
    (targetWords : 4 ∣ target) (sourceBound : source < 2 ^ 24)
    (targetBound : target < 2 ^ 24) :
    -2 ^ 22 ≤ wordDistance source target ∧ wordDistance source target < 2 ^ 22 := by
  have words := wordDistance_mul_four sourceWords targetWords (by omega) (by omega)
  omega

end GameScript.Bytecode

namespace GameScript.Emission

open Bytecode Syntax

/-- Forms of emitted instructions: complete but for a name, branches, and pushes of
addresses. -/
inductive Cell.Form : Cell → Prop where
  | draft {cell : Cell} (unlinked : cell.link = .none) (isDraft : cell.IsDraft) : Form cell
  | branch {cell : Cell} (nameless : cell.symbol = none)
      (isBranch : cell.ins.opcode.opcodeClass = .branch)
      (bare : cell.ins = { opcode := cell.ins.opcode }) (leads : cell.link.holds = false) :
      Form cell
  | address {cell : Cell} (nameless : cell.symbol = none)
      (bare : cell.ins = (Cell.pushInt32 0).ins) (holds : cell.link.holds = true) :
      Form cell

namespace Cell.Form

variable {cell other : Cell}

theorem relink (form : cell.Form) (ins : other.ins = cell.ins)
    (symbol : other.symbol = cell.symbol)
    (unlinked : cell.link = .none → other.link = .none)
    (holds : other.link.holds = cell.link.holds) : other.Form := by
  cases form with
  | draft link isDraft =>
    refine .draft (unlinked link) ?_
    unfold IsDraft at isDraft ⊢
    rwa [ins, symbol]
  | branch nameless isBranch bare leads =>
    exact .branch (symbol.trans nameless) (by rwa [ins]) (by rwa [ins]) (holds.trans leads)
  | address nameless bare held =>
    exact .address (symbol.trans nameless) (ins.trans bare) (holds.trans held)

theorem close (form : cell.Form) (exits : Exits) (index : Nat) :
    (cell.close exits index).Form := by
  refine form.relink (close_ins exits index cell) (close_symbol exits index cell) ?_ ?_
  · intro unlinked
    simp [Cell.close, unlinked]
  · cases link : cell.link with
    | leave way => cases exit : exits way <;> simp [Cell.close, link, exit, Link.holds]
    | await way => cases exit : exits way <;> simp [Cell.close, link, exit, Link.holds]
    | _ => simp [Cell.close, link, Link.holds]

theorem redirect (form : cell.Form) (rename : Way → Way) :
    (cell.redirect rename).Form := by
  refine form.relink (redirect_ins rename cell) (redirect_symbol rename cell) ?_ ?_
  · intro unlinked
    simp [Cell.redirect, unlinked]
  · cases link : cell.link <;> simp [Cell.redirect, link, Link.holds]

theorem leave {opcode : Opcode} (way : Way)
    (jumps : ({ opcode } : Instruction).mayJump = true) :
    (Cell.leave opcode way).Form := by
  refine .branch rfl ?_ rfl rfl
  simp only [Instruction.mayJump] at jumps
  split at jumps
  case h_6 => cases jumps
  all_goals rfl

theorem hook {second : Cell} (isSecond : IsSecondAddress second) :
    ∀ cell ∈ hookPiece second, cell.Form := by
  have await (way : Way) : (Cell.pushAwait way).Form := .address rfl rfl rfl
  have pushed : second.Form := by
    rcases isSecond with rfl | rfl
    · exact .draft rfl rfl
    · exact await _
  simp only [hookPiece, hookConversion, hookCall, callDiscard, List.forall_mem_singleton,
    List.cons_append, List.nil_append, List.forall_mem_cons]
  exact ⟨await _, .draft rfl rfl, pushed, .draft rfl rfl, .draft rfl ⟨by decide, rfl⟩,
    .draft rfl rfl⟩

end Cell.Form

theorem Piece.form_join {exits : Exits} {segments : List Piece}
    (each : ∀ segment ∈ segments, ∀ cell ∈ segment, cell.Form) :
    ∀ cell ∈ Piece.join exits segments, cell.Form := by
  intro cell member
  obtain ⟨old, oldMember, position, rfl⟩ := mem_closeFrom member
  obtain ⟨segment, isSegment, inside⟩ := List.mem_flatten.mp oldMember
  exact (each segment isSegment old inside).close _ position

theorem Carries.forms {demands : Demands} {ways : Ways} {before after : MarkerStack}
    {piece : Piece} {n : Nat} (carried : Carries demands ways before piece after n) :
    ∀ cell ∈ piece, cell.Form := by
  induction carried with
  | nil => exact List.forall_mem_nil _
  | cell plain => simpa using Cell.Form.draft plain.1 plain.2.2.2.2
  | stop opcode type stops =>
    have isDraft : (Cell.single opcode type).IsDraft := by
      rcases stops with rfl | rfl <;> rfl
    simpa using Cell.Form.draft rfl isDraft
  | leave jumps => simpa using Cell.Form.leave _ jumps
  | hook isSecond => exact Cell.Form.hook isSecond
  | append _ _ first second => exact List.forall_mem_append.mpr ⟨first, second⟩
  | join _ _ sizes _ _ _ _ each => exact Piece.form_join (forall_segments sizes each)
  | redirect rename _ _ _ forms =>
    intro cell member
    obtain ⟨old, oldMember, rfl⟩ := Piece.mem_redirect.mp member
    exact (forms old oldMember).redirect rename
  | function _ forms =>
    refine Piece.form_join fun segment member => ?_
    rcases List.mem_cons.mp member with rfl | member
    · simpa using Cell.Form.leave _ rfl
    · obtain rfl := List.mem_singleton.mp member
      intro cell opened
      obtain ⟨old, oldMember, same⟩ := Piece.mem_opened opened
      have old : old.Form := by
        rcases List.mem_append.mp oldMember with inside | inside
        · exact forms old inside
        · rw [List.mem_singleton.mp inside]
          exact .draft rfl rfl
      exact old.relink (by rw [same]) (by rw [same])
        (by rw [same]; exact id) (by rw [same])
  | handled _ _ sizes _ _ _ _ _ each => exact Piece.form_join (forall_segments sizes each)

def Symbol.kind : Symbol → NameKind
  | .string _ => .string
  | .var _ _ _ => .variable
  | .function _ => .function

/-- What a finished push of each type holds, with the name that it was emitted with:
instance, value and name.  A variable that is named without its instance is stored under
the instance it belongs to. -/
inductive Pushed (tables : NameTables) : Option Symbol → DataType → Instance →
    Option Immediate → Option Reference → Prop where
  | var {id : Nat} {name : String} {scope owner : Instance} {access : Access}
      (plain : access = .normal → owner = scope)
      (stored : tables.vars.get? id = some ⟨name, scope.scope⟩) :
      Pushed tables (some (.var name scope access)) .variant owner none
        (some (.var id access))
  | int16 (value : Int16) :
      Pushed tables none .int16 .unspecified (some (.int16 value)) none
  | int32 (value : Int32) :
      Pushed tables none .int32 .unspecified (some (.int32 value)) none
  | int64 (value : Int64) :
      Pushed tables none .int64 .unspecified (some (.int64 value)) none
  | double (value : Number.Double) :
      Pushed tables none .double .unspecified (some (.double value)) none
  | string {id : Nat} {text : String} (stored : tables.strings.get? id = some text) :
      Pushed tables (some (.string text)) .string .unspecified (some (.string id)) none
  | function {id : Nat} {name : String} (stored : tables.functions.get? id = some name) :
      Pushed tables (some (.function name)) .int32 .unspecified (some (.int32 0))
        (some (.function id))

/-- Finished instructions of each class, with the names that they were emitted with.  Each
holds what its operation encodes, the number of its name, and nothing else. -/
inductive Finished (tables : NameTables) : Option Symbol → OpcodeClass → Instruction →
      Prop where
  | single (address : Nat) {opcode : Opcode} (type : DataType) {extra : UInt8}
      (isClass : opcode.opcodeClass = .singleType)
      (counts : extra ≠ 0 → opcode = .duplicate ∨ opcode = .callValue) :
      Finished tables none .singleType { address, opcode, type1 := type, extra }
  | operator (address : Nat) {opcode : Opcode} (type1 type2 : DataType)
      (isClass : opcode.opcodeClass = .doubleType) :
      Finished tables none .doubleType { address, opcode, type1, type2 }
  | comparison (address : Nat) (type1 type2 : DataType) (kind : Comparison) :
      Finished tables none .comparison
        { address, opcode := .compare, type1, type2, comparison := some kind }
  | branch (address : Nat) {opcode : Opcode} {jump : Int} {leavesForGood : Bool}
      (isClass : opcode.opcodeClass = .branch) (still : leavesForGood = true → jump = 0) :
      Finished tables none .branch { address, opcode, jump, leavesForGood }
  | store (address : Nat) {type1 : DataType} (type2 : DataType) {id : Nat} {name : String}
      {scope owner : Instance} {access : Access} (stores : type1 ≠ .int16)
      (plain : access = .normal → owner = scope)
      (stored : tables.vars.get? id = some ⟨name, scope.scope⟩) :
      Finished tables (some (.var name scope access)) .pop
        { address, opcode := .pop, type1, type2, owner,
          reference := some (.var id access) }
  | push (address : Nat) {opcode : Opcode} {symbol : Option Symbol} {type1 : DataType}
      {owner : Instance} {immediate : Option Immediate} {reference : Option Reference}
      (isClass : opcode.opcodeClass = .push)
      (pushed : Pushed tables symbol type1 owner immediate reference) :
      Finished tables symbol .push { address, opcode, type1, owner, immediate, reference }
  | call (address : Nat) {id : Nat} {name : String} {count : Int16}
      (counts : 0 ≤ count.toInt) (stored : tables.functions.get? id = some name) :
      Finished tables (some (.function name)) .call
        { address, opcode := .call, immediate := some (.int16 count)
          reference := some (.function id) }
  | extended (address : Nat) (type : DataType) {number : Int16} {extension : Extension}
      (isExtension : Extension.ofCode? number = some extension) :
      Finished tables none .extended
        { address, opcode := .extended, type1 := type, immediate := some (.int16 number) }

section Finished

variable {tables : NameTables} {cell : Cell} {ins : Instruction}

structure Cell.IsBlank (cell : Cell) : Prop where
  reference : cell.ins.reference = none
  immediate : ∀ id, cell.ins.immediate ≠ some (.string id)
  jump : cell.ins.jump = 0

theorem Cell.IsBlank.of_eq {ins : Instruction} (same : cell.ins = ins)
    (reference : ins.reference = none)
    (immediate : ∀ id, ins.immediate ≠ some (.string id))
    (jump : ins.jump = 0) : cell.IsBlank :=
  ⟨same ▸ reference, same ▸ immediate, same ▸ jump⟩

theorem Cell.Form.isBlank (form : cell.Form) : cell.IsBlank := by
  cases form with
  | draft _ isDraft =>
    unfold IsDraft at isDraft
    simp only at isDraft
    split at isDraft
    case h_1 => split at isDraft <;> exact .of_eq isDraft rfl nofun rfl
    case h_5 =>
      split at isDraft
      case h_1 => exact isDraft.elim
      all_goals exact .of_eq isDraft rfl nofun rfl
    case h_14 => exact .of_eq isDraft.2 rfl nofun rfl
    case h_15 => exact .of_eq isDraft.2 rfl nofun rfl
    case h_16 => exact isDraft.elim
    all_goals exact .of_eq isDraft rfl nofun rfl
  | branch _ _ bare => exact .of_eq bare rfl nofun rfl
  | address _ bare => exact .of_eq bare rfl nofun rfl

/-- One case for each class of operations and each kind of name. -/
theorem Cell.IsDraft.finished {address : Nat} (isDraft : cell.IsDraft)
    (refers : Refers tables { cell.ins with address } cell.symbol ins) :
    ∃ kind, Finished tables cell.symbol kind ins := by
  obtain ⟨⟨_, opcode, type1, type2, comparison, swap, extra, owner, jump, forGood,
    immediate, reference⟩, symbol, link, opensBody⟩ := cell
  unfold IsDraft at isDraft
  simp only at isDraft refers
  split at isDraft
  case h_1 isClass =>
    cases refers
    split at isDraft
    case h_1 => cases isDraft; exact ⟨_, .single _ _ isClass fun _ => .inl rfl⟩
    case h_2 => cases isDraft; exact ⟨_, .single _ _ isClass fun _ => .inr rfl⟩
    case h_3 =>
      cases isDraft; exact ⟨_, .single _ _ isClass fun isNamed => absurd rfl isNamed⟩
  case h_2 isClass =>
    cases isDraft
    cases refers
    exact ⟨_, .operator _ _ _ isClass⟩
  case h_3 isClass =>
    obtain rfl : opcode = .compare := by cases opcode <;> first | rfl | cases isClass
    cases comparison with
    | none => cases isDraft
    | some kind =>
      cases isDraft
      cases refers
      exact ⟨_, .comparison _ _ _ kind⟩
  case h_4 isClass =>
    cases isDraft
    cases refers
    exact ⟨_, .branch _ isClass fun _ => rfl⟩
  case h_5 isClass =>
    obtain rfl : opcode = .pop := by cases opcode <;> first | rfl | cases isClass
    obtain ⟨id, known, rfl⟩ := refers
    have stored := Roster.get?_of_idOf? known
    split at isDraft
    case h_1 => cases isDraft
    case h_2 stores =>
      cases isDraft
      exact ⟨_, .store _ _ stores (fun _ => rfl) stored⟩
    case h_3 stores isNamed =>
      cases isDraft
      exact ⟨_, .store _ _ stores (fun normal => (isNamed normal).elim) stored⟩
  case h_6 isClass =>
    cases isDraft
    cases refers
    exact ⟨_, .push _ isClass (.int16 _)⟩
  case h_7 isClass =>
    cases isDraft
    cases refers
    exact ⟨_, .push _ isClass (.int32 _)⟩
  case h_8 isClass =>
    cases isDraft
    cases refers
    exact ⟨_, .push _ isClass (.int64 _)⟩
  case h_9 isClass =>
    cases isDraft
    cases refers
    exact ⟨_, .push _ isClass (.double _)⟩
  case h_10 isClass =>
    obtain ⟨id, known, rfl⟩ := refers
    cases isDraft
    exact ⟨_, .push _ isClass (.string (Roster.get?_of_idOf? known))⟩
  case h_11 isClass =>
    obtain ⟨id, known, rfl⟩ := refers
    cases isDraft
    exact ⟨_, .push _ isClass (.function (Roster.get?_of_idOf? known))⟩
  case h_12 isClass =>
    obtain ⟨id, known, rfl⟩ := refers
    cases isDraft
    exact ⟨_, .push _ isClass (.var (fun _ => rfl) (Roster.get?_of_idOf? known))⟩
  case h_13 isNamed isClass =>
    obtain ⟨id, known, rfl⟩ := refers
    cases isDraft
    exact ⟨_, .push _ isClass
      (.var (fun normal => (isNamed normal).elim) (Roster.get?_of_idOf? known))⟩
  case h_14 isClass =>
    obtain rfl : opcode = .call := by cases opcode <;> first | rfl | cases isClass
    obtain ⟨id, known, rfl⟩ := refers
    obtain ⟨counts, same⟩ := isDraft
    cases same
    exact ⟨_, .call _ counts (Roster.get?_of_idOf? known)⟩
  case h_15 isClass =>
    obtain rfl : opcode = .extended := by cases opcode <;> first | rfl | cases isClass
    obtain ⟨isExtension, same⟩ := isDraft
    cases same
    cases refers
    exact ⟨_, .extended _ _ (Option.eq_some_of_isSome isExtension)⟩
  case h_16 => cases isDraft

theorem Cell.Form.finished {address : Nat → Nat} {index : Nat} (form : cell.Form)
    (refers : Refers tables (cell.place address noAims index) cell.symbol ins) :
    ∃ kind, Finished tables cell.symbol kind ins := by
  cases form with
  | draft unlinked isDraft =>
    simp only [Cell.place, unlinked] at refers
    exact isDraft.finished refers
  | branch nameless isBranch bare leads =>
    obtain ⟨jump, placed⟩ : ∃ jump : Int, cell.place address noAims index =
        { address := address index, opcode := cell.ins.opcode, jump } := by
      rw [Cell.place, bare]
      cases link : cell.link with
      | branch distance => exact ⟨_, rfl⟩
      | none => exact ⟨0, rfl⟩
      | leave way => exact ⟨0, rfl⟩
      | held distance => simp [link, Link.holds] at leads
      | await way => simp [link, Link.holds] at leads
    rw [nameless, placed] at refers
    obtain rfl : ins = _ := refers
    rw [nameless]
    exact ⟨_, .branch _ isBranch fun forGood => absurd forGood Bool.false_ne_true⟩
  | address nameless bare holds =>
    obtain ⟨value, placed⟩ : ∃ value : Int32, cell.place address noAims index =
        { (Cell.pushInt32 value).ins with address := address index } := by
      rw [Cell.place, bare]
      cases link : cell.link with
      | held distance => exact ⟨_, rfl⟩
      | await way => exact ⟨0, rfl⟩
      | none => simp [link, Link.holds] at holds
      | branch distance => simp [link, Link.holds] at holds
      | leave way => simp [link, Link.holds] at holds
    rw [nameless, placed] at refers
    obtain rfl : ins = _ := refers
    rw [nameless]
    exact ⟨_, .push _ rfl (.int32 value)⟩

/-- A finished instruction has a binary form as far as its numbers fit, and refers to a
name of the kind that it was given. -/
structure Cell.Encodes (cell : Cell) (ins : Instruction) : Prop where
  canonical : ins.numbersFit = true → -2 ^ 22 ≤ ins.jump →
    ins.jump < 2 ^ 22 → ins.Canonical
  oneType : ins.CallsWithOneType
  kind : cell.symbol.map Symbol.kind = ins.nameKind?

theorem Pushed.operand {symbol : Option Symbol} {type1 : DataType} {owner : Instance}
    {immediate : Option Immediate} {reference : Option Reference} {address : Nat}
    {opcode : Opcode} (pushed : Pushed tables symbol type1 owner immediate reference)
    (fit :
      ({ address, opcode, type1, owner, immediate, reference } : Instruction).numbersFit =
        true) :
    Operand type1 owner immediate reference := by
  cases pushed with
  | var => exact .variant _ _ _ (by simpa [Instruction.numbersFit] using fit)
  | string => exact .string _ (by simpa [Instruction.numbersFit] using fit)
  | function => exact .function _ (by simpa [Instruction.numbersFit] using fit)
  | int16 value => exact .int16 value
  | int32 value => exact .int32 value
  | int64 value => exact .int64 value
  | double value => exact .double value

namespace Finished

variable {symbol : Option Symbol} {kind : OpcodeClass}

theorem isClass (finished : Finished tables symbol kind ins) :
    ins.opcode.opcodeClass = kind := by
  cases finished with
  | single _ _ isClass => exact isClass
  | operator _ _ _ isClass => exact isClass
  | branch _ isClass => exact isClass
  | push _ isClass => exact isClass
  | _ => rfl

theorem canonical (finished : Finished tables symbol kind ins)
    (fit : ins.numbersFit = true) (low : -2 ^ 22 ≤ ins.jump) (high : ins.jump < 2 ^ 22) :
    ins.Canonical := by
  cases finished with
  | single _ _ isClass => exact .types _ _ _ _ _ _ (.inl isClass)
  | operator _ _ _ isClass => exact .types _ _ _ _ _ _ (.inr isClass)
  | comparison => exact .comparison _ _ _ _ _ _ rfl
  | @branch _ _ _ leavesForGood isClass still =>
    cases leavesForGood with
    | false => exact .branch _ _ _ isClass low high
    | true =>
      obtain rfl := still rfl
      exact .leave _ _ isClass
  | store _ _ stores =>
    exact .pop _ _ _ _ _ _ _ rfl stores (by simpa [Instruction.numbersFit] using fit)
  | push _ isClass pushed => exact .push _ _ _ _ _ _ isClass (pushed.operand fit)
  | call => exact .call _ _ _ _ _ _ rfl (by simpa [Instruction.numbersFit] using fit)
  | extended => exact .extended _ _ _ _ _ rfl

theorem oneType (finished : Finished tables symbol kind ins) : ins.CallsWithOneType := by
  cases finished with
  | operator _ _ _ isClass => simp [Instruction.CallsWithOneType, isClass]
  | comparison => simp [Instruction.CallsWithOneType, Opcode.opcodeClass]
  | store => simp [Instruction.CallsWithOneType, Opcode.opcodeClass]
  | _ => exact fun _ => rfl

theorem nameKind (finished : Finished tables symbol kind ins) :
    symbol.map Symbol.kind = ins.nameKind? := by
  cases finished with
  | single _ _ isClass => simp [Instruction.nameKind?, isClass]
  | operator _ _ _ isClass => simp [Instruction.nameKind?, isClass]
  | branch _ isClass => simp [Instruction.nameKind?, isClass]
  | push _ isClass pushed =>
    cases pushed <;> simp [Instruction.nameKind?, isClass, Symbol.kind]
  | _ => rfl

end Finished

theorem Cell.Form.encodes {address : Nat → Nat} {index : Nat} (form : cell.Form)
    (refers : Refers tables (cell.place address noAims index) cell.symbol ins) :
    cell.Encodes ins := by
  obtain ⟨_, finished⟩ := form.finished refers
  exact ⟨finished.canonical, finished.oneType, finished.nameKind⟩

end Finished

/-! Names in the order of their instructions. -/

namespace Piece

theorem le_of_mem_symbolsFrom {piece : Piece} {start : Nat} {reference : Nat × Symbol}
    (member : reference ∈ piece.symbolsFrom start) :
    start ≤ reference.1 ∧ reference.1 < start + piece.length := by
  induction piece generalizing start with
  | nil => simp [symbolsFrom] at member
  | cons cell rest induction =>
    rcases List.mem_append.mp member with here | later
    · obtain ⟨symbol, -, rfl⟩ :
          ∃ symbol, cell.symbol = some symbol ∧ (start, symbol) = reference := by
        simpa using here
      simp
    · have bounds := induction later
      rw [List.length_cons]
      omega

theorem symbolsFrom_increase (piece : Piece) (start : Nat) :
    (piece.symbolsFrom start).Pairwise fun first second => first.1 < second.1 := by
  induction piece generalizing start with
  | nil => exact .nil
  | cons cell rest induction =>
    refine List.pairwise_append.mpr ⟨?_, induction (start + 1), ?_⟩
    · cases cell.symbol <;> simp
    · intro first here second later
      obtain ⟨symbol, -, rfl⟩ :
          ∃ symbol, cell.symbol = some symbol ∧ (start, symbol) = first := by
        simpa using here
      exact (le_of_mem_symbolsFrom later).1

theorem lookup_symbolsFrom (piece : Piece) (start index : Nat) :
    (piece.symbolsFrom start).lookup (start + index) = piece[index]?.bind (·.symbol) := by
  induction piece generalizing start index with
  | nil => rfl
  | cons cell rest induction =>
    cases index with
    | zero =>
      cases symbol : cell.symbol with
      | some name => simp [symbolsFrom, symbol]
      | none =>
        have absent : (symbolsFrom (start + 1) rest).lookup start = none := by
          refine List.lookup_eq_none_iff.mpr fun reference member => ?_
          have later := (le_of_mem_symbolsFrom member).1
          simp
          omega
        simpa [symbolsFrom, symbol] using absent
    | succ index =>
      have step := induction (start + 1) index
      rw [Nat.succ_add_eq_add_succ] at step
      cases symbol : cell.symbol with
      | none => simpa [symbolsFrom, symbol] using step
      | some name =>
        have differs : (start + (index + 1) == start) = false := by simp
        simpa [symbolsFrom, symbol, List.lookup_cons, differs] using step

end Piece

def PendingEntry.symbolAt? (pending : PendingEntry) (index : Nat) : Option Symbol :=
  pending.symbols.toList.lookup index

/-- The names of an entry stand on the instructions that refer to names, and the finished
entry holds their numbers and what was emitted. -/
structure PendingEntry.Finishes (pending : PendingEntry) (entry : CodeEntry)
    (tables : NameTables) : Prop where
  ordered : pending.symbols.toList.Pairwise fun first second => first.1 < second.1
  inside : ∀ reference ∈ pending.symbols.toList, reference.1 < pending.code.size
  size : entry.instructions.size = pending.code.size
  kinds : ∀ (index : Nat) (ins : Instruction), entry.instructions[index]? = some ins →
    (pending.symbolAt? index).map Symbol.kind = ins.nameKind?
  numbered : ∀ (index : Nat) (ins finished : Instruction),
    pending.code[index]? = some ins → entry.instructions[index]? = some finished →
    Refers tables ins (pending.symbolAt? index) finished ∧
      finished =
        { ins with immediate := finished.immediate, reference := finished.reference }

namespace Piece.IsCodeOf

variable {piece : Piece} {pending : PendingEntry} {tables : NameTables}

theorem symbolAt? (isCode : piece.IsCodeOf pending) (index : Nat) :
    pending.symbolAt? index = piece[index]?.bind (·.symbol) := by
  have found := piece.lookup_symbolsFrom 0 index
  rwa [Nat.zero_add, ← isCode.symbols] at found

theorem code_size (isCode : piece.IsCodeOf pending) :
    pending.code.size = piece.length := by
  rw [← Array.length_toList, isCode.code, Piece.length_realize]

theorem code_get (isCode : piece.IsCodeOf pending) {index : Nat} {cell : Cell}
    (found : piece[index]? = some cell) :
    pending.code[index]? = some (cell.place piece.offset noAims index) := by
  rw [← Array.getElem?_toList, isCode.code, Piece.getElem?_realize, found]
  simp

theorem jump_bounds (isCode : piece.IsCodeOf pending) (forms : ∀ cell ∈ piece, cell.Form)
    (short : pending.length < 2 ^ 24) {index : Nat} {cell : Cell} {ins : Instruction}
    (becomes : cell.Becomes piece tables index ins) :
    -2 ^ 22 ≤ ins.jump ∧ ins.jump < 2 ^ 22 := by
  have small (position : Nat) : piece.offset position < 2 ^ 24 := by
    have most := piece.offset_le_size position
    have whole := isCode.length
    omega
  have words (position : Nat) : 4 ∣ piece.offset position := Piece.four_dvd_size _
  have blank := (forms cell (List.mem_of_getElem? becomes.found)).isBlank
  rw [becomes.refers.same.2.2.2.1]
  cases link : cell.link with
  | branch distance =>
    rw [Cell.place, link]
    exact wordDistance_bounds (words index) (words _) (small index) (small _)
  | none => simp [Cell.place, link, blank.jump]
  | leave way => simp [Cell.place, link, noAims, blank.jump]
  | held distance => simp [Cell.place, link, Instruction.hold, blank.jump]
  | await way => simp [Cell.place, link, noAims, blank.jump]

theorem finishes (isCode : piece.IsCodeOf pending) (forms : ∀ cell ∈ piece, cell.Form)
    (tables : NameTables) :
    pending.Finishes (pending.resolve tables).1 (pending.resolve tables).2 where
  ordered := isCode.symbols ▸ piece.symbolsFrom_increase 0
  inside := by
    intro reference member
    rw [isCode.symbols] at member
    have bound := (Piece.le_of_mem_symbolsFrom member).2
    rw [isCode.code_size]
    omega
  size := (isCode.resolved tables).1.trans isCode.code_size.symm
  kinds := by
    intro index ins found
    obtain ⟨cell, becomes⟩ := isCode.becomes found
    rw [isCode.symbolAt?, becomes.found]
    exact ((forms cell (List.mem_of_getElem? becomes.found)).encodes becomes.refers).kind
  numbered := by
    intro index ins finished found foundFinished
    obtain ⟨cell, becomes⟩ := isCode.becomes foundFinished
    obtain rfl : cell.place piece.offset noAims index = ins :=
      Option.some.inj ((isCode.code_get becomes.found).symm.trans found)
    rw [isCode.symbolAt?, becomes.found]
    refine ⟨becomes.refers, ?_⟩
    have refers := becomes.refers
    cases symbol : cell.symbol with
    | none =>
      rw [symbol] at refers
      obtain rfl : finished = _ := refers
      rfl
    | some name =>
      rw [symbol] at refers
      obtain ⟨id, -, rfl⟩ := refers
      cases name <;> rfl

theorem ofBytes_toBytes (isCode : piece.IsCodeOf pending)
    (forms : ∀ cell ∈ piece, cell.Form) (short : pending.length < 2 ^ 24)
    (fit : ∀ ins ∈ (pending.resolve tables).1.instructions, ins.numbersFit = true)
    (name : String) :
    ∃ back, CodeEntry.ofBytes name (pending.resolve tables).1.toBytes = .ok back ∧
      back.instructions = (pending.resolve tables).1.instructions ∧
      back.length = (pending.resolve tables).1.length := by
  have canonical : ∀ ins ∈ (pending.resolve tables).1.instructions.toList,
      ins.Canonical ∧ ins.CallsWithOneType := by
    intro ins member
    obtain ⟨index, found⟩ := List.getElem?_of_mem member
    rw [Array.getElem?_toList] at found
    obtain ⟨cell, becomes⟩ := isCode.becomes found
    obtain ⟨low, high⟩ := isCode.jump_bounds forms short becomes
    have encodes :=
      (forms cell (List.mem_of_getElem? becomes.found)).encodes becomes.refers
    exact ⟨encodes.canonical (fit ins (Array.mem_of_getElem? found)) low high,
      encodes.oneType⟩
  have addressed := isCode.contiguous tables
  have read := Codec.decode_encode canonical addressed
  refine ⟨_, by rw [CodeEntry.ofBytes, CodeEntry.toBytes, read]; rfl, ?_, ?_⟩
  · rw [CodeEntry.ofInstructions, addressed]
  · rw [← isCode.length_encode tables, Codec.length_encode]
    rfl

end Piece.IsCodeOf

/-- Finished entries hold the number of every name, and survive their binary form. -/
theorem emitted_entry_survives_encoding {env : Environment} {program : Program}
    {pending : PendingEntry} (emitted : emitProgram env program = .ok pending)
    (tables : NameTables) (short : pending.length < 2 ^ 24)
    (fit : ∀ ins ∈ (pending.resolve tables).1.instructions, ins.numbersFit = true) :
    pending.Finishes (pending.resolve tables).1 (pending.resolve tables).2 ∧
      ∀ name, ∃ back, CodeEntry.ofBytes name (pending.resolve tables).1.toBytes =
        .ok back ∧ back.instructions = (pending.resolve tables).1.instructions ∧
        back.length = (pending.resolve tables).1.length := by
  obtain ⟨piece, rests, isCode⟩ :=
    emitProgram_isCode (emitStmts_rests program [] [] .ofNothing) emitted
  have forms := Carries.forms rests
  exact ⟨isCode.finishes forms tables, isCode.ofBytes_toBytes forms short fit⟩

/-- `try { f = function() { return "a"; } } catch (e) { while (e) print(e); }`. -/
def guardedFunction : Program :=
  [.tryBlock 0
    ⟨0, [.assign 0 .assign (.var { pos := 0, name := "f" } [])
      (.function
        (.mk 0 none [] false none
          ⟨0, [.returnValue 0 (some (.literal 0 (.string "a")))]⟩))]⟩
    (some ("e", ⟨0, [.whileLoop 0 (.var { pos := 0, name := "e" } [])
      (.expr 0 (.call { pos := 0, name := "print" }
        [.var { pos := 0, name := "e" } []]))]⟩)) none]

def isEncodable (pending : PendingEntry) : Bool :=
  decide (pending.length < 2 ^ 24 ∧
    ∀ ins ∈ (pending.resolve {}).1.instructions, ins.numbersFit = true)

theorem guardedFunction_survives_encoding :
    ∃ pending, emitProgram bareEnvironment guardedFunction = .ok pending ∧
      pending.Finishes (pending.resolve {}).1 (pending.resolve {}).2 ∧
      ∀ name, ∃ back, CodeEntry.ofBytes name (pending.resolve {}).1.toBytes = .ok back ∧
        back.instructions = (pending.resolve {}).1.instructions ∧
        back.length = (pending.resolve {}).1.length := by
  have encodable : endsWith isEncodable (emitProgram bareEnvironment guardedFunction) =
      true := by
    decide +kernel
  obtain ⟨pending, emitted, test⟩ := exists_of_endsWith encodable
  obtain ⟨short, fit⟩ := of_decide_eq_true test
  exact ⟨pending, emitted, emitted_entry_survives_encoding emitted {} short fit⟩

end GameScript.Emission
