import GameScript.Proofs.Listing.Instructions

/-! Listings are faithful.

Two entries with the same listing hold the same instructions, names taking the place of
numbers.  Lines tell the instructions but for their addresses; addresses follow from
lengths, and a block number tells the address at which its heading stands. -/

namespace GameScript.Listing

open Bytecode Emission

section Maps

variable {α β γ : Type} {f : α → γ} {g : β → γ} {xs : List α} {ys : List β}

theorem apply_eq_of_map_eq (same : xs.map f = ys.map g) {index : Nat} {x : α} {y : β}
    (isX : xs[index]? = some x) (isY : ys[index]? = some y) : f x = g y := by
  have found := congrArg (·[index]?) same
  simpa [isX, isY] using found

theorem map_eq_of_apply_eq (sizes : xs.length = ys.length)
    (each : ∀ (index : Nat) (x : α) (y : β), xs[index]? = some x → ys[index]? = some y →
      f x = g y) :
    xs.map f = ys.map g := by
  refine List.ext_getElem (by simpa using sizes) fun index inside inside' => ?_
  rw [List.getElem_map, List.getElem_map]
  exact each index _ _ (List.getElem?_eq_getElem _) (List.getElem?_eq_getElem _)

end Maps

def lineOf (entry : CodeEntry) (tables : NameTables) (ins : Instruction) : Line where
  block := (entry.blockAddresses tables).idxOf? ins.address
  body :=
    (operationName ins ++
      match operands entry tables (entry.blockAddresses tables) ins with
      | .ok text => text
      | .error _ => "").toList

theorem toList_instruction {entry : CodeEntry} {tables : NameTables} {ins : Instruction}
    {text : String}
    (shown : operands entry tables (entry.blockAddresses tables) ins = .ok text) :
    ∃ line, instruction entry tables (entry.blockAddresses tables) ins = .ok line ∧
      line.toList = (lineOf entry tables ins).chars := by
  unfold instruction
  simp only [shown]
  refine ⟨_, rfl, ?_⟩
  unfold lineOf Line.chars Line.heading operationName
  cases (entry.blockAddresses tables).idxOf? ins.address <;> simp [shown]

theorem mapM_ok {α β ε : Type} {f : α → Except ε β} {items : List α} {γ : Type} {g : β → γ}
    {h : α → γ} (each : ∀ item ∈ items, ∃ result, f item = .ok result ∧
      g result = h item) :
    ∃ results, items.mapM f = .ok results ∧ results.map g = items.map h := by
  induction items with
  | nil => exact ⟨[], rfl, rfl⟩
  | cons item rest induction =>
    rw [List.forall_mem_cons] at each
    obtain ⟨⟨result, done, isResult⟩, others⟩ := each
    obtain ⟨results, doneAll, areResults⟩ := induction others
    refine ⟨result :: results, ?_,
      by rw [List.map_cons, List.map_cons, isResult, areResults]⟩
    rw [List.mapM_cons, done, doneAll]
    rfl

theorem toList_listing {entry : CodeEntry} {tables : NameTables}
    (shown : ∀ ins ∈ entry.instructions.toList,
      ∃ text, operands entry tables (entry.blockAddresses tables) ins = .ok text) :
    ∃ text, entry.listing tables = .ok text ∧
      text.toList = ("# Name: " ++ entry.name ++ "\n").toList ++
        ((entry.instructions.toList.map (lineOf entry tables)).flatMap Line.chars ++
          Line.ending) := by
  obtain ⟨lines, done, spelled⟩ := mapM_ok (g := String.toList) fun ins member => by
    obtain ⟨text, isText⟩ := shown ins member
    exact toList_instruction isText
  unfold CodeEntry.listing
  simp only [done]
  refine ⟨_, rfl, ?_⟩
  have joined : (String.join lines).toList =
      (entry.instructions.toList.map (lineOf entry tables)).flatMap Line.chars := by
    rw [String.toList_join, List.flatMap_def, spelled, List.flatMap_def, List.map_map]
    rfl
  simp [joined, Line.ending]

end GameScript.Listing

namespace GameScript.Emission

open Bytecode Listing

variable {symbol : Option Symbol} {kind : OpcodeClass} {ins : Instruction}

theorem Finished.stored {tables : NameTables} (finished : Finished tables symbol kind ins)
    {name : String} {scope : Instance} {access : Access}
    (isSymbol : symbol = some (.var name scope access)) :
    (ins.named tables).stored = some ⟨name, scope.scope⟩ := by
  cases finished with
  | store _ _ _ _ stored => simp_all [Instruction.named]
  | push _ _ pushed => cases pushed <;> simp_all [Instruction.named]
  | _ => cases isSymbol

theorem Finished.function {tables : NameTables}
    (finished : Finished tables symbol kind ins) {name : String}
    (isSymbol : symbol = some (.function name)) :
    (ins.named tables).function = some name := by
  cases finished with
  | call _ _ stored => simp_all [Instruction.named]
  | push _ _ pushed => cases pushed <;> simp_all [Instruction.named]
  | _ => cases isSymbol

theorem Finished.still {tables : NameTables} (finished : Finished tables symbol kind ins)
    (isOther : ins.opcode.opcodeClass ≠ .branch) :
    ins.jump = 0 ∧ ins.leavesForGood = false := by
  cases finished with
  | branch _ isClass => exact absurd isClass isOther
  | _ => exact ⟨rfl, rfl⟩

end GameScript.Emission

namespace GameScript.Bytecode

open Emission Listing

theorem idxOf?_inj {items : List Nat} {x y index : Nat} (isX : items.idxOf? x = some index)
    (isY : items.idxOf? y = some index) : x = y := by
  rw [List.idxOf?, List.findIdx?_eq_some_iff_getElem] at isX isY
  obtain ⟨_, found, -⟩ := isX
  obtain ⟨_, found', -⟩ := isY
  exact (eq_of_beq found).symm.trans (eq_of_beq found')

theorem mayJump_of_branch {ins : Instruction} (isClass : ins.opcode.opcodeClass = .branch)
    (stays : ins.leavesForGood = false) : ins.mayJump = true := by
  unfold Instruction.mayJump
  cases opcode : ins.opcode <;> simp_all [Opcode.opcodeClass]

theorem jump_eq_of_target {ins ins' : Instruction} (addresses : ins.address = ins'.address)
    (targets : ins.target = ins'.target) : ins.jump = ins'.jump := by
  unfold Instruction.target at targets
  omega

theorem NamedInstruction.eq_of_unplaced {named other : NamedInstruction}
    (same : named.unplaced = other.unplaced)
    (address : named.bare.address = other.bare.address)
    (jump : named.bare.jump = other.bare.jump)
    (forGood : named.bare.leavesForGood = other.bare.leavesForGood) : named = other := by
  obtain ⟨⟨⟩, _, _, _⟩ := named
  obtain ⟨⟨⟩, _, _, _⟩ := other
  simp_all [unplaced]

theorem immediateInt?_named (tables : NameTables) (ins : Instruction) :
    (ins.named tables).bare.immediateInt? = ins.immediateInt? := by
  obtain ⟨_, _, _, _, _, _, _, _, _, _, immediate, _⟩ := ins
  cases immediate with
  | none => rfl
  | some value => cases value <;> rfl

theorem calls_named (tables : NameTables) (ins : Instruction) (name : String) :
    ins.calls tables name =
      ((ins.named tables).bare.opcode == .call && (ins.named tables).function ==
        some name) := by
  obtain ⟨_, _, _, _, _, _, _, _, _, _, _, reference⟩ := ins
  cases reference with
  | none => rfl
  | some reference => cases reference <;> rfl

theorem address_unique_of_lengths {start : Nat} {code code' : List Instruction}
    (lengths : code.map (·.length) = code'.map (·.length)) :
    (assignAddressesFrom start code).map (·.address) =
      (assignAddressesFrom start code').map (·.address) := by
  induction code generalizing start code' with
  | nil =>
    obtain rfl := List.map_eq_nil_iff.mp lengths.symm
    rfl
  | cons ins rest induction =>
    cases code' with
    | nil => cases lengths
    | cons ins' rest' =>
      obtain ⟨first, others⟩ := List.cons.inj lengths
      simp only [assignAddressesFrom, List.map_cons, first, induction others]

namespace CodeEntry

/-- What listings of an entry depend on: its instructions are finished, follow each other,
and branches lead to them or to the end. -/
structure Tells (entry : CodeEntry) (tables : NameTables) : Prop where
  finished :
    ∀ ins ∈ entry.instructions.toList, ∃ symbol kind, Finished tables symbol kind ins
  contiguous : assignAddresses entry.instructions.toList = entry.instructions.toList
  length : entry.length = codeLength entry.instructions.toList
  targets : ∀ ins ∈ entry.instructions, ins.mayJump = true → entry.Reaches ins.target

variable {entry entry' : CodeEntry} {tables tables' : NameTables}

/-- Variables and functions have names that a compiler gives or reads. -/
def HasNames (entry : CodeEntry) (tables : NameTables) : Prop :=
  ∀ named ∈ entry.named tables,
    (∀ stored, named.stored = some stored → IsName entry.name stored.name) ∧
      ∀ name, named.function = some name → IsName entry.name name

def PushesDouble (entry : CodeEntry) (x : Number.Double) : Prop :=
  ∃ ins ∈ entry.instructions.toList, ins.immediate = some (.double x)

/-- Numbers with fractions that the entries push have texts of their own: where none of
them is NaN, it suffices that no two other numbers have the same text. -/
def ShowApart (entry entry' : CodeEntry) : Prop :=
  ∀ x y, entry.PushesDouble x → entry'.PushesDouble y →
    x.render .plain = y.render .plain → x = y

structure IsLegible (entry : CodeEntry) (tables : NameTables) : Prop extends
    entry.Tells tables where
  unbroken : '\n' ∉ entry.name.toList
  names : entry.HasNames tables

namespace IsLegible

variable {ins : Instruction}

theorem finishedLegibly (legible : entry.IsLegible tables)
    (member : ins ∈ entry.instructions.toList) :
    ∃ symbol kind, Finished tables symbol kind ins ∧
      ∀ name, symbol = some name → name.IsLegible := by
  obtain ⟨symbol, kind, finished⟩ := legible.finished ins member
  obtain ⟨storedNames, functions⟩ := legible.names _ (List.mem_map_of_mem member)
  refine ⟨symbol, kind, finished, fun name isSymbol => ?_⟩
  cases name with
  | string text => trivial
  | var name scope access =>
    exact (storedNames _ (finished.stored isSymbol)).legible legible.unbroken
  | function name =>
    exact (functions _ (finished.function isSymbol)).legible legible.unbroken

theorem shown (legible : entry.IsLegible tables)
    (member : ins ∈ entry.instructions.toList) :
    ∃ text, operands entry tables (entry.blockAddresses tables) ins = .ok text ∧
      IsShown ins text ∧
      (lineOf entry tables ins).body = (operationName ins ++ text).toList := by
  obtain ⟨symbol, kind, finished, legibly⟩ := legible.finishedLegibly member
  obtain ⟨text, isText, isShown⟩ :=
    finished.isShown legibly entry (entry.blockAddresses tables)
  exact ⟨text, isText, isShown, by rw [lineOf, isText]⟩

theorem isWhole (legible : entry.IsLegible tables)
    (member : ins ∈ entry.instructions.toList) : (lineOf entry tables ins).IsWhole := by
  obtain ⟨text, -, isShown, spelled⟩ := legible.shown member
  have whole := isShown.isWhole (lineOf entry tables ins).block
  rwa [← spelled] at whole

/-- A line tells its instruction, but for the address and where it leads to. -/
theorem unplaced_unique (legible : entry.IsLegible tables)
    (legible' : entry'.IsLegible tables') (apart : entry.ShowApart entry')
    {ins' : Instruction} (member : ins ∈ entry.instructions.toList)
    (member' : ins' ∈ entry'.instructions.toList)
    (same : (lineOf entry tables ins).body = (lineOf entry' tables' ins').body) :
    (ins.named tables).unplaced = (ins'.named tables').unplaced ∧
      operands entry tables (entry.blockAddresses tables) ins =
        operands entry' tables' (entry'.blockAddresses tables') ins' := by
  obtain ⟨text, isText, isShown, spelled⟩ := legible.shown member
  obtain ⟨text', isText', isShown', spelled'⟩ := legible'.shown member'
  rw [spelled, spelled'] at same
  obtain ⟨opcodes, rfl⟩ := isShown.unique isShown' (String.toList_inj.mp same)
  obtain ⟨symbol, kind, finished, legibly⟩ := legible.finishedLegibly member
  obtain ⟨symbol', kind', finished', legibly'⟩ := legible'.finishedLegibly member'
  obtain rfl : kind = kind' := by rw [← finished.isClass, ← finished'.isClass, opcodes]
  refine ⟨finished.unique legibly legibly' finished' opcodes ?_ isText isText', ?_⟩
  · exact fun x y holds holds' => apart x y ⟨ins, member, holds⟩ ⟨ins', member', holds'⟩
  · rw [isText, isText']

end IsLegible

inductive LeadsTo (entry : CodeEntry) (tables : NameTables) (ins : Instruction)
    (text : String) : Prop where
  | forGood (isText : text = " [magic]") (leaves : ins.leavesForGood = true)
      (still : ins.jump = 0)
  | finish (isText : text = " [end]") (stays : ins.leavesForGood = false)
      (target : ins.target = entry.length)
  | block {other : Instruction} {block : Nat} (isText : text = s!" [{block}]")
      (stays : ins.leavesForGood = false) (member : other ∈ entry.instructions.toList)
      (target : ins.target = other.address)
      (isBlock : (entry.blockAddresses tables).idxOf? other.address = some block)

variable {ins : Instruction}

theorem Tells.address_lt (tells : entry.Tells tables)
    (member : ins ∈ entry.instructions.toList) : ins.address < entry.length := by
  have bounded : ∀ (code : List Instruction) (start : Nat),
      ∀ ins ∈ assignAddressesFrom start code, ins.address < start + codeLength code := by
    intro code
    induction code with
    | nil => exact fun _ => List.forall_mem_nil _
    | cons first rest induction =>
      intro start ins member
      have size : codeLength (first :: rest) = first.length + codeLength rest := rfl
      have four := first.four_le_length
      rcases List.mem_cons.mp member with rfl | later
      · change start < _
        omega
      · have bound := induction _ ins later
        omega
  have bound := bounded entry.instructions.toList 0 ins (by
    have contiguous := tells.contiguous
    rw [assignAddresses] at contiguous
    rwa [contiguous])
  rw [tells.length]
  omega

theorem Tells.leadsTo (tells : entry.Tells tables) (short : entry.length < 2 ^ 32)
    (member : ins ∈ entry.instructions.toList)
    (isClass : ins.opcode.opcodeClass = .branch) :
    LeadsTo entry tables ins (destination entry (entry.blockAddresses tables) ins) := by
  unfold destination
  cases leaves : ins.leavesForGood with
  | true =>
    have inside := tells.address_lt member
    obtain ⟨symbol, kind, finished⟩ := tells.finished ins member
    obtain rfl : kind = .branch := finished.isClass.symm.trans isClass
    have still : ins.jump = 0 := by
      cases finished with
      | branch _ _ still => exact still leaves
    have misses : ins.target ≠ entry.length := by
      unfold Instruction.target
      omega
    rw [if_neg misses, if_pos rfl]
    exact .forGood rfl leaves still
  | false =>
    have jumps := mayJump_of_branch isClass leaves
    by_cases ends : ins.target = entry.length
    · rw [if_pos ends]
      exact .finish rfl leaves ends
    · have reaches := tells.targets ins (Array.mem_toList_iff.mp member) jumps
      obtain ⟨other, isOther, target⟩ := reaches.resolve_right ends
      have memberOther := Array.mem_toList_iff.mpr isOther
      have inside := tells.address_lt memberOther
      obtain ⟨index, found⟩ := List.getElem?_of_mem member
      rw [Array.getElem?_toList] at found
      have listed : other.address ∈ entry.blockAddresses tables :=
        mem_blockAddresses_of_target found jumps target.symm (by omega)
      obtain ⟨block, isBlock⟩ :=
        Option.isSome_iff_exists.mp (List.isSome_idxOf?.mpr listed)
      rw [if_neg ends, if_neg Bool.false_ne_true, ← target, if_pos (Int.natCast_nonneg _),
        Int.toNat_natCast, isBlock]
      exact .block rfl leaves memberOther target.symm isBlock

/-- Where branches lead to is known from their lines and the headings of the other
instructions. -/
theorem LeadsTo.unique {ins' : Instruction} {text : String}
    (first : LeadsTo entry tables ins text) (second : LeadsTo entry' tables' ins' text)
    (addresses : ins.address = ins'.address) (lengths : entry.length = entry'.length)
    (headings : ∀ other ∈ entry.instructions.toList,
      (entry.blockAddresses tables).idxOf? other.address =
        (entry'.blockAddresses tables').idxOf? other.address) :
    ins.jump = ins'.jump ∧ ins.leavesForGood = ins'.leavesForGood := by
  have unnumbered (block : Nat) {c : Char} (rest : List Char)
    (noDigit : c.isDigit = false) :
      s!" [{block}]".toList ≠ ' ' :: '[' :: c :: rest := fun same => by
    have nonempty : Nat.toDigits 10 block ≠ [] := Nat.toDigits_ne_nil
    obtain ⟨d, word, digits⟩ := List.exists_cons_of_ne_nil nonempty
    have spelled : d = c ∧ word ++ [']'] = rest := by simpa [digits] using same
    exact notMem_toDigits block noDigit
      (by rw [digits, spelled.1]; exact List.mem_cons_self)
  cases first with
  | forGood isText leaves still =>
    cases second with
    | forGood _ leaves' still' =>
      exact ⟨still.trans still'.symm, leaves.trans leaves'.symm⟩
    | finish isText' => exact absurd (isText.symm.trans isText') (by decide)
    | block isText' =>
      exact absurd (congrArg String.toList (isText'.symm.trans isText))
        (unnumbered _ _ rfl)
  | finish isText stays target =>
    cases second with
    | forGood isText' => exact absurd (isText.symm.trans isText') (by decide)
    | finish _ stays' target' =>
      refine ⟨jump_eq_of_target addresses ?_, stays.trans stays'.symm⟩
      rw [target, target', lengths]
    | block isText' =>
      exact absurd (congrArg String.toList (isText'.symm.trans isText))
        (unnumbered _ _ rfl)
  | @block other n isText stays member target isBlock =>
    cases second with
    | forGood isText' =>
      exact absurd (congrArg String.toList (isText.symm.trans isText'))
        (unnumbered _ _ rfl)
    | finish isText' =>
      exact absurd (congrArg String.toList (isText.symm.trans isText'))
        (unnumbered _ _ rfl)
    | @block other' m isText' stays' member' target' isBlock' =>
      refine ⟨jump_eq_of_target addresses ?_, stays.trans stays'.symm⟩
      have digits : Nat.toDigits 10 n = Nat.toDigits 10 m := by
        simpa using congrArg String.toList (isText.symm.trans isText')
      obtain rfl := toDigits_inj digits
      rw [headings other member] at isBlock
      rw [target, target', idxOf?_inj isBlock isBlock']

theorem IsLegible.named_eq (legible : entry.IsLegible tables)
    (legible' : entry'.IsLegible tables') (short : entry.length < 2 ^ 32)
    (apart : entry.ShowApart entry')
    (same : entry.instructions.toList.map (lineOf entry tables) =
      entry'.instructions.toList.map (lineOf entry' tables')) :
    entry.named tables = entry'.named tables' := by
  have sizes : entry.instructions.toList.length = entry'.instructions.toList.length := by
    simpa using congrArg List.length same
  have told {index : Nat} {ins ins' : Instruction}
      (found : entry.instructions.toList[index]? = some ins)
      (found' : entry'.instructions.toList[index]? = some ins') :=
    legible.unplaced_unique legible' apart (List.mem_of_getElem? found)
      (List.mem_of_getElem? found')
      (congrArg Line.body (apply_eq_of_map_eq same found found'))
  have lengths : entry.instructions.toList.map (·.length) =
      entry'.instructions.toList.map (·.length) :=
    map_eq_of_apply_eq sizes fun index ins ins' found found' =>
      congrArg (·.bare.length) (told found found').1
  have addresses : entry.instructions.toList.map (·.address) =
      entry'.instructions.toList.map (·.address) := by
    rw [← legible.contiguous, ← legible'.contiguous]
    exact address_unique_of_lengths lengths
  have whole : entry.length = entry'.length := by
    rw [legible.length, legible'.length, codeLength_eq_sum, codeLength_eq_sum, lengths]
  have headings : ∀ other ∈ entry.instructions.toList,
      (entry.blockAddresses tables).idxOf? other.address =
        (entry'.blockAddresses tables').idxOf? other.address := by
    intro other member
    obtain ⟨index, found⟩ := List.getElem?_of_mem member
    have inside' : index < entry'.instructions.toList.length :=
      sizes ▸ (List.getElem?_eq_some_iff.mp found).1
    have found' := List.getElem?_eq_getElem inside'
    have blocks := congrArg Line.block (apply_eq_of_map_eq same found found')
    have address : other.address = _ := apply_eq_of_map_eq addresses found found'
    change _ = List.idxOf? _ _ at blocks
    rw [← address] at blocks
    exact blocks
  refine map_eq_of_apply_eq sizes fun index ins ins' found found' => ?_
  have address : ins.address = ins'.address := apply_eq_of_map_eq addresses found found'
  obtain ⟨unplaced, texts⟩ := told found found'
  have opcodes : ins.opcode = ins'.opcode := congrArg (·.bare.opcode) unplaced
  suffices leads : ins.jump = ins'.jump ∧ ins.leavesForGood = ins'.leavesForGood from
    NamedInstruction.eq_of_unplaced unplaced address leads.1 leads.2
  have member := List.mem_of_getElem? found
  have member' := List.mem_of_getElem? found'
  by_cases isClass : ins.opcode.opcodeClass = .branch
  · have isClass' : ins'.opcode.opcodeClass = .branch := opcodes ▸ isClass
    rw [operands_branch isClass, operands_branch isClass'] at texts
    have first := legible.leadsTo short member isClass
    have second := legible'.leadsTo (whole ▸ short) member' isClass'
    rw [← Except.ok.inj texts] at second
    exact first.unique second address whole headings
  · obtain ⟨symbol, kind, finished⟩ := legible.finished ins member
    obtain ⟨symbol', kind', finished'⟩ := legible'.finished ins' member'
    obtain ⟨jump, forGood⟩ := finished.still isClass
    obtain ⟨jump', forGood'⟩ := finished'.still (opcodes ▸ isClass)
    exact ⟨jump.trans jump'.symm, forGood.trans forGood'.symm⟩

/-! Equal instructions give equal listings. -/

theorem getElem?_named (entry : CodeEntry) (tables : NameTables) (index : Nat) :
    (entry.named tables)[index]? = entry.instructions[index]?.map
    (Instruction.named tables) := by
  rw [CodeEntry.named, List.getElem?_map, Array.getElem?_toList]

theorem blockStartsOf_congr (same : entry.named tables = entry'.named tables')
    (index : Nat) {ins' : Instruction} (here : ins.named tables = ins'.named tables') :
    entry.blockStartsOf tables index ins = entry'.blockStartsOf tables' index ins' := by
  have held (distance : Nat) :
      (entry.instructions[index - distance]?).bind Instruction.immediateInt? =
        (entry'.instructions[index - distance]?).bind Instruction.immediateInt? := by
    have found := congrArg (·[index - distance]?.bind (·.bare.immediateInt?)) same
    simpa only [getElem?_named, Option.bind_map, Function.comp_def, immediateInt?_named]
      using found
  have calls (name : String) : ins.calls tables name = ins'.calls tables' name := by
    rw [calls_named, calls_named, here]
  have address : ins.address = ins'.address := congrArg (·.bare.address) here
  have length : ins.length = ins'.length := congrArg (·.bare.length) here
  have target : ins.target = ins'.target := congrArg (·.bare.target) here
  have opcode : ins.opcode = ins'.opcode := congrArg (·.bare.opcode) here
  have forGood : ins.leavesForGood = ins'.leavesForGood :=
    congrArg (·.bare.leavesForGood) here
  simp only [blockStartsOf, held, calls, address, length, target, opcode, forGood]

theorem blockAddresses_congr (same : entry.named tables = entry'.named tables') :
    entry.blockAddresses tables = entry'.blockAddresses tables' := by
  have sizes : entry.instructions.toList.length = entry'.instructions.toList.length := by
    simpa [CodeEntry.named] using congrArg List.length same
  have starts : (entry.instructions.toList.zipIdx.map fun item =>
      entry.blockStartsOf tables item.2 item.1) =
        entry'.instructions.toList.zipIdx.map fun item =>
          entry'.blockStartsOf tables' item.2 item.1 := by
    refine map_eq_of_apply_eq (by simpa using sizes)
      fun index item item' found found' => ?_
    rw [List.getElem?_zipIdx] at found found'
    obtain ⟨ins, isHere, rfl⟩ := Option.map_eq_some_iff.mp found
    obtain ⟨ins', isHere', rfl⟩ := Option.map_eq_some_iff.mp found'
    exact blockStartsOf_congr same _ (apply_eq_of_map_eq same isHere isHere')
  have empty : entry.instructions.isEmpty = entry'.instructions.isEmpty := by
    have sizes : entry.instructions.size = entry'.instructions.size := by simpa using sizes
    rw [Array.isEmpty, Array.isEmpty, sizes]
  simp only [blockAddresses, empty, List.flatMap_def, starts]

theorem lines_congr (tells : entry.Tells tables) (tells' : entry'.Tells tables')
    (same : entry.named tables = entry'.named tables') :
    entry.instructions.toList.map (lineOf entry tables) =
      entry'.instructions.toList.map (lineOf entry' tables') := by
  have sizes : entry.instructions.toList.length = entry'.instructions.toList.length := by
    simpa [CodeEntry.named] using congrArg List.length same
  have lengths : entry.length = entry'.length := by
    rw [tells.length, tells'.length, codeLength_eq_sum, codeLength_eq_sum]
    have each := congrArg (List.map (·.bare.length)) same
    rw [CodeEntry.named, CodeEntry.named, List.map_map, List.map_map] at each
    exact congrArg List.sum each
  refine map_eq_of_apply_eq sizes fun index ins ins' found found' => ?_
  have here : ins.named tables = ins'.named tables' := apply_eq_of_map_eq same found found'
  obtain ⟨symbol, kind, finished⟩ := tells.finished ins (List.mem_of_getElem? found)
  obtain ⟨symbol', kind', finished'⟩ := tells'.finished ins' (List.mem_of_getElem? found')
  have address : ins.address = ins'.address := congrArg (·.bare.address) here
  have opcode : ins.opcode = ins'.opcode := congrArg (·.bare.opcode) here
  obtain rfl : kind = kind' := by rw [← finished.isClass, ← finished'.isClass, opcode]
  simp only [lineOf, operationName, blockAddresses_congr same, address, opcode,
    finished.operands_congr finished' here lengths]

/-- The entry was emitted for some program, and its names are among those of the tables. -/
def IsResolvedIn (entry : CodeEntry) (tables : NameTables) : Prop :=
  ∃ (pending : PendingEntry) (before : NameTables), pending.IsEmitted ∧
    entry = (pending.resolve before).1 ∧ TablesExtend (pending.resolve before).2 tables

theorem IsResolvedIn.tells (resolved : entry.IsResolvedIn tables)
    (short : entry.length < 2 ^ 32) : entry.Tells tables := by
  obtain ⟨pending, before, ⟨env, program, emitted⟩, rfl, more⟩ := resolved
  obtain ⟨piece, rests, isCode⟩ :=
    emitProgram_isCode (emitStmts_rests program [] [] .ofNothing) emitted
  refine ⟨fun ins member => ?_, isCode.contiguous before, ?_,
    (isCode.branchesClosed short (Carries.leads rests) before).targets⟩
  · obtain ⟨index, found⟩ := Array.getElem?_of_mem (Array.mem_toList_iff.mp member)
    obtain ⟨cell, foundCell, refers⟩ := isCode.instruction_cell before found
    have form := Carries.forms rests cell (List.mem_of_getElem? foundCell)
    exact ⟨cell.symbol, form.finished (refers.extend more)⟩
  · rw [← isCode.length_encode before, Codec.length_encode]

theorem IsLegible.listing (legible : entry.IsLegible tables) :
    ∃ text, entry.listing tables = .ok text ∧
      text.toList = ("# Name: " ++ entry.name ++ "\n").toList ++
        ((entry.instructions.toList.map (lineOf entry tables)).flatMap Line.chars ++
          Line.ending) := by
  refine toList_listing fun ins member => ?_
  obtain ⟨text, isText, -⟩ := legible.shown member
  exact ⟨text, isText⟩

/-- Listings of entries with one name are the same if and only if their instructions are,
with names for numbers. -/
theorem listing_eq_iff_named_eq (resolved : entry.IsResolvedIn tables)
    (resolved' : entry'.IsResolvedIn tables') (sameName : entry.name = entry'.name)
    (unbroken : '\n' ∉ entry.name.toList) (names : entry.HasNames tables)
    (names' : entry'.HasNames tables') (short : entry.length < 2 ^ 32)
    (short' : entry'.length < 2 ^ 32) (apart : entry.ShowApart entry') :
    ∃ text text', entry.listing tables = .ok text ∧ entry'.listing tables' = .ok text' ∧
      (text = text' ↔ entry.named tables = entry'.named tables') := by
  have legible : entry.IsLegible tables := ⟨resolved.tells short, unbroken, names⟩
  have legible' : entry'.IsLegible tables' :=
    ⟨resolved'.tells short', sameName ▸ unbroken, names'⟩
  obtain ⟨text, listed, spelled⟩ := legible.listing
  obtain ⟨text', listed', spelled'⟩ := legible'.listing
  refine ⟨text, text', listed, listed', fun same => ?_, fun same => ?_⟩
  · refine legible.named_eq legible' short apart (Line.lines_unique ?_ ?_ ?_)
    · exact List.forall_mem_map.mpr fun ins member => legible.isWhole member
    · exact List.forall_mem_map.mpr fun ins member => legible'.isWhole member
    · rw [same, spelled', sameName] at spelled
      exact (List.append_cancel_left spelled).symm
  · refine String.toList_inj.mp ?_
    rw [spelled, spelled', sameName, lines_congr legible.toTells legible'.toTells same]

end CodeEntry

end GameScript.Bytecode

namespace GameScript.Emission

open Bytecode Listing Number Syntax

/-! A loop whose names have other numbers in other tables. -/

def half : Double := ⟨0x3FE0000000000000⟩

/-- `while (a < 0.5) print("b");`. -/
def waitingLoop : Program :=
  [.whileLoop 0
    (.binary 0 .lt [.var { pos := 0, name := "a" } [], .literal 0 (.number half)])
    (.expr 0 (.call { pos := 0, name := "print" } [.literal 0 (.string "b")]))]

def crowdedTables : NameTables :=
  { strings := ⟨["c"]⟩, functions := ⟨["show"]⟩, vars := ⟨[⟨"d", .self⟩]⟩ }

/-- The value is no other number with a fraction. -/
def isAtMostHalf : Immediate → Bool
  | .double x => x = half
  | _ => true

/-- The entry is short, its names are identifiers or those of the runtime, and its only
number with a fraction is a half. -/
def isPlain (entry : CodeEntry) (tables : NameTables) : Bool :=
  decide (entry.length < 2 ^ 32 ∧ '\n' ∉ entry.name.toList ∧ ∀ named ∈ entry.named tables,
    (∀ stored ∈ named.stored, isIdentifier stored.name = true) ∧
      (∀ name ∈ named.function, name ∈ runtimeNames) ∧
      ∀ value ∈ named.bare.immediate, isAtMostHalf value = true)

theorem hasNames_of_isPlain {entry : CodeEntry} {tables : NameTables}
    (plain : isPlain entry tables = true) : entry.HasNames tables := fun named member =>
  have ⟨storedNames, functions, _⟩ := (of_decide_eq_true plain).2.2 named member
  ⟨fun stored isStored => .identifier (storedNames stored isStored),
    fun name isFunction => .runtime (functions name isFunction)⟩

theorem eq_half_of_isPlain {entry : CodeEntry} {tables : NameTables} {x : Double}
    (plain : isPlain entry tables = true) (pushes : entry.PushesDouble x) : x = half := by
  obtain ⟨ins, member, isDouble⟩ := pushes
  obtain ⟨-, -, values⟩ := (of_decide_eq_true plain).2.2 _ (List.mem_map_of_mem member)
  have value :=
    values (.double x) (by simp [Instruction.named, isDouble, Immediate.unnumbered])
  exact of_decide_eq_true value

/-- The entry is plain, with other instructions in each of the tables. -/
def isListable (pending : PendingEntry) : Bool :=
  isPlain (pending.resolve {}).1 (pending.resolve {}).2 &&
    isPlain (pending.resolve crowdedTables).1 (pending.resolve crowdedTables).2 &&
    decide ((pending.resolve {}).1.instructions ≠
      (pending.resolve crowdedTables).1.instructions)

theorem waitingLoop_listing_faithful :
    ∃ pending, emitProgram bareEnvironment waitingLoop = .ok pending ∧
      (pending.resolve {}).1.instructions ≠
      (pending.resolve crowdedTables).1.instructions ∧
      ∃ text text', (pending.resolve {}).1.listing (pending.resolve {}).2 = .ok text ∧
        (pending.resolve crowdedTables).1.listing
        (pending.resolve crowdedTables).2 = .ok text' ∧
        (text = text' ↔ (pending.resolve {}).1.named (pending.resolve {}).2 =
          (pending.resolve crowdedTables).1.named (pending.resolve crowdedTables).2) := by
  have listable :
      endsWith isListable (emitProgram bareEnvironment waitingLoop) = true := by
    decide +kernel
  obtain ⟨pending, emitted, test⟩ := exists_of_endsWith listable
  simp only [isListable, Bool.and_eq_true, decide_eq_true_eq] at test
  obtain ⟨⟨plain, plain'⟩, differ⟩ := test
  have isEmitted : pending.IsEmitted := ⟨_, _, emitted⟩
  refine ⟨pending, emitted, differ, CodeEntry.listing_eq_iff_named_eq
    ⟨pending, {}, isEmitted, rfl, .refl _⟩
    ⟨pending, crowdedTables, isEmitted, rfl, .refl _⟩ rfl
    (of_decide_eq_true plain).2.1 (hasNames_of_isPlain plain) (hasNames_of_isPlain plain')
    (of_decide_eq_true plain).1 (of_decide_eq_true plain').1
    fun x y pushes pushes' _ => ?_⟩
  rw [eq_half_of_isPlain plain pushes, eq_half_of_isPlain plain' pushes']

end GameScript.Emission
