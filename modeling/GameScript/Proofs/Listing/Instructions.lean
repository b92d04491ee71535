import GameScript.Proofs.Emission.References
import GameScript.Proofs.Listing.Text

/-! Lines of instructions.

A line tells all of a finished instruction but its address, and where a branch leads to,
provided that its names are legible. -/

namespace GameScript.Bytecode

def Immediate.unnumbered : Immediate → Immediate
  | .string _ => .string 0
  | immediate => immediate

def Reference.unnumbered : Reference → Reference
  | .var _ access => .var 0 access
  | .function _ => .function 0

/-- An instruction whose numbers have given way to what they look up to. -/
structure NamedInstruction where
  bare : Instruction
  text : Option String
  stored : Option StoredVariable
  function : Option String
deriving DecidableEq, Repr

def Instruction.named (tables : NameTables) (ins : Instruction) : NamedInstruction where
  bare :=
    { ins with
      immediate := ins.immediate.map Immediate.unnumbered
      reference := ins.reference.map Reference.unnumbered }
  text :=
    match ins.immediate with
    | some (.string id) => tables.strings.get? id
    | _ => none
  stored :=
    match ins.reference with
    | some (.var id _) => tables.vars.get? id
    | _ => none
  function :=
    match ins.reference with
    | some (.function id) => tables.functions.get? id
    | _ => none

def CodeEntry.named (entry : CodeEntry) (tables : NameTables) : List NamedInstruction :=
  entry.instructions.toList.map (·.named tables)

def NamedInstruction.unplaced (named : NamedInstruction) : NamedInstruction :=
  { named with
    bare := { named.bare with address := 0, jump := 0, leavesForGood := false } }

/-! Names of operations and types. -/

theorem DataType.toList_name (type : DataType) : type.name.toList = [type.letter] := by
  cases type <;> rfl

theorem DataType.letter_inj {type other : DataType} (same : type.letter = other.letter) :
    type = other := by
  revert same
  cases type <;> cases other <;> decide

theorem Comparison.name_inj {kind other : Comparison} (same : kind.name = other.name) :
    kind = other := by
  revert same
  cases kind <;> cases other <;> decide

theorem Opcode.ofName?_name (opcode : Opcode) : ofName? opcode.name = some opcode := by
  cases opcode <;> decide

theorem Opcode.name_inj {opcode other : Opcode} (same : opcode.name = other.name) :
    opcode = other := by
  have found : some opcode = some other := by rw [← ofName?_name, ← ofName?_name, same]
  exact Option.some.inj found

theorem Extension.name_inj {extension other : Extension}
    (same : extension.name = other.name) : extension = other := by
  revert same
  cases extension <;> cases other <;> decide

theorem Extension.name_ne_opcode (extension : Extension) (opcode : Opcode) :
    extension.name ≠ opcode.name := by
  intro same
  have unnamed : Opcode.ofName? extension.name = none := by cases extension <;> decide
  rw [same, Opcode.ofName?_name] at unnamed
  cases unnamed

theorem Extension.code_of_ofCode? {number : Int16} {extension : Extension}
    (isExtension : ofCode? number = some extension) : extension.code = number := by
  simpa using List.find?_some isExtension

end GameScript.Bytecode

namespace GameScript.Listing

open Bytecode Emission Number

/-! Texts of finished instructions. -/

section Operands

variable {entry : CodeEntry} {tables : NameTables} {blocks : List Nat} {address : Nat}

theorem variableText_eq (ins : Instruction) {id : Nat} {access : Access}
    {stored : StoredVariable} (refers : ins.reference = some (.var id access))
    (isStored : tables.vars.get? id = some stored) :
    variableText tables ins = .ok (variableShown ins.owner access stored) := by
  have found := NameTables.storedVariable_eq_ok.mpr isStored
  unfold variableText variableShown placeShown
  simp only [refers, found]
  change (if access = .normal then _ else _) = _
  split
  · rfl
  · simp only [toString_string, String.append_assoc]
    rfl

/-- How often a value is duplicated, or how many arguments a value is called with. -/
def copiesShown (opcode : Opcode) (extra : UInt8) : String :=
  match opcode with
  | .duplicate | .callValue => s!" {extra.toNat}"
  | _ => ""

variable {opcode : Opcode} {type1 type2 : DataType}

theorem operands_single {type : DataType} {extra : UInt8}
    (isClass : opcode.opcodeClass = .singleType) :
    operands entry tables blocks { address, opcode, type1 := type, extra } =
      .ok s!".{type.name}{copiesShown opcode extra}" := by
  cases opcode with
  | duplicate => exact congrArg Except.ok (by simp [copiesShown])
  | _ => first | rfl | cases isClass

theorem operands_operator (isClass : opcode.opcodeClass = .doubleType) :
    operands entry tables blocks { address, opcode, type1, type2 } =
      .ok s!".{type1.name}.{type2.name}" := by
  simp only [operands, isClass]
  rfl

theorem operands_comparison {kind : Comparison} : operands entry tables blocks
        { address, opcode := .compare, type1, type2, comparison := some kind } =
      .ok s!".{type1.name}.{type2.name} {kind.name}" := rfl

theorem operands_store {owner : Instance} {id : Nat} {access : Access}
    {stored : StoredVariable} (stores : type1 ≠ .int16)
    (isStored : tables.vars.get? id = some stored) :
    operands entry tables blocks
        { address, opcode := .pop, type1, type2, owner,
          reference := some (.var id access) } =
      .ok s!".{type1.name}.{type2.name} {variableShown owner access stored}" := by
  simp only [operands, Opcode.opcodeClass, if_neg stores]
  rw [variableText_eq _ rfl isStored]
  rfl

theorem operands_call {id : Nat} {name : String} {count : Int16}
    (isStored : tables.functions.get? id = some name) :
    operands entry tables blocks
        { address, opcode := .call, immediate := some (.int16 count)
          reference := some (.function id) } =
      .ok s!".{DataType.int32.name} {name} {count.toInt.toNat}" := by
  have found := NameTables.function_eq_ok.mpr isStored
  simp only [operands, Opcode.opcodeClass, found]
  rfl

theorem operands_extended {type : DataType} {number : Int16} {extension : Extension}
    (isExtension : Extension.ofCode? number = some extension) :
    operands entry tables blocks
        { address, opcode := .extended, type1 := type
          immediate := some (.int16 number) } =
      .ok s!"{extension.name}.{type.name}" := by
  simp only [operands, Opcode.opcodeClass, Instruction.extension?, isExtension]
  rfl

theorem operands_branch {ins : Instruction} (isClass : ins.opcode.opcodeClass = .branch) :
    operands entry tables blocks ins = .ok (destination entry blocks ins) := by
  simp only [operands, isClass]
  rfl

def valueShown (symbol : Option Symbol) (owner : Instance) (immediate : Option Immediate) :
    String :=
  match symbol with
  | some (.var name scope access) => variableShown owner access ⟨name, scope.scope⟩
  | some (.string text) => "\"" ++ sanitize text ++ "\""
  | some (.function name) => name
  | none => Listing.immediate immediate

theorem operands_push {symbol : Option Symbol}
    {owner : Instance} {immediate : Option Immediate} {reference : Option Reference}
    (isClass : opcode.opcodeClass = .push)
    (pushed : Pushed tables symbol type1 owner immediate reference) :
    operands entry tables blocks { address, opcode, type1, owner, immediate, reference } =
      .ok s!".{type1.name} {valueShown symbol owner immediate}" := by
  simp only [operands, isClass]
  cases pushed with
  | var _ stored =>
    rw [if_pos rfl, variableText_eq _ rfl stored]
    rfl
  | string stored =>
    have found := NameTables.string_eq_ok.mpr stored
    simp only [found]
    rfl
  | function stored =>
    have found := NameTables.function_eq_ok.mpr stored
    simp only [found]
    rfl
  | _ => rfl

end Operands

end GameScript.Listing

namespace GameScript.Emission

open Bytecode Listing

/-! Instructions told by their lines. -/

/-- The names in the code of an entry can be read back from listings. -/
def Symbol.IsLegible : Symbol → Prop
  | .string _ => True
  | .var name _ _ => Legible name
  | .function name => Legible name

theorem Legible.ne_repr {name : String} (legible : Legible name) (n : Int) :
    name ≠ n.repr := by
  rintro rfl
  obtain ⟨c, rest, spelled, isNumber⟩ := toList_repr_eq_cons n
  have begins := legible.begins
  rw [spelled] at begins
  simp [beginsName, isNumber] at begins

theorem copiesShown_unique {opcode : Opcode} {extra other : UInt8}
    (counts : extra ≠ 0 → opcode = .duplicate ∨ opcode = .callValue)
    (countsOther : other ≠ 0 → opcode = .duplicate ∨ opcode = .callValue)
    (same : copiesShown opcode extra = copiesShown opcode other) : extra = other := by
  have counted (isShown : s!" {extra.toNat}" = s!" {other.toNat}") : extra = other := by
    have spelled : Nat.toDigits 10 extra.toNat = Nat.toDigits 10 other.toNat := by
      simpa using congrArg String.toList isShown
    exact UInt8.toNat_inj.mp (toDigits_inj spelled)
  by_cases isCounted : opcode = .duplicate ∨ opcode = .callValue
  · rcases isCounted with rfl | rfl <;> exact counted same
  · have isZero : extra = 0 :=
      Decidable.byContradiction fun nonzero => isCounted (counts nonzero)
    have isZero' : other = 0 :=
      Decidable.byContradiction fun nonzero => isCounted (countsOther nonzero)
    rw [isZero, isZero']

section Unique

variable {tables tables' : NameTables} {symbol symbol' : Option Symbol}
  {ins ins' : Instruction} (legible : ∀ name, symbol = some name → name.IsLegible)
  (legible' : ∀ name, symbol' = some name → name.IsLegible)

theorem scope_unique {name name' : String} {scope scope' owner owner' : Instance}
    {access access' : Access} (nameLegible : Legible name) (nameLegible' : Legible name')
    (plain : access = .normal → owner = scope)
    (plain' : access' = .normal → owner' = scope')
    (same : variableShown owner access ⟨name, scope.scope⟩ =
      variableShown owner' access' ⟨name', scope'.scope⟩) :
    owner = owner' ∧ access = access' ∧ name = name' ∧ scope.scope = scope'.scope := by
  obtain ⟨rfl, rfl, names, scopes⟩ := variableShown_unique nameLegible nameLegible' same
  refine ⟨rfl, rfl, names, ?_⟩
  by_cases normal : access = .normal
  · rw [← plain normal, ← plain' normal]
  · exact scopes normal

include legible legible'

theorem Pushed.unique {type1 : DataType} {owner owner' : Instance}
    {immediate immediate' : Option Immediate} {reference reference' : Option Reference}
    (first : Pushed tables symbol type1 owner immediate reference)
    (second : Pushed tables' symbol' type1 owner' immediate' reference')
    (apart : ∀ x y, immediate = some (.double x) → immediate' = some (.double y) →
      x.render .plain = y.render .plain → x = y)
    (same : valueShown symbol owner immediate = valueShown symbol' owner' immediate')
    (address : Nat) (opcode : Opcode) :
    ({ address, opcode, type1, owner, immediate, reference } : Instruction).named tables =
      ({ address, opcode, type1, owner := owner', immediate := immediate'
         reference := reference' } : Instruction).named tables' := by
  cases first with
  | var plain stored =>
    cases second with
    | var plain' stored' =>
      obtain ⟨rfl, rfl, rfl, scopes⟩ :=
        scope_unique (legible _ rfl) (legible' _ rfl) plain plain' same
      simp [Instruction.named, stored, stored', scopes, Reference.unnumbered]
  | int16 value =>
    cases second with
    | int16 value' => rw [Int16.toInt_inj.mp (repr_int_inj same)]; rfl
  | int32 value =>
    cases second with
    | int32 value' => rw [Int32.toInt_inj.mp (repr_int_inj same)]; rfl
    | function => exact absurd same.symm (Legible.ne_repr (legible' _ rfl) _)
  | int64 value =>
    cases second with
    | int64 value' => rw [Int64.toInt_inj.mp (repr_int_inj same)]; rfl
  | double value =>
    cases second with
    | double value' => rw [apart value value' rfl rfl same]; rfl
  | string stored =>
    cases second with
    | string stored' =>
      obtain rfl := sanitize_inj (by simpa [valueShown] using same)
      simp [Instruction.named, stored, stored', Immediate.unnumbered]
  | @function _ name stored =>
    cases second with
    | int32 => exact absurd same (Legible.ne_repr (legible _ rfl) _)
    | @function _ name' stored' =>
      obtain rfl : name = name' := same
      simp [Instruction.named, stored, stored', Reference.unnumbered]

/-- Two finished instructions of one operation with the same operands differ at most in
their addresses and in where they lead to. -/
theorem Finished.unique {kind : OpcodeClass} {entry entry' : CodeEntry}
    {blocks blocks' : List Nat} {text : String} (first : Finished tables symbol kind ins)
    (second : Finished tables' symbol' kind ins') (opcodes : ins.opcode = ins'.opcode)
    (apart : ∀ x y, ins.immediate = some (.double x) → ins'.immediate = some (.double y) →
      x.render .plain = y.render .plain → x = y)
    (shown : operands entry tables blocks ins = .ok text)
    (shown' : operands entry' tables' blocks' ins' = .ok text) :
    (ins.named tables).unplaced = (ins'.named tables').unplaced := by
  cases first with
  | @single _ opcode type extra isClass counts =>
    cases second with
    | @single _ opcode' type' extra' isClass' counts' =>
      obtain rfl : opcode = opcode' := opcodes
      rw [operands_single isClass] at shown
      rw [operands_single isClass, ← shown] at shown'
      obtain ⟨letters, copies⟩ : type'.letter = type.letter ∧
          (copiesShown opcode extra').toList = (copiesShown opcode extra).toList := by
        simpa [DataType.toList_name] using congrArg String.toList (Except.ok.inj shown')
      obtain rfl := DataType.letter_inj letters
      obtain rfl := copiesShown_unique counts counts' (String.toList_inj.mp copies.symm)
      rfl
  | @operator _ opcode type1 type2 isClass =>
    cases second with
    | @operator _ opcode' type1' type2' isClass' =>
      obtain rfl : opcode = opcode' := opcodes
      rw [operands_operator isClass] at shown
      rw [operands_operator isClass, ← shown] at shown'
      obtain ⟨letters1, letters2⟩ :
          type1'.letter = type1.letter ∧ type2'.letter = type2.letter := by
        simpa [DataType.toList_name] using congrArg String.toList (Except.ok.inj shown')
      rw [DataType.letter_inj letters1, DataType.letter_inj letters2]
      rfl
  | comparison _ type1 type2 kind =>
    cases second with
    | comparison _ type1' type2' kind' =>
      rw [operands_comparison] at shown
      rw [operands_comparison, ← shown] at shown'
      obtain ⟨letters1, letters2, kinds⟩ : type1'.letter = type1.letter ∧
          type2'.letter = type2.letter ∧ kind'.name.toList = kind.name.toList := by
        simpa [DataType.toList_name] using congrArg String.toList (Except.ok.inj shown')
      rw [DataType.letter_inj letters1, DataType.letter_inj letters2,
        Comparison.name_inj (String.toList_inj.mp kinds)]
      rfl
  | @branch _ opcode =>
    cases second with
    | @branch _ opcode' =>
      obtain rfl : opcode = opcode' := opcodes
      rfl
  | @store _ type1 type2 _ name scope owner access stores plain stored =>
    cases second with
    | @store _ type1' type2' _ name' scope' owner' access' stores' plain' stored' =>
      rw [operands_store stores stored] at shown
      rw [operands_store stores' stored', ← shown] at shown'
      obtain ⟨letters1, letters2, places⟩ : type1'.letter = type1.letter ∧
          type2'.letter = type2.letter ∧
          (variableShown owner' access' ⟨name', scope'.scope⟩).toList =
            (variableShown owner access ⟨name, scope.scope⟩).toList := by
        simpa [DataType.toList_name] using congrArg String.toList (Except.ok.inj shown')
      obtain rfl := DataType.letter_inj letters1
      obtain rfl := DataType.letter_inj letters2
      obtain ⟨rfl, rfl, rfl, scopes⟩ :=
        scope_unique (legible _ rfl) (legible' _ rfl) plain plain'
        (String.toList_inj.mp places.symm)
      simp [Instruction.named, NamedInstruction.unplaced, stored, stored', scopes,
        Reference.unnumbered]
  | @push _ opcode _ type1 owner immediate _ isClass pushed =>
    cases second with
    | @push _ opcode' _ type1' owner' immediate' _ isClass' pushed' =>
      obtain rfl : opcode = opcode' := opcodes
      rw [operands_push isClass pushed] at shown
      rw [operands_push isClass pushed', ← shown] at shown'
      obtain ⟨letters, values⟩ : type1'.letter = type1.letter ∧
          (valueShown symbol' owner' immediate').toList =
            (valueShown symbol owner immediate).toList := by
        simpa [DataType.toList_name] using congrArg String.toList (Except.ok.inj shown')
      obtain rfl := DataType.letter_inj letters
      have named := pushed.unique legible legible' pushed' apart
        (String.toList_inj.mp values.symm) 0 opcode
      have unplaced := congrArg NamedInstruction.unplaced named
      exact unplaced
  | @call _ _ name count counts stored =>
    cases second with
    | @call _ _ name' count' counts' stored' =>
      rw [operands_call stored] at shown
      rw [operands_call stored', ← shown] at shown'
      have spelled : name'.toList ++ ' ' :: Nat.toDigits 10 count'.toInt.toNat =
          name.toList ++ ' ' :: Nat.toDigits 10 count.toInt.toNat := by
        simpa [DataType.toList_name] using congrArg String.toList (Except.ok.inj shown')
      obtain ⟨names, numbers⟩ :=
        cut_last_unique (notMem_toDigits _ rfl) (notMem_toDigits _ rfl) spelled
      obtain rfl := String.toList_inj.mp names
      obtain rfl : count = count' :=
        Int16.toInt_inj.mp (by have := toDigits_inj numbers; omega)
      simp [Instruction.named, NamedInstruction.unplaced, stored, stored',
        Reference.unnumbered]
  | @extended _ type number extension isExtension =>
    cases second with
    | @extended _ type' number' extension' isExtension' =>
      rw [operands_extended isExtension] at shown
      rw [operands_extended isExtension', ← shown] at shown'
      have spelled : extension'.name.toList ++ '.' :: [type'.letter] =
          extension.name.toList ++ '.' :: [type.letter] := by
        simpa [DataType.toList_name] using congrArg String.toList (Except.ok.inj shown')
      have undotted (extension : Extension) : '.' ∉ extension.name.toList := by
        cases extension <;> decide
      obtain ⟨names, letters⟩ := cut_at_unique (undotted _) (undotted _) spelled
      obtain rfl := DataType.letter_inj (List.cons.inj letters).1
      obtain rfl := Extension.name_inj (String.toList_inj.mp names)
      rw [← Extension.code_of_ofCode? isExtension,
        ← Extension.code_of_ofCode? isExtension']
      rfl

end Unique

end GameScript.Emission

namespace GameScript.Listing

open Bytecode Emission

def operationName (ins : Instruction) : String :=
  if ins.opcode = .extended then "" else ins.opcode.name

/-- Operands stay on their line, and the name of the operation ends where it should. -/
structure IsShown (ins : Instruction) (text : String) : Prop where
  unbroken : '\n' ∉ text.toList
  plain : ins.opcode ≠ .extended → ∃ c rest, text.toList = c :: rest ∧ c.isLower = false
  extended : ins.opcode = .extended →
    ∃ (extension : Extension) (rest : List Char), text.toList =
      extension.name.toList ++ '.' :: rest

namespace IsShown

variable {ins ins' : Instruction} {text text' : String}

theorem of_begin {c : Char} {rest : List Char} (isPlain : ins.opcode ≠ .extended)
    (begins : text.toList = c :: rest) (ends : c.isLower = false)
    (unbroken : '\n' ∉ text.toList) : IsShown ins text :=
  ⟨unbroken, fun _ => ⟨c, rest, begins, ends⟩, fun isExtended => absurd isExtended isPlain⟩

theorem cut (shown : IsShown ins text) :
    ∃ word c rest, (operationName ins ++ text).toList = word ++ c :: rest ∧
      (∀ x ∈ word, x.isLower = true) ∧ c.isLower = false ∧
      (ins.opcode ≠ .extended → word = ins.opcode.name.toList ∧ text.toList = c :: rest) ∧
      (ins.opcode = .extended →
        ∃ extension : Extension, word = extension.name.toList) := by
  by_cases isExtended : ins.opcode = .extended
  · obtain ⟨extension, rest, spelled⟩ := shown.extended isExtended
    have lower :
        extension.name.toList.all Char.isLower = true := by cases extension <;> decide
    refine ⟨_, '.', rest, ?_, List.all_eq_true.mp lower, rfl,
      fun isPlain => absurd isExtended isPlain, fun _ => ⟨extension, rfl⟩⟩
    rw [operationName, if_pos isExtended, String.empty_append, spelled]
  · obtain ⟨c, rest, spelled, ends⟩ := shown.plain isExtended
    have lower : ins.opcode.name.toList.all Char.isLower = true := by
      cases ins.opcode <;> decide
    refine ⟨_, c, rest, ?_, List.all_eq_true.mp lower, ends, fun _ => ⟨rfl, spelled⟩,
      fun extended => absurd extended isExtended⟩
    rw [operationName, if_neg isExtended, String.toList_append, spelled]

theorem unique (first : IsShown ins text) (second : IsShown ins' text')
    (same : operationName ins ++ text = operationName ins' ++ text') :
    ins.opcode = ins'.opcode ∧ text = text' := by
  obtain ⟨word, c, rest, spelled, lower, ends, plain, extended⟩ := first.cut
  obtain ⟨word', c', rest', spelled', lower', ends', plain', extended'⟩ := second.cut
  rw [same, spelled'] at spelled
  obtain ⟨rfl, rfl, rfl⟩ := cut_unique (·.isLower = true) lower' lower (by simp [ends'])
    (by simp [ends]) spelled
  by_cases isExtended : ins.opcode = .extended <;> by_cases isExtended' :
    ins'.opcode = .extended
  · rw [operationName, if_pos isExtended, operationName, if_pos isExtended',
      String.empty_append, String.empty_append] at same
    exact ⟨isExtended.trans isExtended'.symm, same⟩
  · obtain ⟨extension, isName⟩ := extended isExtended
    exact absurd (String.toList_inj.mp (isName.symm.trans (plain' isExtended').1))
      (extension.name_ne_opcode _)
  · obtain ⟨extension, isName⟩ := extended' isExtended'
    exact absurd (String.toList_inj.mp (isName.symm.trans (plain isExtended).1))
      (extension.name_ne_opcode _)
  · obtain ⟨names, texts⟩ := plain isExtended
    obtain ⟨names', texts'⟩ := plain' isExtended'
    exact ⟨Opcode.name_inj (String.toList_inj.mp (names.symm.trans names')),
      String.toList_inj.mp (texts.trans texts'.symm)⟩

theorem isWhole (shown : IsShown ins text) (block : Option Nat) :
    Line.IsWhole ⟨block, (operationName ins ++ text).toList⟩ where
  nonempty := by
    obtain ⟨word, c, rest, spelled, -⟩ := shown.cut
    change (operationName ins ++ text).toList ≠ []
    rw [spelled]
    simp
  unbroken := by
    have named : '\n' ∉ (operationName ins).toList := by
      unfold operationName
      split
      · decide
      · cases ins.opcode <;> decide
    simp [named, shown.unbroken]

end IsShown

theorem newline_notMem_name (type : DataType) : '\n' ∉ type.name.toList := by
  cases type <;> decide

theorem destination_isShown (entry : CodeEntry) (blocks : List Nat) {ins : Instruction}
    (isClass : ins.opcode.opcodeClass = .branch) :
    IsShown ins (destination entry blocks ins) := by
  have isPlain : ins.opcode ≠ .extended := by
    rintro isExtended
    rw [isExtended] at isClass
    cases isClass
  have digits (n : Nat) : '\n' ∉ Nat.toDigits 10 n := notMem_toDigits n rfl
  have number (n : Int) : '\n' ∉ n.repr.toList := fun member =>
    absurd (beginsNumber_of_mem_repr member) (by decide)
  unfold destination
  split
  · exact .of_begin isPlain rfl rfl (by decide)
  · split
    · exact .of_begin isPlain rfl rfl (by decide)
    · dsimp only
      split
      · exact .of_begin (c := ' ') isPlain (by simp; rfl) rfl (by simp [digits])
      · exact .of_begin (c := ' ') isPlain (by simp; rfl) rfl (by simp [number])

theorem newline_notMem_valueShown {tables : NameTables} {symbol : Option Symbol}
    {type1 : DataType} {owner : Instance} {immediate : Option Immediate}
    {reference : Option Reference}
    (pushed : Pushed tables symbol type1 owner immediate reference)
    (legible : ∀ name, symbol = some name → name.IsLegible) :
    '\n' ∉ (valueShown symbol owner immediate).toList := by
  have number (n : Int) : '\n' ∉ n.repr.toList := fun member =>
    absurd (beginsNumber_of_mem_repr member) (by decide)
  cases pushed with
  | var => exact newline_notMem_variableShown (legible _ rfl)
  | int16 value => exact number _
  | int32 value => exact number _
  | int64 value => exact number _
  | double value => exact newline_notMem_render value
  | string => simp [valueShown, newline_notMem_sanitize]
  | function => exact Legible.unbroken (legible _ rfl)

end GameScript.Listing

namespace GameScript.Emission

open Bytecode Listing

variable {tables tables' : NameTables} {symbol symbol' : Option Symbol}
  {kind : OpcodeClass} {ins ins' : Instruction}

theorem Finished.isShown (finished : Finished tables symbol kind ins)
    (legible : ∀ name, symbol = some name → name.IsLegible) (entry : CodeEntry)
    (blocks : List Nat) :
    ∃ text, operands entry tables blocks ins = .ok text ∧ IsShown ins text := by
  have plain (differs : kind ≠ .extended) : ins.opcode ≠ .extended := by
    intro isExtended
    have isClass := finished.isClass
    rw [isExtended] at isClass
    exact differs isClass.symm
  have digits (n : Nat) : '\n' ∉ Nat.toDigits 10 n := notMem_toDigits n rfl
  cases finished with
  | @single _ opcode type extra isClass counts =>
    have copies : '\n' ∉ (copiesShown opcode extra).toList := by
      unfold copiesShown
      split <;> simp [digits]
    refine ⟨_, operands_single isClass, .of_begin (c := '.') (plain (by decide))
      (by simp; rfl) rfl ?_⟩
    simp [newline_notMem_name, copies]
  | operator _ type1 type2 isClass =>
    refine ⟨_, operands_operator isClass, .of_begin (c := '.') (plain (by decide))
      (by simp; rfl) rfl ?_⟩
    simp [newline_notMem_name]
  | comparison _ type1 type2 kind =>
    have named : '\n' ∉ kind.name.toList := by cases kind <;> decide
    refine ⟨_, operands_comparison, .of_begin (c := '.') (plain (by decide)) (by simp; rfl)
      rfl ?_⟩
    simp [newline_notMem_name, named]
  | branch _ isClass =>
    exact ⟨_, operands_branch isClass, destination_isShown entry blocks isClass⟩
  | @store _ _ type2 _ name scope owner access stores _ stored =>
    have place : '\n' ∉ (variableShown owner access ⟨name, scope.scope⟩).toList :=
      newline_notMem_variableShown (legible _ rfl)
    refine ⟨_, operands_store stores stored, .of_begin (c := '.') (plain (by decide))
      (by simp; rfl) rfl ?_⟩
    simp [newline_notMem_name, place]
  | push _ isClass pushed =>
    refine ⟨_, operands_push isClass pushed, .of_begin (c := '.') (plain (by decide))
      (by simp; rfl) rfl ?_⟩
    simp [newline_notMem_name, newline_notMem_valueShown pushed legible]
  | call _ _ stored =>
    refine ⟨_, operands_call stored, .of_begin (c := '.') (plain (by decide))
      (by simp; rfl) rfl ?_⟩
    simp [newline_notMem_name, digits, Legible.unbroken (legible _ rfl)]
  | @extended _ type number extension isExtension =>
    have named : '\n' ∉ extension.name.toList := by cases extension <;> decide
    refine ⟨_, operands_extended isExtension, ⟨?_, fun isPlain => absurd rfl isPlain,
      fun _ => ⟨extension, [type.letter], by simp [DataType.toList_name]⟩⟩⟩
    simp [newline_notMem_name, named]

theorem Pushed.valueShown_congr {type1 type1' : DataType} {owner owner' : Instance}
    {immediate immediate' : Option Immediate} {reference reference' : Option Reference}
    (first : Pushed tables symbol type1 owner immediate reference)
    (second : Pushed tables' symbol' type1' owner' immediate' reference')
    {address address' : Nat} {opcode opcode' : Opcode}
    (same : ({ address, opcode, type1, owner, immediate, reference } : Instruction).named
        tables =
      ({ address := address', opcode := opcode', type1 := type1', owner := owner'
         immediate := immediate', reference := reference' } : Instruction).named tables') :
    valueShown symbol owner immediate = valueShown symbol' owner' immediate' := by
  cases first <;> cases second <;>
    simp_all [Instruction.named, Immediate.unnumbered, Reference.unnumbered, valueShown]

theorem Finished.operands_congr (first : Finished tables symbol kind ins)
    (second : Finished tables' symbol' kind ins')
    (same : ins.named tables = ins'.named tables')
    {entry entry' : CodeEntry} (lengths : entry.length = entry'.length)
    (blocks : List Nat) :
    operands entry tables blocks ins = operands entry' tables' blocks ins' := by
  cases first with
  | single _ _ isClass =>
    cases second with
    | single _ _ isClass' =>
      rw [operands_single isClass, operands_single isClass']
      simp_all [Instruction.named]
  | operator _ _ _ isClass =>
    cases second with
    | operator _ _ _ isClass' =>
      rw [operands_operator isClass, operands_operator isClass']
      simp_all [Instruction.named]
  | comparison =>
    cases second with
    | comparison =>
      rw [operands_comparison, operands_comparison]
      simp_all [Instruction.named]
  | branch _ isClass =>
    cases second with
    | branch _ isClass' =>
      rw [operands_branch isClass, operands_branch isClass']
      obtain ⟨rfl, rfl, rfl, rfl⟩ :
          _ ∧ _ ∧ _ ∧ _ := by simpa [Instruction.named] using same
      simp only [destination, lengths]
  | store _ _ stores _ stored =>
    cases second with
    | store _ _ stores' _ stored' =>
      rw [operands_store stores stored, operands_store stores' stored']
      simp_all [Instruction.named, Reference.unnumbered]
  | push _ isClass pushed =>
    cases second with
    | push _ isClass' pushed' =>
      have values := pushed.valueShown_congr pushed' same
      rw [operands_push isClass pushed, operands_push isClass' pushed', values]
      simp_all [Instruction.named]
  | call _ _ stored =>
    cases second with
    | call _ _ stored' =>
      rw [operands_call stored, operands_call stored']
      simp_all [Instruction.named, Immediate.unnumbered]
  | extended _ _ isExtension =>
    cases second with
    | extended _ _ isExtension' =>
      rw [operands_extended isExtension, operands_extended isExtension']
      simp_all [Instruction.named, Immediate.unnumbered]

end GameScript.Emission
