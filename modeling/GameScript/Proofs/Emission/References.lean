import GameScript.Proofs.Emission.BinaryForm
import GameScript.Session

/-! Numbers of names stay valid when further entries are resolved. -/

namespace GameScript

theorem Roster.nodup_intern {α : Type} [DecidableEq α] {roster : Roster α} (item : α)
    (distinct : roster.items.Nodup) : (roster.intern item).1.items.Nodup := by
  unfold intern
  split
  case h_1 => exact distinct
  case h_2 unknown =>
    have absent : item ∉ roster.items := by simpa [idOf?] using unknown
    refine List.nodup_append.mpr
      ⟨distinct, by simp, fun first isOld second isNew same => ?_⟩
    rw [List.mem_singleton] at isNew
    exact absent (isNew ▸ same ▸ isOld)

theorem Roster.get?_of_prefix {α : Type} {roster other : Roster α} {id : Nat} {item : α}
    (more : roster.items <+: other.items) (found : roster.get? id = some item) :
    other.get? id = some item := by
  obtain ⟨added, items⟩ := more
  have bound := (List.getElem?_eq_some_iff.mp found).1
  rw [get?, ← items, List.getElem?_append_left bound]
  exact found

namespace NameTables

structure Distinct (tables : NameTables) : Prop where
  strings : tables.strings.items.Nodup
  functions : tables.functions.items.Nodup
  vars : tables.vars.items.Nodup

/-- What a number names stays the same. -/
structure Keeps (tables other : NameTables) : Prop where
  strings : ∀ id text, tables.string id = .ok text → other.string id = .ok text
  functions : ∀ id name, tables.function id = .ok name → other.function id = .ok name
  vars : ∀ id stored, tables.storedVariable id = .ok stored →
    other.storedVariable id = .ok stored

variable {tables : NameTables} {id : Nat}

theorem string_eq_ok {text : String} :
    tables.string id = .ok text ↔ tables.strings.get? id = some text := by
  unfold string
  cases tables.strings.get? id <;> simp

theorem function_eq_ok {name : String} :
    tables.function id = .ok name ↔ tables.functions.get? id = some name := by
  unfold function
  cases tables.functions.get? id <;> simp

theorem storedVariable_eq_ok {stored : StoredVariable} :
    tables.storedVariable id = .ok stored ↔ tables.vars.get? id = some stored := by
  unfold storedVariable
  cases tables.vars.get? id <;> simp

end NameTables

namespace Emission

open Bytecode Syntax

theorem TablesExtend.keeps {tables other : NameTables} (more : TablesExtend tables other) :
    tables.Keeps other where
  strings := fun _ _ found =>
    NameTables.string_eq_ok.mpr
      (Roster.get?_of_prefix more.strings (NameTables.string_eq_ok.mp found))
  functions := fun _ _ found =>
    NameTables.function_eq_ok.mpr
      (Roster.get?_of_prefix more.functions (NameTables.function_eq_ok.mp found))
  vars := fun _ _ found =>
    NameTables.storedVariable_eq_ok.mpr
      (Roster.get?_of_prefix more.vars (NameTables.storedVariable_eq_ok.mp found))

/-- Names have arrived, none of them for the second time. -/
structure TablesGrow (tables other : NameTables) : Prop where
  extend : TablesExtend tables other
  distinct : tables.Distinct → other.Distinct

namespace TablesGrow

theorem refl (tables : NameTables) : TablesGrow tables tables := ⟨.refl tables, id⟩

theorem trans {tables other last : NameTables} (first : TablesGrow tables other)
    (second : TablesGrow other last) : TablesGrow tables last :=
  ⟨first.extend.trans second.extend, fun distinct =>
    second.distinct (first.distinct distinct)⟩

theorem resolveSymbol (code : Code) (tables : NameTables) (reference : Nat × Symbol) :
    TablesGrow tables (resolveSymbol (code, tables) reference).2 := by
  obtain ⟨index, symbol⟩ := reference
  by_cases bound : index < code.size
  · obtain ⟨other, id, step, more, -⟩ := resolveSymbol_spec code tables symbol bound
    refine ⟨by rw [step]; exact more, fun distinct => ?_⟩
    simp only [Emission.resolveSymbol, if_pos bound]
    cases symbol with
    | string text =>
      exact ⟨Roster.nodup_intern text distinct.strings, distinct.functions, distinct.vars⟩
    | var name scope access =>
      exact ⟨distinct.strings, distinct.functions, Roster.nodup_intern _ distinct.vars⟩
    | function name =>
      exact ⟨distinct.strings, Roster.nodup_intern name distinct.functions, distinct.vars⟩
  · simp only [Emission.resolveSymbol, if_neg bound]
    exact refl tables

theorem resolveSymbols (symbols : List (Nat × Symbol)) (code : Code)
    (tables : NameTables) :
    TablesGrow tables (symbols.foldl Emission.resolveSymbol (code, tables)).2 := by
  induction symbols generalizing code tables with
  | nil => exact refl tables
  | cons reference rest induction =>
    exact (resolveSymbol code tables reference).trans (induction _ _)

theorem resolve (pending : PendingEntry) (tables : NameTables) :
    TablesGrow tables (pending.resolve tables).2 := by
  have grow := resolveSymbols pending.symbols.toList pending.code tables
  rwa [Array.foldl_toList] at grow

theorem resolveAll (results : List (Except EntryError PendingEntry))
    (tables : NameTables) : TablesGrow tables (resolveAll tables results).2 := by
  induction results generalizing tables with
  | nil => exact refl tables
  | cons result rest induction =>
    cases result with
    | error error => exact induction tables
    | ok pending => exact (resolve pending tables).trans (induction _)

end TablesGrow

/-- The number that the instruction holds is that of the symbol: of a variable, under the
scope that it is stored in. -/
def LooksUp (tables : NameTables) (ins : Instruction) : Symbol → Prop
  | .string text => ∃ id, ins.immediate = some (.string id) ∧ tables.string id = .ok text
  | .var name scope access => ∃ id, ins.reference = some (.var id access) ∧
      tables.storedVariable id = .ok ⟨name, scope.scope⟩
  | .function name =>
    ∃ id, ins.reference = some (.function id) ∧ tables.function id = .ok name

theorem Refers.looksUp {tables : NameTables} {source ins : Instruction} {symbol : Symbol}
    (refers : Refers tables source (some symbol) ins) : LooksUp tables ins symbol := by
  obtain ⟨id, known, rfl⟩ := refers
  cases symbol with
  | string text =>
    exact ⟨id, rfl, NameTables.string_eq_ok.mpr (Roster.get?_of_idOf? known)⟩
  | var name scope access =>
    exact ⟨id, rfl, NameTables.storedVariable_eq_ok.mpr (Roster.get?_of_idOf? known)⟩
  | function name =>
    exact ⟨id, rfl, NameTables.function_eq_ok.mpr (Roster.get?_of_idOf? known)⟩

/-- Every number that an instruction holds is that of the symbol it was emitted with. -/
structure HoldsSymbol (tables : NameTables) (symbol : Option Symbol) (ins : Instruction) :
    Prop where
  kind : symbol.map Symbol.kind = ins.nameKind?
  looksUp : ∀ name, symbol = some name → LooksUp tables ins name
  strings : ∀ id, ins.immediate = some (.string id) → ∃ text, symbol = some (.string text)
  functions : ∀ id, ins.reference = some (.function id) →
    ∃ name, symbol = some (.function name)

theorem Cell.IsBlank.place {cell : Cell} (blank : cell.IsBlank) (address : Nat → Nat)
    (index : Nat) : (cell.place address noAims index).reference = none ∧
      ∀ id, (cell.place address noAims index).immediate ≠ some (.string id) := by
  cases link : cell.link with
  | none => simp [Cell.place, link, blank.reference, blank.immediate]
  | branch distance =>
    simp [Cell.place, link, Instruction.aim, blank.reference, blank.immediate]
  | held distance => simp [Cell.place, link, Instruction.hold, blank.reference]
  | leave way => simp [Cell.place, link, noAims, blank.reference, blank.immediate]
  | await way => simp [Cell.place, link, noAims, blank.reference, blank.immediate]

theorem Cell.Form.holdsSymbol {cell : Cell} {tables : NameTables} {ins : Instruction}
    {address : Nat → Nat} {index : Nat} (form : cell.Form)
    (refers : Refers tables (cell.place address noAims index) cell.symbol ins) :
    HoldsSymbol tables cell.symbol ins := by
  obtain ⟨noReference, noString⟩ := form.isBlank.place address index
  have kind := (form.encodes refers).kind
  cases symbol : cell.symbol with
  | none =>
    rw [symbol] at refers kind
    obtain rfl : ins = _ := refers
    exact ⟨kind, nofun, fun id held => absurd held (noString id), by simp [noReference]⟩
  | some name =>
    rw [symbol] at refers kind
    have looksUp := refers.looksUp
    obtain ⟨number, -, rfl⟩ := refers
    refine ⟨kind, fun other same => Option.some.inj same ▸ looksUp, fun id held =>
      ?_, fun id held => ?_⟩
    · cases name with
      | string text => exact ⟨text, rfl⟩
      | var name scope access => exact absurd held (noString id)
      | function name => exact absurd held (noString id)
    · cases name with
      | string text => simp [refer, noReference] at held
      | var name scope access => simp [refer] at held
      | function name => exact ⟨name, rfl⟩

def Succeeds {ε α : Type} (computation : Except ε α) : Prop :=
  ∃ result, computation = .ok result

namespace Succeeds

variable {ε α β : Type}

theorem ok (result : α) : Succeeds (.ok result : Except ε α) := ⟨result, rfl⟩

theorem bind {first : Except ε α} {next : α → Except ε β} (succeeds : Succeeds first)
    (continues : ∀ result, Succeeds (next result)) : Succeeds (first >>= next) := by
  obtain ⟨result, rfl⟩ := succeeds
  exact continues result

theorem mapM {items : List α} {f : α → Except ε β}
    (each : ∀ item ∈ items, Succeeds (f item)) : Succeeds (items.mapM f) := by
  induction items with
  | nil => exact ok []
  | cons item rest induction =>
    rw [List.mapM_cons]
    refine bind (each item List.mem_cons_self) fun first => ?_
    exact bind (induction fun other member =>
      each other (List.mem_cons_of_mem item member)) fun others => ok _

end Succeeds

namespace HoldsSymbol

variable {tables : NameTables} {symbol : Option Symbol} {ins : Instruction}

theorem variableText (holds : HoldsSymbol tables symbol ins)
    (isVariable : ins.nameKind? = some .variable) :
    Succeeds (Listing.variableText tables ins) := by
  have kind := holds.kind
  rw [isVariable] at kind
  match symbol, kind with
  | some (.var name scope access), _ =>
    obtain ⟨id, reference, stored⟩ := holds.looksUp _ rfl
    simp only [Listing.variableText, reference]
    refine Succeeds.bind ⟨_, stored⟩ fun stored => ?_
    split <;> exact .ok _

theorem function (holds : HoldsSymbol tables symbol ins) {id : Nat}
    (reference : ins.reference = some (.function id)) : Succeeds (tables.function id) := by
  obtain ⟨name, rfl⟩ := holds.functions id reference
  obtain ⟨other, same, found⟩ := holds.looksUp _ rfl
  cases reference.symm.trans same
  exact ⟨name, found⟩

theorem string (holds : HoldsSymbol tables symbol ins) {id : Nat}
    (immediate : ins.immediate = some (.string id)) : Succeeds (tables.string id) := by
  obtain ⟨text, rfl⟩ := holds.strings id immediate
  obtain ⟨other, same, found⟩ := holds.looksUp _ rfl
  cases immediate.symm.trans same
  exact ⟨text, found⟩

theorem operands (holds : HoldsSymbol tables symbol ins) (entry : CodeEntry)
    (blocks : List Nat) : Succeeds (Listing.operands entry tables blocks ins) := by
  unfold Listing.operands
  simp only
  split
  case h_5 isClass =>
    split
    case isTrue => exact .ok _
    case isFalse =>
      have isVariable :
          ins.nameKind? = some .variable := by simp [Instruction.nameKind?, isClass]
      exact (holds.variableText isVariable).bind fun _ => .ok _
  case h_6 isClass =>
    split
    case isTrue isVariant =>
      have isVariable : ins.nameKind? = some .variable := by
        simp [Instruction.nameKind?, isClass, isVariant]
      exact (holds.variableText isVariable).bind fun _ => .ok _
    case isFalse =>
      split
      case h_1 immediate => exact (holds.string immediate).bind fun _ => .ok _
      case h_2 reference _ => exact (holds.function reference).bind fun _ => .ok _
      case h_3 => exact .ok _
  case h_7 isClass =>
    split
    case h_1 reference => exact (holds.function reference).bind fun _ => .ok _
    case h_2 => exact .ok _
  all_goals exact .ok _

theorem listing {entry : CodeEntry}
    (all : ∀ ins ∈ entry.instructions, ∃ symbol, HoldsSymbol tables symbol ins) :
    Succeeds (entry.listing tables) := by
  refine Succeeds.bind (Succeeds.mapM fun ins member => ?_) fun _ => .ok _
  obtain ⟨symbol, holds⟩ := all ins (Array.mem_toList_iff.mp member)
  exact (holds.operands entry _).bind fun _ => .ok _

end HoldsSymbol

theorem Piece.mem_symbolsFrom (piece : Piece) (start index : Nat) {symbol : Symbol} :
    (start + index, symbol) ∈ piece.symbolsFrom start ↔
      ∃ cell, piece[index]? = some cell ∧ cell.symbol = some symbol := by
  induction piece generalizing start index with
  | nil => simp [symbolsFrom]
  | cons cell rest induction =>
    have here : (start + index, symbol) ∈ (cell.symbol.map (start, ·)).toList ↔
        index = 0 ∧ cell.symbol = some symbol := by
      cases cell.symbol <;> simp [eq_comm]
    rw [symbolsFrom, List.mem_append, here]
    cases index with
    | zero =>
      have later : (start, symbol) ∉ symbolsFrom (start + 1) rest := fun member => by
        have bound := (le_of_mem_symbolsFrom member).1
        omega
      simp [later]
    | succ index =>
      have step : (start + 1 + index, symbol) ∈ symbolsFrom (start + 1) rest ↔ _ :=
        induction (start + 1) index
      rw [Nat.succ_add_eq_add_succ] at step
      simpa using step

/-- Every name of an entry looks up to the symbol it was emitted with, and the entry can be
listed. -/
structure NamesHold (tables : NameTables) (pending : PendingEntry) (entry : CodeEntry) :
    Prop where
  emitted : ∀ (index : Nat) (symbol : Symbol), (index, symbol) ∈ pending.symbols.toList →
    ∃ ins, entry.instructions[index]? = some ins ∧ ins.nameKind? = some symbol.kind ∧
      LooksUp tables ins symbol
  held : ∀ (index : Nat) (ins : Instruction) (kind : NameKind),
    entry.instructions[index]? = some ins → ins.nameKind? = some kind →
    ∃ symbol, (index, symbol) ∈ pending.symbols.toList ∧ symbol.kind = kind ∧
    LooksUp tables ins symbol
  listed : ∃ text, entry.listing tables = .ok text

variable {pending : PendingEntry} {later : NameTables}

theorem Piece.IsCodeOf.namesHold {piece : Piece} {tables : NameTables}
    (isCode : piece.IsCodeOf pending) (forms : ∀ cell ∈ piece, cell.Form)
    (more : TablesExtend (pending.resolve tables).2 later) :
    NamesHold later pending (pending.resolve tables).1 := by
  have named (index : Nat) (symbol : Symbol) : (index, symbol) ∈ pending.symbols.toList ↔
      ∃ cell, piece[index]? = some cell ∧ cell.symbol = some symbol := by
    rw [isCode.symbols, ← piece.mem_symbolsFrom 0 index, Nat.zero_add]
  have holds {index : Nat} {cell : Cell} {ins : Instruction}
    (found : piece[index]? = some cell)
      (refers : Refers (pending.resolve tables).2 (cell.place piece.offset noAims index)
        cell.symbol ins) : HoldsSymbol later cell.symbol ins :=
    (forms cell (List.mem_of_getElem? found)).holdsSymbol (refers.extend more)
  refine ⟨fun index symbol member => ?_, fun index ins kind found isNamed => ?_, ?_⟩
  · obtain ⟨cell, found, isSymbol⟩ := (named index symbol).mp member
    obtain ⟨ins, foundIns, refers⟩ := (isCode.resolved tables).2 index cell found
    have holds := holds found refers
    have kind := holds.kind
    rw [isSymbol] at kind
    exact ⟨ins, foundIns, kind.symm, holds.looksUp symbol isSymbol⟩
  · obtain ⟨cell, foundCell, refers⟩ := isCode.instruction_cell tables found
    have holds := holds foundCell refers
    obtain ⟨symbol, isSymbol, isKind⟩ :=
      Option.map_eq_some_iff.mp (holds.kind.trans isNamed)
    exact ⟨symbol, (named index symbol).mpr ⟨cell, foundCell, isSymbol⟩, isKind,
      holds.looksUp symbol isSymbol⟩
  · refine HoldsSymbol.listing fun ins member => ?_
    obtain ⟨index, found⟩ := Array.getElem?_of_mem member
    obtain ⟨cell, foundCell, refers⟩ := isCode.instruction_cell tables found
    exact ⟨cell.symbol, holds foundCell refers⟩

theorem emitted_namesHold {env : Environment} {program : Program}
    {tables : NameTables} (emitted : emitProgram env program = .ok pending)
    (more : TablesExtend (pending.resolve tables).2 later) :
    NamesHold later pending (pending.resolve tables).1 := by
  obtain ⟨piece, rests, isCode⟩ :=
    emitProgram_isCode (emitStmts_rests program [] [] .ofNothing) emitted
  exact isCode.namesHold (Carries.forms rests) more

def PendingEntry.IsEmitted (pending : PendingEntry) : Prop :=
  ∃ env program, emitProgram env program = .ok pending

theorem resolveAll_namesHold {results : List (Except EntryError PendingEntry)}
    (emitted : ∀ pending, .ok pending ∈ results → pending.IsEmitted) {tables : NameTables}
    (more : TablesExtend (resolveAll tables results).2 later) {index : Nat}
    (found : results[index]? = some (.ok pending)) :
    ∃ entry, (resolveAll tables results).1[index]? = some (.ok entry) ∧
      NamesHold later pending entry := by
  induction results generalizing tables index with
  | nil => simp at found
  | cons result rest induction =>
    have others : ∀ other, .ok other ∈ rest → other.IsEmitted := fun other member =>
      emitted other (List.mem_cons_of_mem result member)
    cases result with
    | error error =>
      cases index with
      | zero => simp at found
      | succ index => exact induction others more found
    | ok first =>
      cases index with
      | zero =>
        obtain rfl : first = pending := by simpa using found
        obtain ⟨env, program, run⟩ := emitted first List.mem_cons_self
        exact ⟨_, rfl,
          emitted_namesHold run ((TablesGrow.resolveAll rest _).extend.trans more)⟩
      | succ index => exact induction others more found

/-- Tables only grow when emitted entries are resolved, and from then on every name of
every entry looks up to the symbol it was emitted with. -/
theorem resolved_names_stay {tables : NameTables} (distinct : tables.Distinct)
    {results : List (Except EntryError PendingEntry)}
    (emitted : ∀ pending, .ok pending ∈ results → pending.IsEmitted)
    (further : List (Except EntryError PendingEntry)) :
    tables.Keeps (resolveAll tables results).2 ∧ (resolveAll tables results).2.Distinct ∧
      (resolveAll tables results).2.Keeps
      (resolveAll (resolveAll tables results).2 further).2 ∧
      ∀ (index : Nat) (pending : PendingEntry), results[index]? = some (.ok pending) →
        ∃ entry, (resolveAll tables results).1[index]? = some (.ok entry) ∧
          NamesHold (resolveAll tables results).2 pending entry ∧
          NamesHold (resolveAll (resolveAll tables results).2 further).2 pending
            entry := by
  have grown := TablesGrow.resolveAll results tables
  have later := TablesGrow.resolveAll further (resolveAll tables results).2
  refine ⟨grown.extend.keeps, grown.distinct distinct, later.extend.keeps,
    fun index pending found => ?_⟩
  obtain ⟨entry, isEntry, holds⟩ := resolveAll_namesHold emitted (.refl _) found
  obtain ⟨other, isOther, stays⟩ := resolveAll_namesHold emitted later.extend found
  obtain rfl : entry = other :=
    Except.ok.inj (Option.some.inj (isEntry.symm.trans isOther))
  exact ⟨entry, isEntry, holds, stays⟩

theorem guardedFunction_names_stay :
    ∃ pending, emitProgram bareEnvironment guardedFunction = .ok pending ∧
      ∀ further, ∃ entry, (resolveAll {} [.ok pending, .ok pending]).1[1]? =
        some (.ok entry) ∧
        NamesHold (resolveAll (resolveAll {} [.ok pending, .ok pending]).2 further).2
          pending entry := by
  have addressable : endsWith isAddressable (emitProgram bareEnvironment guardedFunction) =
      true := by
    decide +kernel
  obtain ⟨pending, emitted, -⟩ := exists_of_endsWith addressable
  refine ⟨pending, emitted, fun further => ?_⟩
  have all :
    ∀ other, (.ok other : Except EntryError PendingEntry) ∈ [.ok pending, .ok pending] →
      other.IsEmitted := by
    intro other member
    obtain rfl : other = pending := by simpa using member
    exact ⟨bareEnvironment, guardedFunction, emitted⟩
  have distinct : NameTables.Distinct {} := ⟨.nil, .nil, .nil⟩
  obtain ⟨-, -, -, stay⟩ := resolved_names_stay distinct all further
  obtain ⟨entry, isEntry, -, holds⟩ := stay 1 pending rfl
  exact ⟨entry, isEntry, holds⟩

end Emission

end GameScript
