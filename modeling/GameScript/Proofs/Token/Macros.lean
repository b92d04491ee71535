import GameScript.Token.Naming
import GameScript.Token.Scanner

/-! Macros of texts.

A text adds the macros that its directives define to a table.  What it is scanned into
depends on the table only where a name is defined again, and what its names then stand for
only on the body of each name. -/

namespace GameScript

namespace MacroTable

variable {table : MacroTable} {name : String}

theorem contains_iff : table.contains name = true ↔ name ∈ table.names := by
  simp only [contains, get?, List.lookup_isSome_iff, beq_iff_eq, names, List.mem_map]
  exact exists_congr fun _ => and_congr_right fun _ => eq_comm

theorem contains_eq_false (fresh : name ∉ table.names) : table.contains name = false :=
  Bool.eq_false_iff.mpr fun known => fresh (contains_iff.mp known)

theorem insert_fresh (fresh : name ∉ table.names) (body : List Token) :
    table.insert name body = ⟨table.bodies ++ [(name, body)]⟩ := by
  simp [insert, contains_eq_false fresh]

def append (table other : MacroTable) : MacroTable := ⟨table.bodies ++ other.bodies⟩

@[simp] theorem names_append (table other : MacroTable) :
    (table.append other).names = table.names ++ other.names := by
  simp [append, names]

@[simp] theorem empty_append (table : MacroTable) : append {} table = table := rfl

@[simp] theorem append_empty (table : MacroTable) : table.append {} = table := by
  simp [append]

theorem append_assoc (first second third : MacroTable) :
    (first.append second).append third = first.append (second.append third) := by
  simp [append]

theorem get?_append (table other : MacroTable) (name : String) :
    (table.append other).get? name = (table.get? name).or (other.get? name) :=
  List.lookup_append

theorem get?_of_prefix {other : MacroTable} (grows : table.bodies <+: other.bodies)
    {body : List Token} (known : table.get? name = some body) :
    other.get? name = some body := by
  obtain ⟨added, all⟩ := grows
  have longer : other = table.append ⟨added⟩ := congrArg MacroTable.mk all.symm
  rw [longer, get?_append, known, Option.some_or]

theorem prefix_insert (table : MacroTable) (name : String) (body : List Token) :
    table.bodies <+: (table.insert name body).bodies := by
  rw [insert]
  split
  · exact List.prefix_rfl
  · exact List.prefix_append _ _

end MacroTable

namespace Token

/-- Names that the directives from a cursor on define, in the order in which they join a
table: those in the body of a macro come before its own. -/
def definedNames (target : Target) : Nat → Cursor → List String
  | 0, _ => []
  | fuel + 1, cursor =>
    match cursor.event target with
    | .finish _ | .halt _ _ => []
    | .token _ _ after | .pass _ after => definedNames target fuel after
    | .define _ name content bodyStart after =>
      definedNames target fuel ⟨content, bodyStart⟩ ++ name ::
        definedNames target fuel after

def Scan.joining (scan : Scan) (table : MacroTable) : Scan :=
  { scan with macros := table.append scan.macros }

/-- Scanning defines the given names, and does with a table that has none of them what it
does with an empty one. -/
structure Joins (names : List String) (scan : MacroTable → Scan) : Prop where
  defines : (scan {}).macros.names = names
  same : ∀ table : MacroTable, (∀ name ∈ names, name ∉ table.names) →
    scan table = (scan {}).joining table

namespace Joins

variable {names : List String} {scan : MacroTable → Scan}

theorem stop (tokens : List Token) (errors : List LexError) :
    Joins [] fun table => ⟨tokens, errors, table⟩ where
  defines := rfl
  same table _ := by simp [Scan.joining]

theorem push (joins : Joins names scan) (token : Token) (errors : List LexError) :
    Joins names fun table => (scan table).push token errors where
  defines := joins.defines
  same table fresh := by rw [joins.same table fresh]; rfl

theorem blame (joins : Joins names scan) (errors : List LexError) :
    Joins names fun table => (scan table).blame errors where
  defines := joins.defines
  same table fresh := by rw [joins.same table fresh]; rfl

/-- A macro is defined, after those in its body and before those that follow. -/
theorem define {inner : List String} {body : MacroTable → Scan}
    (bodyJoins : Joins inner body) (joins : Joins names scan) {name : String}
    (distinct : (inner ++ name :: names).Nodup) (again : MacroTable → Scan) :
    Joins (inner ++ name :: names) fun table =>
      if table.contains name then again table
      else
        (scan ((body table).macros.insert name (body table).body)).blame
          (body table).errors := by
  obtain ⟨-, others, apart⟩ := List.nodup_append.mp distinct
  let defined : MacroTable := (body {}).macros.append ⟨[(name, (body {}).body)]⟩
  have names_defined : defined.names = inner ++ [name] := by
    rw [MacroTable.names_append, bodyJoins.defines]
    rfl
  have defining (table : MacroTable)
      (fresh : ∀ other ∈ inner ++ name :: names, other ∉ table.names) :
      (if table.contains name then again table
        else (scan ((body table).macros.insert name (body table).body)).blame
          (body table).errors) =
      ((scan {}).joining (table.append defined)).blame (body {}).errors := by
    have inside := bodyJoins.same table fun other member => fresh other (by simp [member])
    have absent : name ∉ (table.append (body {}).macros).names := by
      simp only [MacroTable.names_append, bodyJoins.defines, List.mem_append, not_or]
      exact ⟨fresh name (by simp), fun member => apart name member name (by simp) rfl⟩
    have inserted :
        (body table).macros.insert name (body table).body = table.append defined := by
      rw [inside]
      exact (MacroTable.insert_fresh absent _).trans (MacroTable.append_assoc _ _ ⟨[_]⟩)
    have after := joins.same (table.append defined) fun other member => by
      simp only [MacroTable.names_append, names_defined, List.mem_append,
        List.mem_singleton, not_or]
      refine ⟨fresh other (by simp [member]), fun inside => ?_, ?_⟩
      · exact apart other inside other (by simp [member]) rfl
      · rintro rfl
        exact (List.nodup_cons.mp others).1 member
    rw [MacroTable.contains_eq_false (fresh name (by simp)), if_neg (by simp), inserted,
      after, inside]
    rfl
  refine ⟨?_, fun table fresh => ?_⟩
  · rw [defining {} fun _ _ => List.not_mem_nil]
    change (MacroTable.append _ (scan {}).macros).names = _
    rw [MacroTable.names_append, MacroTable.empty_append, names_defined, joins.defines,
      List.append_assoc, List.singleton_append]
  · rw [defining table fresh, defining {} fun _ _ => List.not_mem_nil]
    simp only [Scan.joining, Scan.blame, MacroTable.append_assoc, MacroTable.empty_append]

end Joins

/-- A text that defines no name twice, and none of a table, adds to the table what it adds
to an empty one. -/
theorem scanFrom_joins (target : Target) (fuel : Nat) (cursor : Cursor)
    (distinct : (definedNames target fuel cursor).Nodup) :
    Joins (definedNames target fuel cursor) (scanFrom target fuel cursor ·) := by
  induction fuel generalizing cursor with
  | zero => exact .stop [] []
  | succ fuel induction =>
    simp only [definedNames, scanFrom] at distinct ⊢
    cases event : cursor.event target with
    | finish pos => exact .stop _ _
    | halt last errors => exact .stop _ _
    | token token errors after =>
      rw [event] at distinct
      exact (induction after distinct).push _ _
    | pass errors after =>
      rw [event] at distinct
      exact (induction after distinct).blame _
    | define pos name content bodyStart after =>
      rw [event] at distinct
      obtain ⟨inner, outer, -⟩ := List.nodup_append.mp distinct
      exact .define (induction _ inner)
        (induction _ (List.nodup_cons.mp outer).2) distinct _

namespace NameSources

variable {sources : NameSources} {macros : MacroTable}

theorem resolveUntilMacro_uniform
    (same : ∀ name, sources.macros.get? name = macros.get? name)
    (onMacro : Token → String → List Token → List Token → List Token × List LexError)
    (tokens : List Token) :
    sources.resolveUntilMacro onMacro tokens =
      { sources with macros }.resolveUntilMacro onMacro tokens := by
  induction tokens with
  | nil => rfl
  | cons token rest induction =>
    unfold resolveUntilMacro
    simp only [same, induction]
    rfl

theorem resolveWithin_uniform (same : ∀ name, sources.macros.get? name = macros.get? name)
    (budget : Nat) (tokens : List Token) :
    sources.resolveWithin budget tokens =
      { sources with macros }.resolveWithin budget tokens := by
  induction budget generalizing tokens with
  | zero => exact resolveUntilMacro_uniform same _ tokens
  | succ budget induction =>
    unfold resolveWithin
    rw [resolveUntilMacro_uniform same, funext induction]

/-- What the names of a text stand for depends on the body of each macro, not on the order
of the macros. -/
theorem resolve_uniform (same : ∀ name, sources.macros.get? name = macros.get? name)
    (tokens : List Token) :
    sources.resolve tokens = { sources with macros }.resolve tokens :=
  resolveWithin_uniform same expansionLimit tokens

end NameSources

end Token

end GameScript
