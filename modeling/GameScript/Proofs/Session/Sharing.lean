import GameScript.Proofs.Token.Macros
import GameScript.Session

/-! What the entries of a session share.

Each text contributes macros, enumerations and functions, and each entry is compiled with
those of all texts. -/

namespace GameScript

open Builtin Emission Syntax Token

theorem lookup_eq_of_perm {κ α : Type} [DecidableEq κ] {pairs others : List (κ × α)}
    (permuted : pairs.Perm others) (distinct : (pairs.map (·.1)).Nodup) (key : κ) :
    pairs.lookup key = others.lookup key := by
  induction permuted with
  | nil => rfl
  | cons pair _ induction =>
    cases pair
    rw [List.lookup_cons, List.lookup_cons, induction (List.nodup_cons.mp distinct).2]
  | swap first second rest =>
    obtain ⟨one, oneValue⟩ := first
    obtain ⟨other, otherValue⟩ := second
    have differ : one ≠ other := by
      rintro rfl
      exact (List.nodup_cons.mp distinct).1 (by simp)
    grind
  | trans first _ one other =>
    exact (one distinct).trans (other ((first.map _).nodup_iff.mp distinct))

theorem lookup_putPair {κ α : Type} [DecidableEq κ] (key : κ) (value : α)
    (pairs : List (κ × α)) (other : κ) :
    (putPair key value pairs).lookup other =
      if other = key then some value else pairs.lookup other := by
  induction pairs with
  | nil => grind [putPair]
  | cons pair rest induction => grind [putPair]

namespace Roster

variable {α : Type} [DecidableEq α]

theorem contains_insert (roster : Roster α) (item other : α) :
    (roster.insert item).contains other = (roster.contains other || other == item) := by
  unfold insert contains
  grind

theorem contains_insertAll (roster : Roster α) (items : List α) (other : α) :
    (roster.insertAll items).contains other =
    (roster.contains other || items.contains other) := by
  induction items generalizing roster with
  | nil => simp [insertAll]
  | cons item rest induction =>
    rw [insertAll, List.foldl_cons, ← insertAll, induction, contains_insert,
      List.contains_cons, Bool.or_assoc]

end Roster

/-- Enumerations that some tokens declare, those that are malformed apart. -/
def declaredEnums (registry : Registry) :
    List Token → List (String × List (String × Int64))
  | [] => []
  | token :: rest =>
    if token.isMark .kwEnum then
      match runParser registry {} (token :: rest) enumDecl with
      | .ok decl => (decl.name, decl.members) :: declaredEnums registry rest
      | .error _ => declaredEnums registry rest
    else declaredEnums registry rest

/-- The table with more enumerations, a later one in the place of an earlier one. -/
def EnumTable.insertAll (table : EnumTable)
    (decls : List (String × List (String × Int64))) :
    EnumTable :=
  decls.foldl (fun table decl => table.insert decl.1 decl.2) table

theorem collectEnums_eq (registry : Registry) (tokens : List Token) (enums : EnumTable) :
    collectEnums registry tokens enums =
      EnumTable.insertAll enums (declaredEnums registry tokens) := by
  induction tokens generalizing enums with
  | nil => rfl
  | cons token rest induction =>
    unfold collectEnums declaredEnums
    split
    · cases runParser registry {} (token :: rest) enumDecl with
      | ok decl => exact induction _
      | error _ => exact induction _
    · exact induction _

/-- Members with their values; the last value of a member counts. -/
def distinctMembers (members : List (String × Int64)) : List (String × Int64) :=
  members.foldl (fun known member => putPair member.1 member.2 known) []

theorem EnumTable.get?_insertAll (decls : List (String × List (String × Int64)))
    (distinct : (decls.map (·.1)).Nodup) (table : EnumTable) (name : String) :
    (EnumTable.insertAll table decls).get? name =
      ((decls.lookup name).map distinctMembers).or (table.get? name) := by
  induction decls generalizing table with
  | nil => rfl
  | cons decl rest induction =>
    obtain ⟨enumeration, members⟩ := decl
    obtain ⟨fresh, distinct⟩ := List.nodup_cons.mp distinct
    rw [EnumTable.insertAll, List.foldl_cons, ← EnumTable.insertAll, induction distinct]
    have inserted : (table.insert enumeration members).get? name =
        if name = enumeration then some (distinctMembers members) else table.get? name :=
      lookup_putPair _ _ _ _
    rw [inserted, List.lookup_cons]
    by_cases same : name = enumeration
    · subst same
      have absent : rest.lookup name = none := by
        refine List.lookup_eq_none_iff.mpr fun pair member => bne_iff_ne.mpr ?_
        rintro rfl
        exact fresh (List.mem_map.mpr ⟨pair, member, rfl⟩)
      simp [absent]
    · simp [same, beq_false_of_ne same]

namespace Session

variable (session : Session) (sources : List Source)

def macrosWith : MacroTable := (scanAll session.target session.macros sources).2

def nameSources (macros : MacroTable) : NameSources :=
  ⟨session.target, session.registry, macros, session.assets⟩

def processed : List Stream :=
  (scanAll session.target session.macros sources).1.map
    (·.resolve (session.nameSources (session.macrosWith sources)))

def enumDecls : List (String × List (String × Int64)) :=
  (session.processed sources).flatMap fun stream =>
    declaredEnums session.registry stream.tokens

def functionsWith : Roster String :=
  (session.functions.insertAll
    ((session.processed sources).flatMap fun stream =>
      declaredFunctions stream.tokens)).insertAll
      (sources.filterMap fun source => EntryName.script? source.name)

theorem compilePending_eq :
    session.compilePending sources =
      (List.zipWith (fun source stream =>
          compileEntry
            ⟨session.target, session.registry, session.functionsWith sources, source.name⟩
            (EnumTable.insertAll {} (session.enumDecls sources)) stream)
        sources (session.processed sources),
      { session with
        macros := session.macrosWith sources, functions :=
          session.functionsWith sources }) := by
  have collected (streams : List Stream) (enums : EnumTable) :
      streams.foldl (fun enums stream => collectEnums session.registry stream.tokens enums)
        enums = EnumTable.insertAll enums
          (streams.flatMap fun stream =>
            declaredEnums session.registry stream.tokens) := by
    induction streams generalizing enums with
    | nil => rfl
    | cons stream rest induction =>
      rw [List.foldl_cons, induction, collectEnums_eq, List.flatMap_cons,
        EnumTable.insertAll, EnumTable.insertAll, EnumTable.insertAll, List.foldl_append]
  rw [enumDecls, ← collected]
  rfl

end Session

end GameScript
