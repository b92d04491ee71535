import Mathlib.Data.List.Nodup
import GameScript.Proofs.Emission.Knowledge
import GameScript.Proofs.Session.Sharing
import GameScript.Proofs.Syntax.Progress

/-! The order of the entries of a session.

As long as no macro and no enumeration is defined twice, an entry is compiled to the same
code, or refused for the same reason, wherever its text stands among the others. -/

namespace GameScript

open Builtin Emission Syntax Token

/-- Names of the macros that a text defines, those in the bodies of other macros
included. -/
def Source.macroNames (target : Target) (source : Source) : List String :=
  definedNames target (source.text.toList.length + 1) ⟨source.text.toList, 0⟩

def Source.stream (target : Target) (source : Source) : Stream :=
  let scan := Token.scan target {} source.text
  ⟨scan.padded, scan.errors⟩

def Source.macros (target : Target) (source : Source) : MacroTable :=
  (Token.scan target {} source.text).macros

theorem Source.joins {target : Target} {source : Source}
    (nodup : (source.macroNames target).Nodup) :
    Joins (source.macroNames target) (Token.scan target · source.text) :=
  scanFrom_joins target _ _ nodup

/-- An entry is compiled the same with the same functions and enumerations in another
order. -/
theorem compileEntry_congr {functions others : Roster String}
    {enums otherEnums : EnumTable}
    (sameFunctions : ∀ name, functions.contains name = others.contains name)
    (sameEnums : ∀ name, enums.get? name = otherEnums.get? name) (target : Target)
    (registry : Registry) (name : String) (stream : Stream) :
    compileEntry ⟨target, registry, functions, name⟩ enums stream =
      compileEntry ⟨target, registry, others, name⟩ otherEnums stream := by
  have knows : Environment.Knows ⟨target, registry, functions, name⟩ others :=
    sameFunctions
  have emitted (program : Program) := emitProgram_uniform knows program
  simp only [compileEntry, parseProgram_uniform sameEnums, emitted]

/-- Texts that define each macro once are scanned as if each stood alone. -/
theorem scanAll_eq (target : Target) (macros : MacroTable) (sources : List Source)
    (nodup : (sources.flatMap (·.macroNames target)).Nodup)
    (fresh : ∀ name ∈ sources.flatMap (·.macroNames target), name ∉ macros.names) :
    scanAll target macros sources =
      (sources.map (·.stream target),
        macros.append ⟨sources.flatMap fun source => (source.macros target).bodies⟩) := by
  induction sources generalizing macros with
  | nil => simp [scanAll, MacroTable.append]
  | cons source rest induction =>
    rw [List.flatMap_cons] at nodup fresh
    obtain ⟨own, others, apart⟩ := List.nodup_append.mp nodup
    have joins := Source.joins own
    have scanned := joins.same macros fun name member =>
      fresh name (List.mem_append_left _ member)
    have following := induction (macros.append (source.macros target)) others
      fun name member => by
        rw [MacroTable.names_append, List.mem_append, not_or]
        refine ⟨fresh name (List.mem_append_right _ member), fun known => ?_⟩
        rw [Source.macros, joins.defines] at known
        exact apart name known name member rfl
    rw [MacroTable.append_assoc] at following
    rw [scanAll, scanned]
    exact congrArg
      (fun scanned => (source.stream target :: scanned.1, scanned.2)) following

namespace Session

variable {session : Session} {sources permuted : List Source}

/-- No macro is defined by two directives, or by a directive and before. -/
structure MacrosDistinct (session : Session) (sources : List Source) : Prop where
  nodup : (sources.flatMap (·.macroNames session.target)).Nodup
  fresh :
    ∀ name ∈ sources.flatMap (·.macroNames session.target), name ∉ session.macros.names

/-- No enumeration is declared twice by the texts, the meanings of their names being
known. -/
def EnumsDistinct (session : Session) (sources : List Source) : Prop :=
  ((session.enumDecls sources).map (·.1)).Nodup

section Permuted

variable (distinct : session.MacrosDistinct sources)

include distinct

theorem MacrosDistinct.macrosWith_eq :
    session.macrosWith sources =
      session.macros.append
        ⟨sources.flatMap fun source => (source.macros session.target).bodies⟩ := by
  rw [macrosWith, scanAll_eq _ _ _ distinct.nodup distinct.fresh]

theorem MacrosDistinct.processed_eq :
    session.processed sources = sources.map fun source =>
      (source.stream session.target).resolve
        (session.nameSources (session.macrosWith sources)) := by
  rw [processed, scanAll_eq _ _ _ distinct.nodup distinct.fresh, List.map_map]
  rfl

theorem MacrosDistinct.keys :
    (sources.flatMap fun source => (source.macros session.target).bodies).map (·.1) =
      sources.flatMap (·.macroNames session.target) := by
  rw [List.map_flatMap, List.flatMap_def, List.flatMap_def]
  refine congrArg List.flatten (List.map_congr_left fun source member => ?_)
  exact (Source.joins ((List.nodup_flatMap.mp distinct.nodup).1 source member)).defines

variable (perm : permuted.Perm sources)

include perm

theorem MacrosDistinct.reordered : session.MacrosDistinct permuted where
  nodup := (perm.flatMap_right _).nodup_iff.mpr distinct.nodup
  fresh name member := distinct.fresh name ((perm.flatMap_right _).mem_iff.mp member)

theorem macro_perm (name : String) :
    (session.macrosWith permuted).get? name = (session.macrosWith sources).get? name := by
  rw [(distinct.reordered perm).macrosWith_eq, distinct.macrosWith_eq,
    MacroTable.get?_append, MacroTable.get?_append]
  congr 1
  refine lookup_eq_of_perm (perm.flatMap_right _) ?_ name
  rw [(distinct.reordered perm).keys]
  exact (distinct.reordered perm).nodup

theorem processed_perm :
    session.processed permuted = permuted.map fun source =>
      (source.stream session.target).resolve
        (session.nameSources (session.macrosWith sources)) := by
  rw [(distinct.reordered perm).processed_eq]
  refine List.map_congr_left fun source _ => ?_
  have same (name : String) :
      (session.nameSources (session.macrosWith permuted)).macros.get? name = _ :=
    macro_perm distinct perm name
  have resolved := NameSources.resolve_uniform same (source.stream session.target).tokens
  rw [Stream.resolve, resolved]
  rfl

theorem streams_perm : (session.processed permuted).Perm (session.processed sources) := by
  rw [processed_perm distinct perm, distinct.processed_eq]
  exact perm.map _

theorem enum_perm (once : session.EnumsDistinct sources) (name : String) :
    (EnumTable.insertAll {} (session.enumDecls permuted)).get? name =
      (EnumTable.insertAll {} (session.enumDecls sources)).get? name := by
  have decls : (session.enumDecls permuted).Perm (session.enumDecls sources) :=
    (streams_perm distinct perm).flatMap_right _
  have permutedOnce : ((session.enumDecls permuted).map (·.1)).Nodup :=
    (decls.map _).nodup_iff.mpr once
  rw [EnumTable.get?_insertAll _ permutedOnce, EnumTable.get?_insertAll _ once,
    lookup_eq_of_perm decls permutedOnce]

theorem function_perm (name : String) :
    (session.functionsWith permuted).contains name =
      (session.functionsWith sources).contains name := by
  have declared : ((session.processed permuted).flatMap fun stream =>
      declaredFunctions stream.tokens).Perm _ :=
    (streams_perm distinct perm).flatMap_right _
  have scripts : (permuted.filterMap fun source => EntryName.script? source.name).Perm _ :=
    perm.filterMap _
  simp only [functionsWith, Roster.contains_insertAll]
  rw [declared.contains_eq, scripts.contains_eq]

end Permuted

theorem compilePending_unordered (session : Session) (sources : List Source)
    (macros : session.MacrosDistinct sources) (enums : session.EnumsDistinct sources) :
    ∃ result : Source → Except EntryError PendingEntry,
      (session.compilePending sources).1 = sources.map result ∧
        ∀ permuted, permuted.Perm sources →
          (session.compilePending permuted).1 = permuted.map result := by
  let stream (source : Source) : Stream :=
    (source.stream session.target).resolve
      (session.nameSources (session.macrosWith sources))
  let result (source : Source) : Except EntryError PendingEntry :=
    compileEntry
      ⟨session.target, session.registry, session.functionsWith sources, source.name⟩
      (EnumTable.insertAll {} (session.enumDecls sources)) (stream source)
  have compiled (permuted : List Source) (perm : permuted.Perm sources) :
      (session.compilePending permuted).1 = permuted.map result := by
    rw [compilePending_eq, processed_perm macros perm]
    dsimp only
    rw [List.zipWith_map_right, List.zipWith_self]
    refine List.map_congr_left fun source _ => ?_
    exact compileEntry_congr (function_perm macros perm)
      (enum_perm macros perm enums) _ _ _ _
  exact ⟨result, compiled sources (.refl _), compiled⟩

end Session

/-- A text that uses a macro, an enumeration and a function of another one. -/
def usingSource : Source := ⟨"gml_Script_use", "x=F(E.b)"⟩

def definingSource : Source := ⟨"gml_Script_f", "#macro F f\nenum E{a,b}"⟩

def emptySession : Session := { target := .ofGeneration .gms23 }

theorem usingSource_tokens :
    (emptySession.processed [usingSource, definingSource]).map (·.tokens) =
      [[⟨.var "x" (emptySession.registry.lookup? "x"), 0⟩, ⟨.mark .assign, 1⟩,
          ⟨.function "f" none, 2⟩, ⟨.mark .parenOpen, 3⟩, ⟨.var "E" none, 4⟩,
          ⟨.mark .dot, 5⟩,
          ⟨.var "b" none, 6⟩, ⟨.mark .parenClose, 7⟩] ++ List.replicate 9 ⟨.eof, 8⟩,
        [⟨.mark .kwEnum, 11⟩, ⟨.var "E" none, 16⟩, ⟨.mark .blockOpen, 17⟩,
          ⟨.var "a" none, 18⟩, ⟨.mark .comma, 19⟩, ⟨.var "b" none, 20⟩,
          ⟨.mark .blockClose, 21⟩] ++
            List.replicate 9 ⟨.eof, 22⟩] := by
  decide +kernel

theorem usingSource_unordered :
    emptySession.MacrosDistinct [usingSource, definingSource] ∧
      emptySession.EnumsDistinct [usingSource, definingSource] ∧
      ∃ result : Source → Except EntryError PendingEntry,
        (emptySession.compilePending [usingSource, definingSource]).1 =
          [result usingSource, result definingSource] ∧
        (emptySession.compilePending [definingSource, usingSource]).1 =
          [result definingSource, result usingSource] := by
  have macros : emptySession.MacrosDistinct [usingSource, definingSource] :=
    ⟨by decide +kernel, by decide +kernel⟩
  have enums : emptySession.EnumsDistinct [usingSource, definingSource] := by
    rw [Session.EnumsDistinct, Session.enumDecls, ← List.flatMap_map, usingSource_tokens]
    decide +kernel
  obtain ⟨result, inOrder, permuted⟩ :=
    Session.compilePending_unordered emptySession _ macros enums
  exact ⟨macros, enums, result, inOrder, permuted _ (.swap _ _ _)⟩

end GameScript
