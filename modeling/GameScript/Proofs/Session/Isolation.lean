import GameScript.Proofs.Session.Sharing

/-! Entries that are refused.

A text that is refused, and that adds nothing to what the entries of its session share,
leaves no trace but its own error. -/

namespace GameScript

open Builtin Bytecode Emission Syntax Token

theorem scanAll_append (target : Target) (macros : MacroTable) (front back : List Source) :
    scanAll target macros (front ++ back) =
      ((scanAll target macros front).1 ++
          (scanAll target (scanAll target macros front).2 back).1,
        (scanAll target (scanAll target macros front).2 back).2) := by
  induction front generalizing macros with
  | nil => rfl
  | cons source rest induction => simp only [List.cons_append, scanAll, induction]

theorem length_scanAll (target : Target) (macros : MacroTable) (sources : List Source) :
    (scanAll target macros sources).1.length = sources.length := by
  induction sources generalizing macros with
  | nil => rfl
  | cons source rest induction => simp only [scanAll, List.length_cons, induction]

theorem resolveAll_append (tables : NameTables)
    (front back : List (Except EntryError PendingEntry)) :
    resolveAll tables (front ++ back) =
      ((resolveAll tables front).1 ++ (resolveAll (resolveAll tables front).2 back).1,
        (resolveAll (resolveAll tables front).2 back).2) := by
  induction front generalizing tables with
  | nil => rfl
  | cons result rest induction =>
    cases result with
    | error error => simp only [List.cons_append, resolveAll, induction]
    | ok pending => simp only [List.cons_append, resolveAll, induction]

theorem length_resolveAll (tables : NameTables)
    (results : List (Except EntryError PendingEntry)) :
    (resolveAll tables results).1.length = results.length := by
  induction results generalizing tables with
  | nil => rfl
  | cons result rest induction =>
    cases result with
    | error error => simp only [resolveAll, List.length_cons, induction]
    | ok pending => simp only [resolveAll, List.length_cons, induction]

/-- Resolution refuses nothing that was compiled, and keeps each error in its place. -/
theorem resolveAll_error_iff (tables : NameTables)
    (results : List (Except EntryError PendingEntry)) (index : Nat) (error : EntryError) :
    (resolveAll tables results).1[index]? = some (.error error) ↔
      results[index]? = some (.error error) := by
  induction results generalizing tables index with
  | nil => simp [resolveAll]
  | cons result rest induction =>
    cases result <;> cases index <;> simp [resolveAll, induction]

namespace Session

variable {session : Session} {front back : List Source} {bad : Source}

/-- The text between some others adds nothing to what the entries of a session share: no
macro joins the table when it is scanned, its tokens declare no enumeration and no
function, and it is not the text of a script. -/
structure AddsNothing (session : Session) (front : List Source) (bad : Source)
    (back : List Source) : Prop where
  macros : (Token.scan session.target (session.macrosWith front) bad.text).macros =
    session.macrosWith front
  enums : ∀ stream ∈ (session.processed (front ++ bad :: back))[front.length]?,
    declaredEnums session.registry stream.tokens = []
  functions : ∀ stream ∈ (session.processed (front ++ bad :: back))[front.length]?,
    declaredFunctions stream.tokens = []
  script : bad.name.startsWith EntryName.scriptMark = false

namespace AddsNothing

variable (nothing : session.AddsNothing front bad back)

include nothing

theorem macrosWith :
    session.macrosWith (front ++ bad :: back) = session.macrosWith (front ++ back) := by
  have kept := nothing.macros
  simp only [Session.macrosWith] at kept
  simp only [Session.macrosWith, scanAll_append, scanAll, kept]

/-- The streams of the other texts are what they are without the text. -/
theorem processed :
    ∃ before stream after, before.length = front.length ∧
      session.processed (front ++ back) = before ++ after ∧
      session.processed (front ++ bad :: back) = before ++ stream :: after ∧
      declaredEnums session.registry stream.tokens = [] ∧
      declaredFunctions stream.tokens = [] := by
  have kept := nothing.macros
  have enums := nothing.enums
  have functions := nothing.functions
  simp only [Session.macrosWith] at kept
  simp only [Session.processed, nothing.macrosWith, scanAll_append, scanAll, kept,
    List.map_append, List.map_cons] at enums functions ⊢
  have count : ((scanAll session.target session.macros front).1.map
      (·.resolve (session.nameSources (session.macrosWith (front ++ back))))).length =
        front.length := by
    rw [List.length_map, length_scanAll]
  rw [← count, List.getElem?_append_right (Nat.le_refl _), Nat.sub_self] at enums functions
  exact ⟨_, _, _, count, rfl, rfl, enums _ rfl, functions _ rfl⟩

theorem enumDecls :
    session.enumDecls (front ++ bad :: back) = session.enumDecls (front ++ back) := by
  obtain ⟨before, stream, after, -, without, inserted, noEnum, -⟩ := nothing.processed
  simp only [Session.enumDecls, without, inserted, List.flatMap_append, List.flatMap_cons,
    noEnum, List.nil_append]

theorem functionsWith :
    session.functionsWith (front ++ bad :: back) =
      session.functionsWith (front ++ back) := by
  obtain ⟨before, stream, after, -, without, inserted, -, noFunction⟩ := nothing.processed
  have noScript : EntryName.script? bad.name = none := by
    simp [EntryName.script?, EntryName.after?, nothing.script]
  simp only [Session.functionsWith, without, inserted, List.flatMap_append,
    List.flatMap_cons, noFunction, List.nil_append, List.filterMap_append,
    List.filterMap_cons, noScript]

/-- The results of the other texts, and what the entries share, are what they are without
it. -/
theorem compilePending :
    ∃ before result after, before.length = front.length ∧
      session.compilePending (front ++ back) =
        (before ++ after, (session.compilePending (front ++ back)).2) ∧
      session.compilePending (front ++ bad :: back) =
        (before ++ result :: after, (session.compilePending (front ++ back)).2) := by
  obtain ⟨before, stream, after, count, without, inserted, -, -⟩ := nothing.processed
  simp only [compilePending_eq, nothing.enumDecls, nothing.functionsWith,
    nothing.macrosWith, without, inserted, List.zipWith_append count.symm,
    List.zipWith_cons_cons]
  refine ⟨_, _, _, ?_, rfl, rfl⟩
  rw [List.length_zipWith, count, Nat.min_self]

end AddsNothing

end Session

/-- Whatever the session, the tables and the place among the other texts, a text that is
refused and adds nothing leaves all else as it is without it: the other results and their
order, the tables with all their numbers, the macros and the functions of the session. -/
theorem refused_entry_leaves_no_trace (session : Session) (tables : NameTables)
    (front : List Source) (bad : Source) (back : List Source)
    (nothing : session.AddsNothing front bad back) (error : EntryError)
    (refused : (session.compile (front ++ bad :: back) tables).1[front.length]? =
      some (.error error)) :
    ∃ before after shared, before.length = front.length ∧
      session.compile (front ++ back) tables = (before ++ after, shared) ∧
      session.compile (front ++ bad :: back) tables =
        (before ++ .error error :: after, shared) := by
  let known : Session :=
    { session with
      functions := session.functions.insertAll
        (tables.functions.items.filter fun name => !name.startsWith "@@") }
  have nothingKnown : known.AddsNothing front bad back :=
    ⟨nothing.macros, nothing.enums, nothing.functions, nothing.script⟩
  have unfolded (sources : List Source) :
      session.compile sources tables =
        ((resolveAll tables (known.compilePending sources).1).1,
          (known.compilePending sources).2,
          (resolveAll tables (known.compilePending sources).1).2) := rfl
  obtain ⟨before, result, after, count, without, inserted⟩ := nothingKnown.compilePending
  have first : (resolveAll tables before).1.length = front.length := by
    rw [length_resolveAll, count]
  rw [unfolded, resolveAll_error_iff, inserted, ← count,
    List.getElem?_append_right (Nat.le_refl _), Nat.sub_self, List.getElem?_cons_zero,
    Option.some.injEq] at refused
  rw [unfolded, unfolded, inserted, without, refused]
  simp only [resolveAll_append, resolveAll]
  exact ⟨_, _, _, first, rfl, rfl⟩

theorem compileEntry_of_parse_error {env : Environment} {enums : EnumTable}
    {tokens : List Token} {error : ParseError}
    (refused : parseProgram env.registry enums tokens = .error error) :
    compileEntry env enums ⟨tokens, []⟩ = .error ⟨env.name, .parse error⟩ := by
  simp [compileEntry, refused]

def valuelessSource : Source := ⟨"b", "s=;"⟩

def oldSession : Session := { target := .ofGeneration .gms1 }

theorem valuelessSource_streams :
    oldSession.processed [⟨"a", "s=t"⟩, valuelessSource, ⟨"c", "t=s"⟩] =
      [⟨[⟨.var "s" none, 0⟩, ⟨.mark .assign, 1⟩, ⟨.var "t" none, 2⟩] ++
          List.replicate 9 ⟨.eof, 3⟩, []⟩,
        ⟨[⟨.var "s" none, 0⟩, ⟨.mark .assign, 1⟩, ⟨.mark .semicolon, 2⟩] ++
          List.replicate 9 ⟨.eof, 3⟩, []⟩,
        ⟨[⟨.var "t" none, 0⟩, ⟨.mark .assign, 1⟩, ⟨.var "s" none, 2⟩] ++
          List.replicate 9 ⟨.eof, 3⟩, []⟩] := by
  decide +kernel

theorem valuelessSource_refused :
    (oldSession.compile [⟨"a", "s=t"⟩, valuelessSource, ⟨"c", "t=s"⟩] {}).1[1]? =
      some (.error ⟨"b", .parse ⟨2, .expected "expression" "Semicolon"⟩⟩) := by
  have noEnums : oldSession.enumDecls [⟨"a", "s=t"⟩, valuelessSource, ⟨"c", "t=s"⟩] =
      [] := by
    rw [Session.enumDecls, valuelessSource_streams]
    decide +kernel
  have noValue :
      parseProgram oldSession.registry {} ([⟨.var "s" none, 0⟩, ⟨.mark .assign, 1⟩,
        ⟨.mark .semicolon, 2⟩] ++ List.replicate 9 ⟨.eof, 3⟩) =
          .error ⟨2, .expected "expression" "Semicolon"⟩ := by
    rfl
  have unfolded (sources : List Source) : (oldSession.compile sources {}).1 =
      (resolveAll {} (oldSession.compilePending sources).1).1 := rfl
  rw [unfolded, resolveAll_error_iff, Session.compilePending_eq,
    valuelessSource_streams, noEnums]
  simp only [List.zipWith_cons_cons, List.getElem?_cons_succ, List.getElem?_cons_zero]
  rw [compileEntry_of_parse_error noValue, valuelessSource]

theorem valuelessSource_leaves_no_trace :
    oldSession.AddsNothing [⟨"a", "s=t"⟩] valuelessSource [⟨"c", "t=s"⟩] ∧
      ∃ before after shared, before.length = 1 ∧
        oldSession.compile [⟨"a", "s=t"⟩, ⟨"c", "t=s"⟩] {} = (before ++ after, shared) ∧
        oldSession.compile [⟨"a", "s=t"⟩, valuelessSource, ⟨"c", "t=s"⟩] {} =
          (before ++ .error ⟨"b", .parse ⟨2, .expected "expression" "Semicolon"⟩⟩ :: after,
            shared) := by
  have nothing : oldSession.AddsNothing [⟨"a", "s=t"⟩] valuelessSource [⟨"c", "t=s"⟩] := by
    refine ⟨by decide +kernel, ?_, ?_, by decide +kernel⟩
    all_goals
      rw [List.singleton_append, valuelessSource_streams]
      rintro _ ⟨⟩
      decide +kernel
  exact ⟨nothing,
    refused_entry_leaves_no_trace oldSession {} _ _ _ nothing _ valuelessSource_refused⟩

end GameScript
