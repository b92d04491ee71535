import GameScript.Emission.Resolution
import GameScript.EntryName
import GameScript.Syntax.Parser
import GameScript.Token.Naming
import GameScript.Token.Scanner

/-! Sessions: entries that share macros, assets, enumerations and functions.

All texts are scanned before any name gets its meaning, and all enumerations and
functions are known before any text is parsed. -/

namespace GameScript

open Builtin Bytecode Emission Syntax Token

/-- A text and the name of the entry that it becomes. -/
structure Source where
  name : String
  text : String
deriving DecidableEq, Repr

inductive EntryFault where
  | lex (errors : List LexError)
  | parse (error : ParseError)
  | emit (error : EmitError)
deriving DecidableEq, Repr

structure EntryError where
  entry : String
  fault : EntryFault
deriving DecidableEq, Repr

namespace EntryError

def message (error : EntryError) : String :=
  match error.fault with
  | .lex errors => s!"{error.entry}: lexing failed with {errors.length} error(s)"
  | .parse cause => s!"{error.entry}: {cause.message}"
  | .emit cause => s!"{error.entry}: {cause.message}"

end EntryError

/-- What outlives the compilation of some entries. -/
structure Session where
  target : Target
  macros : MacroTable := {}
  assets : AssetTable := {}
  functions : Roster String := {}

structure Stream where
  tokens : List Token
  errors : List LexError
deriving DecidableEq, Repr

def scanAll (target : Target) : MacroTable → List Source → List Stream × MacroTable
  | macros, [] => ([], macros)
  | macros, source :: rest =>
    let scan := Token.scan target macros source.text
    let (streams, macros) := scanAll target scan.macros rest
    (⟨scan.padded, scan.errors⟩ :: streams, macros)

namespace Stream

def resolve (sources : NameSources) (stream : Stream) : Stream :=
  let (tokens, errors) := sources.resolve stream.tokens
  ⟨tokens, stream.errors ++ errors⟩

end Stream

def declaredFunctions : List Token → List String
  | [] => []
  | token :: rest =>
    match token.lexeme.kind, rest.head?.map Token.lexeme with
    | .mark .kwFunction, some ⟨.function, payload⟩ =>
      payload.name?.toList ++ declaredFunctions rest
    | _, _ => declaredFunctions rest

def compileEntry (env : Environment) (enums : EnumTable) (stream : Stream) :
    Except EntryError PendingEntry :=
  if stream.errors.isEmpty then
    match parseProgram env.registry enums stream.tokens with
    | .error error => .error ⟨env.name, .parse error⟩
    | .ok program =>
      match emitProgram env program with
      | .error error => .error ⟨env.name, .emit error⟩
      | .ok pending => .ok pending
  else .error ⟨env.name, .lex stream.errors⟩

def resolveAll : NameTables → List (Except EntryError PendingEntry) →
    List (Except EntryError CodeEntry) × NameTables
  | tables, [] => ([], tables)
  | tables, .error error :: rest =>
    let (entries, tables) := resolveAll tables rest
    (.error error :: entries, tables)
  | tables, .ok pending :: rest =>
    let (entry, tables) := pending.resolve tables
    let (entries, tables) := resolveAll tables rest
    (.ok entry :: entries, tables)

namespace Session

def addFunction (session : Session) (name : String) : Session :=
  { session with functions := session.functions.insert name }

def registry (session : Session) : Registry := Registry.ofTarget session.target

def compilePending (session : Session) (sources : List Source) :
    List (Except EntryError PendingEntry) × Session :=
  let registry := session.registry
  let (streams, macros) := scanAll session.target session.macros sources
  let names : NameSources := ⟨session.target, registry, macros, session.assets⟩
  let streams := streams.map (·.resolve names)
  let enums :=
    streams.foldl (fun enums stream => collectEnums registry stream.tokens enums) {}
  let declared := streams.flatMap fun stream => declaredFunctions stream.tokens
  let scripts := sources.filterMap fun source => EntryName.script? source.name
  let functions := (session.functions.insertAll declared).insertAll scripts
  let compile (source : Source) (stream : Stream) : Except EntryError PendingEntry :=
    compileEntry ⟨session.target, registry, functions, source.name⟩ enums stream
  (List.zipWith compile sources streams, { session with macros, functions })

/-- Compiles texts and resolves their names.  Functions of the tables may be
called, except those of the runtime. -/
def compile (session : Session) (sources : List Source) (tables : NameTables) :
    List (Except EntryError CodeEntry) × Session × NameTables :=
  let known := tables.functions.items.filter fun name => !name.startsWith "@@"
  let session := { session with functions := session.functions.insertAll known }
  let (pending, session) := session.compilePending sources
  let (entries, tables) := resolveAll tables pending
  (entries, session, tables)

end Session

def tokenize (target : Target) (text : String) : List Token :=
  let scan := Token.scan target {} text
  let names : NameSources := ⟨target, Registry.ofTarget target, scan.macros, {}⟩
  (names.resolve scan.padded).1

end GameScript
