import GameScript.Command.Basic
import GameScript.RoundTrip

/-! What commands do. -/

namespace GameScript

open Builtin Bytecode Token

def statusLine (color tag message : String) : String :=
  "\x1b[1m\x1b[" ++ color ++ "m" ++ tag ++ "\x1b[39m\x1b[0m " ++ message ++ "\n"

def goodLine (tag message : String) : String := statusLine "32" tag message

def badLine (tag message : String) : String := statusLine "31" tag message

def placed (lines : LineMap) (pos : Position) (message : String) : String :=
  let (line, column) := lines.locate pos
  s!"{line}:{column}: {message}"

def EntryError.report (error : EntryError) (text : String) : String :=
  let lines := LineMap.ofText text
  let describe (pos : Position) (message : String) : String :=
    error.entry ++ ":" ++ placed lines pos message
  match error.fault with
  | .lex errors =>
    String.join (errors.map fun cause => badLine "LEX" (describe cause.pos cause.message))
  | .parse cause => badLine "PARSE" (describe cause.pos cause.message)
  | .emit cause => badLine "COMPILE" (describe cause.pos cause.message)

def EntryError.chain (error : EntryError) : String :=
  match error.fault with
  | .lex _ => error.message
  | .parse cause => error.message ++ ": " ++ cause.message
  | .emit cause => error.message ++ ": " ++ cause.message

namespace RoundTripError

def message : RoundTripError → String
  | .recovery error => error.message
  | .compile error => "recompilation: " ++ error.chain
  | .listing error => error.message

end RoundTripError

def scalarText : Scalar → String
  | .number value => "Number(" ++ value.render .debugging ++ ")"
  | .int64 value => "Int64(" ++ toString value.toInt ++ ")"
  | .string text => "String(" ++ Text.showText text ++ ")"

def contentText : Payload → String
  | .none => ""
  | .identifier name | .var name _ => "\t" ++ name
  | .function name _ => "\t" ++ name ++ "()"
  | .constant content =>
    match content.name with
    | some name => "\t" ++ name ++ " = " ++ scalarText content.value
    | none => "\t" ++ scalarText content.value

def tokenLine (lines : LineMap) (token : Token) : String :=
  let (line, column) := lines.locate token.pos
  s!"{line}:{column}\t" ++ token.lexeme.kind.name ++
    contentText token.lexeme.payload ++ "\n"

def Bundle.listing [Monad m] (bundle : Bundle) : CommandM m String := do
  let texts ← bundle.entries.mapM fun entry =>
    match entry.listing bundle.tables with
    | .ok text => pure (text ++ "\n")
    | .error error => within ("désassemblage de " ++ entry.name) (failWith (.table error))
  return String.join texts

/-! The commands.  Each returns the exit code: one if an entry failed. -/

section

variable {m : Type → Type} [Monad m] [Host m]

def report (text : String) : CommandM m Unit := ExceptT.lift (Host.report text)

def exitCode (failures : Nat) : Nat := if failures = 0 then 0 else 1

def runLex (config : Config) (input : Input) (output : Output) : CommandM m Nat := do
  let text ← within "lecture de la source" (readSource input)
  let tables ← config.readTables
  let target := config.target
  let scan := Token.scan target {} text
  let names : NameSources := ⟨target, Registry.ofTarget target, scan.macros, tables.assets⟩
  let (tokens, errors) := names.resolve scan.padded
  let errors := scan.errors ++ errors
  let lines := LineMap.ofText text
  writeText output (String.join (tokens.map (tokenLine lines)))
  report (String.join (errors.map fun error =>
    badLine "LEX" (placed lines error.pos error.message)))
  return exitCode errors.length

def countLine (tag : String) (entries failures : Nat) : String :=
  goodLine tag s!"{entries} entries, {failures} failed"

def runCompile (config : Config) (inputs : List Input) (output : Output)
    (isListing : Bool) : CommandM m Nat := do
  let texts ← readSources inputs
  let start ← config.readTables
  let sources := texts.map fun (input, text) => (⟨input.entryName, text⟩ : Source)
  let session : Session := { target := config.target, assets := start.assets }
  let (results, _, tables) := session.compile sources start
  let entries := results.filterMap Except.toOption
  let reports :=
    List.zipWith (fun (source : Source) (result : Except EntryError CodeEntry) =>
    match result with
    | .ok _ => ""
    | .error error => error.report source.text) sources results
  report (String.join reports)
  let bundle : Bundle := { target := config.target, tables, entries }
  let text ← if isListing then bundle.listing else pure bundle.render
  writeText output text
  let failures := results.length - entries.length
  report (countLine "COMPILE" entries.length failures)
  return exitCode failures

def runDisassemble (input : Input) (output : Output) : CommandM m Nat := do
  let bundle ← readBundle input
  writeText output (← bundle.listing)
  return 0

/-- Writes the sources of the entries; returns their text, if there is no
directory, and the number of failures. -/
def writeEntries (directory : Option String) :
    List (CodeEntry × Except Outline.RecoveryError String) → CommandM m (String × Nat)
  | [] => return ("", 0)
  | (entry, result) :: rest => do
    match result, directory with
    | .ok text, some directory =>
      writeFile (PathName.join directory (entry.name ++ ".gml")) text
      writeEntries (some directory) rest
    | .ok text, none =>
      let (texts, failures) ← writeEntries none rest
      return ("// " ++ entry.name ++ "\n" ++ text ++ "\n" ++ texts, failures)
    | .error error, directory =>
      report (badLine "DECOMPILE" (entry.name ++ ": " ++ error.message))
      let (texts, failures) ← writeEntries directory rest
      return (texts, failures + 1)

def runDecompile (config : Config) (input : Input) (directory : Option String)
    (usesRules : Bool) : CommandM m Nat := do
  let bundle ← readBundle input
  let rules ← if usesRules then some <$> config.readRules else pure none
  if let some path := directory then
    match ← ExceptT.lift (Host.makeDirectories path) with
    | .ok () => pure ()
    | .error fault => within ("création de " ++ path) (failWith (.file fault))
  let results := bundle.entries.map fun entry =>
    (entry, entry.source bundle.target bundle.tables rules)
  let (text, failures) ← writeEntries directory results
  if directory.isNone then writeText .standard text
  report (countLine "DECOMPILE" bundle.entries.length failures)
  return exitCode failures

/-- The line about the round trip of one source, and whether it failed. -/
def tripLine (session : Session) (start tables : NameTables) (source : Source) :
    Except EntryError CodeEntry → String × Bool
  | .error error => (error.report source.text, true)
  | .ok entry =>
    match RoundTrip.run session start tables entry with
    | .ok trip =>
      if trip.isSame then (goodLine "SAME" source.name, false)
      else (badLine "DIFF" source.name, true)
    | .error error => (badLine "FAIL" (source.name ++ ": " ++ error.message), true)

def runRoundTrip (config : Config) (inputs : List Input) : CommandM m Nat := do
  let texts ← readSources inputs
  let start ← config.readTables
  let sources := texts.map fun (input, text) => (⟨input.entryName, text⟩ : Source)
  let session : Session := { target := config.target, assets := start.assets }
  let (results, session, tables) := session.compile sources start
  let lines := List.zipWith (tripLine session start tables) sources results
  report (String.join (lines.map Prod.fst))
  return exitCode (lines.countP Prod.snd)

def Command.run (config : Config) : Command → CommandM m Nat
  | .lex input output => runLex config input output
  | .compile inputs output isListing => runCompile config inputs output isListing
  | .disassemble input output => runDisassemble input output
  | .decompile input directory usesRules => runDecompile config input directory usesRules
  | .roundTrip inputs => runRoundTrip config inputs

end

end GameScript
