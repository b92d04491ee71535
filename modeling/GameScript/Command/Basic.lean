import GameScript.Bundle
import GameScript.Command.Host
import GameScript.Outline.RuleDocument
import GameScript.PathName

/-! Commands, their inputs and outputs, and why they fail. -/

namespace GameScript

open Json

inductive Input where
  | file (path : String)
  | standard
deriving DecidableEq, Repr

namespace Input

def ofPath (path : String) : Input := if path = "-" then .standard else .file path

def entryName : Input → String
  | .file path =>
    match PathName.fileName? path with
    | some name => PathName.stem name
    | none => path
  | .standard => "stdin"

end Input

inductive Output where
  | file (path : String)
  | standard
deriving DecidableEq, Repr

inductive Command where
  | lex (input : Input) (output : Output)
  | compile (inputs : List Input) (output : Output) (isListing : Bool)
  | disassemble (input : Input) (output : Output)
  /-- Writes the sources of a bundle, into a directory if there is one. -/
  | decompile (input : Input) (directory : Option String) (usesRules : Bool)
  | roundTrip (inputs : List Input)
deriving DecidableEq, Repr

structure Config where
  target : Target := default
  tablesPath : Option String := none
  /-- Rules, the later ones being stronger. -/
  rulesPaths : List String := []

inductive CommandCause where
  | file (fault : FileFault)
  | document
  | table (error : TableError)
  | unnamedOutput (path : String)
deriving DecidableEq, Repr

namespace CommandCause

def message : CommandCause → String
  | .file fault => fault.message
  | .document => "invalid JSON document"
  | .table error => error.message
  | .unnamedOutput path => "chemin de sortie sans nom: " ++ path

end CommandCause

structure CommandError where
  /-- What was being done, the whole first. -/
  contexts : List String
  cause : CommandCause
deriving DecidableEq, Repr

namespace CommandError

def message (error : CommandError) : String :=
  String.intercalate ": " (error.contexts ++ [error.cause.message])

end CommandError

abbrev CommandM (m : Type → Type) := ExceptT CommandError m

def within [Monad m] (context : String) (action : CommandM m α) : CommandM m α :=
  ExceptT.adapt (fun error => { error with contexts := context :: error.contexts }) action

def failWith [Monad m] (cause : CommandCause) : CommandM m α := throw ⟨[], cause⟩

section

variable {m : Type → Type} [Monad m] [Host m]

def readSource : Input → CommandM m String
  | .standard => ExceptT.lift Host.readInput
  | .file path => do
    match ← ExceptT.lift (Host.readFile path) with
    | .ok text => return text
    | .error ⟨fault, true⟩ => within ("ouverture: " ++ path) (failWith (.file fault))
    | .error ⟨fault, false⟩ => failWith (.file fault)

def readSources (inputs : List Input) : CommandM m (List (Input × String)) :=
  (if inputs.isEmpty then [Input.standard] else inputs).mapM fun input => do
    let text ← readSource input
    return (input, text)

def readDocument (reading invalid path : String) (parse? : String → Option α) :
    CommandM m α := do
  match ← ExceptT.lift (Host.readFile path) with
  | .error fault => within (reading ++ ": " ++ path) (failWith (.file fault.fault))
  | .ok text =>
    match parse? text with
    | some value => return value
    | none => within (invalid ++ ": " ++ path) (failWith .document)

def readTarget (path : String) : CommandM m Target :=
  readDocument "lecture de la cible" "cible invalide" path (decodeText? Target.decode)

def Config.readTables (config : Config) : CommandM m NameTables :=
  match config.tablesPath with
  | some path =>
    readDocument "lecture des tables" "tables de noms invalides" path
      (decodeText? NameTables.decode)
  | none => return {}

def Config.readRules (config : Config) : CommandM m Outline.Rules :=
  config.rulesPaths.foldlM (fun rules path =>
    readDocument "lecture des règles" "règles de macros invalides" path rules.addText?)
      .builtin

def readBundle (input : Input) : CommandM m Bundle := do
  let text ← readSource input
  match Bundle.parse? text with
  | some bundle => return bundle
  | none => within "lot compilé invalide" (failWith .document)

def writeFile (path text : String) : CommandM m Unit :=
  within ("écriture de " ++ path) do
    if (PathName.fileName? path).isNone then failWith (.unnamedOutput path)
    match ← ExceptT.lift (Host.writeFile path text) with
    | .ok () => return
    | .error fault => failWith (.file fault)

def writeText (output : Output) (text : String) : CommandM m Unit :=
  match output with
  | .standard => ExceptT.lift (Host.print text)
  | .file path => writeFile path text

end

end GameScript
