import GameScript.Command.Arguments
import GameScript.Command.Run

/-! The command line program. -/

namespace GameScript.Main

def faultOf : IO.Error → FileFault
  | .noFileOrDirectory .. => .notFound
  | .alreadyExists .. => .alreadyExists
  | _ => .other

def guarded (action : IO α) : IO (Except FileFault α) := do
  try
    let value ← action
    return .ok value
  catch error => return .error (faultOf error)

def readFile (path : String) : IO (Except ReadFault String) := do
  let result ← guarded (IO.FS.readFile path)
  return result.mapError fun fault => ⟨fault, fault == .notFound⟩

partial def readRest (input : IO.FS.Stream) (text : String) : IO String := do
  let line ← input.getLine
  if line.isEmpty then return text else readRest input (text ++ line)

/-- A new file beside a path. -/
partial def newBeside (path : String) (number : Nat) : IO (String × IO.FS.Handle) := do
  let candidate := path ++ ".tmp" ++ toString number
  try
    let handle ← IO.FS.Handle.mk candidate .writeNew
    return (candidate, handle)
  catch error =>
    match faultOf error with
    | .alreadyExists => newBeside path (number + 1)
    | _ => throw error

def replaceFile (path text : String) : IO Unit := do
  let (candidate, handle) ← newBeside path 0
  handle.putStr text
  handle.flush
  IO.FS.rename candidate path

instance : Host IO where
  readFile := readFile
  readInput := do
    let input ← IO.getStdin
    readRest input ""
  writeFile path text := guarded (replaceFile path text)
  makeDirectories path := guarded (IO.FS.createDirAll path)
  print text := IO.print text
  report text := IO.eprint text

def run (arguments : Arguments) (command : Command) : CommandM IO Nat := do
  let target ←
    match arguments.targetPath with
    | some path => readTarget path
    | none => pure arguments.usualTarget
  let config : Config :=
    { target, tablesPath := arguments.tablesPath, rulesPaths := arguments.rulesPaths }
  within "échec d'exécution de la commande" (command.run config)

def complain (message : String) : IO UInt32 := do
  IO.eprintln ("error: " ++ message)
  return 2

def start (words : List String) : IO UInt32 := do
  let parsed : Except String (Arguments × Command) := do
    let arguments ← Arguments.parse words
    let command ← arguments.command
    return (arguments, command)
  match parsed with
  | .error message => complain message
  | .ok (arguments, command) =>
    match ← (run arguments command).run with
    | .ok code => return UInt32.ofNat code
    | .error error => complain error.message

end GameScript.Main

def main (words : List String) : IO UInt32 := GameScript.Main.start words
