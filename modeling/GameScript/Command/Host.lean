/-! What commands need from the machine that they run on. -/

namespace GameScript

inductive FileFault where
  | notFound
  | notDirectory
  | isDirectory
  | alreadyExists
  | badPath
  | longName
  | invalidText
  | other
deriving DecidableEq, Repr

namespace FileFault

def message : FileFault → String
  | .notFound => "no such file or directory"
  | .notDirectory => "not a directory"
  | .isDirectory => "is a directory"
  | .alreadyExists => "file exists"
  | .badPath => "no name may hold a null character"
  | .longName => "file name too long"
  | .invalidText => "the file is not text"
  | .other => "the file could not be used"

end FileFault

structure ReadFault where
  fault : FileFault
  /-- It could not even be opened. -/
  isUnopened : Bool
deriving DecidableEq, Repr

/-- Files, standard input and the two outputs. -/
class Host (m : Type → Type) where
  readFile : String → m (Except ReadFault String)
  readInput : m String
  /-- Replaces a file in one step; the path has a last name. -/
  writeFile : String → String → m (Except FileFault Unit)
  /-- Makes a directory and those above it, as far as they are missing. -/
  makeDirectories : String → m (Except FileFault Unit)
  print : String → m Unit
  report : String → m Unit

end GameScript
