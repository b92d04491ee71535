/-! Names of files. -/

namespace GameScript.PathName

def parts (path : String) : List String := path.splitOn "/"

def steps (path : String) : List String :=
  (parts path).filter fun part => part ≠ "" && part ≠ "."

def isAbsolute (path : String) : Bool := path.startsWith "/"

/-- No name may hold the null character. -/
def isBad (path : String) : Bool := path.toList.contains '\x00'

/-- A name takes 255 bytes at most. -/
def isLong (name : String) : Bool := 255 < name.utf8ByteSize

def fileName? (path : String) : Option String :=
  match (steps path).getLast? with
  | some ".." => none
  | last => last

def parentParts (path : String) : List String := (steps path).dropLast

def ancestors (path : String) : List (List String) :=
  let parts := parentParts path
  (List.range parts.length).map fun dropped => parts.take (parts.length - dropped)

/-- A path that goes on behind its last name leads to a directory. -/
def isDirectoryPath (path : String) : Bool := ["", "."].contains ((parts path).getLastD "")

def endsInDot (path : String) : Bool :=
  ((parts path).filter (· ≠ "")).getLast? == some "."

/-- A name without its extension: what stands before the last dot, unless the name
starts with it. -/
def stem (name : String) : String :=
  match (name.splitOn ".").dropLast with
  | [] | [""] => name
  | pieces => String.intercalate "." pieces

/-- A path below a directory; an absolute path stays as it is. -/
def join (directory path : String) : String :=
  if isAbsolute path || directory.isEmpty then path
  else if directory.endsWith "/" then directory ++ path
  else directory ++ "/" ++ path

end GameScript.PathName
