import GameScript.Command.Host
import GameScript.Pairs
import GameScript.PathName

/-! Files in memory, and the host that they make. -/

namespace GameScript

/-- A place: the names that lead to it from the working directory.  Places above
that directory start with `..`, and places below the root of all files with `/`. -/
abbrev Place := List String

namespace Place

def isFixed (place : Place) : Bool := place == ["/"] || place.all (· == "..")

def isInside (place : Place) : Bool := place.head? != some ".." && place.head? != some "/"

def parent (place : Place) : Place :=
  if place == ["/"] then place
  else if place.all (· == "..") then ".." :: place
  else place.dropLast

def start (path : String) : Place := if PathName.isAbsolute path then ["/"] else []

end Place

structure FileTree where
  files : List (Place × String) := []
  directories : List Place := []
deriving DecidableEq, Repr

namespace FileTree

def isDirectory (tree : FileTree) (place : Place) : Bool :=
  place.isFixed || tree.directories.contains place

def isFile (tree : FileTree) (place : Place) : Bool := (tree.files.lookup place).isSome

def contains (tree : FileTree) (place : Place) : Bool :=
  tree.isFile place || tree.isDirectory place

/-- What a place that must be a directory is instead. -/
def directoryFault (tree : FileTree) (place : Place) : FileFault :=
  if tree.isFile place then .notDirectory else .notFound

/-- The place that some parts of a path lead to; all places on the way are
directories. -/
def locate (tree : FileTree) : Place → List String → Except FileFault Place
  | place, [] => .ok place
  | place, part :: rest =>
    if !tree.isDirectory place then .error (tree.directoryFault place)
    else if part = "" || part = "." then tree.locate place rest
    else if part = ".." then tree.locate place.parent rest
    else if PathName.isLong part then .error .longName
    else tree.locate (place ++ [part]) rest

def find (tree : FileTree) (path : String) : Except FileFault Place :=
  if path.isEmpty then .error .notFound
  else if PathName.isBad path then .error .badPath
  else tree.locate (Place.start path) (PathName.parts path)

def read (tree : FileTree) (path : String) : Except ReadFault String := do
  let place ← (tree.find path).mapError (⟨·, true⟩)
  match tree.files.lookup place with
  | some text => return text
  | none =>
    if tree.isDirectory place then throw ⟨.isDirectory, false⟩ else throw ⟨.notFound, true⟩

def putFile (tree : FileTree) (place : Place) (text : String) : FileTree :=
  { tree with files := putPair place text tree.files }

/-- The first place for a temporary file that is free. -/
def freePlace (tree : FileTree) (directory : Place) (name : String) : Nat → Nat → Place
  | 0, number => directory ++ [name ++ ".tmp" ++ toString number]
  | fuel + 1, number =>
    let place := directory ++ [name ++ ".tmp" ++ toString number]
    if tree.contains place then tree.freePlace directory name fuel (number + 1) else place

/-- Why a file cannot be moved to the place that a path leads to. -/
def obstacle? (tree : FileTree) (path : String) (place : Place) : Option FileFault :=
  if PathName.endsInDot path && !tree.isDirectory place then some
    (tree.directoryFault place)
  else if PathName.isDirectoryPath path || tree.isDirectory place then some .isDirectory
  else none

/-- Writes a file next to its place and then moves it there.  If that fails, the
file stays where it was written. -/
def write (tree : FileTree) (path text : String) : Except FileFault Unit × FileTree :=
  match tree.locate (Place.start path) (PathName.parentParts path),
    PathName.fileName? path with
  | _, none => (.error .other, tree)
  | .error fault, _ => (.error (if PathName.isBad path then .badPath else fault), tree)
  | .ok directory, some name =>
    let bound := tree.files.length + tree.directories.length
    let temporary := tree.freePlace directory name bound 0
    if PathName.isBad path then (.error .badPath, tree)
    else if !tree.isDirectory directory then (.error (tree.directoryFault directory), tree)
    else if PathName.isLong (temporary.getLastD "") then (.error .longName, tree)
    else
      match tree.obstacle? path (directory ++ [name]) with
      | some fault => (.error fault, tree.putFile temporary text)
      | none => (.ok (), tree.putFile (directory ++ [name]) text)

def makeDirectory (tree : FileTree) (start : Place) (parts : List String) :
    Except FileFault FileTree := do
  let parts := parts.filter (· ≠ "")
  let place ← tree.locate start parts.dropLast
  if !tree.isDirectory place then throw (tree.directoryFault place)
  match parts.getLast? with
  | none | some "." | some ".." => return tree
  | some name =>
    let place := place ++ [name]
    if PathName.isLong name then throw .longName
    else if tree.isFile place then throw .alreadyExists
    else if tree.isDirectory place then return tree
    else return { tree with directories := tree.directories ++ [place] }

def makeFirst (tree : FileTree) (start : Place) :
    List (List String) → Except FileFault FileTree
  | [] => return tree
  | parts :: above =>
    match tree.makeDirectory start parts with
    | .error .notFound => do
      let tree ← tree.makeFirst start above
      tree.makeDirectory start parts
    | result => result

def makeAll (tree : FileTree) (path : String) : Except FileFault FileTree :=
  if PathName.isBad path then .error .badPath
  else tree.makeFirst (Place.start path) (PathName.parts path :: PathName.ancestors path)

def ofFiles (files : List (String × String)) : FileTree :=
  files.foldl (fun tree (path, text) =>
    let parent := String.intercalate "/" (PathName.parentParts path)
    let tree := (tree.makeAll parent).toOption.getD tree
    tree.putFile (PathName.steps path) text) {}

/-- The files of the working directory that another tree does not have like this,
by path. -/
def changes (tree before : FileTree) : List (String × String) :=
  let changed := tree.files.filter fun (place, text) =>
    place.isInside && before.files.lookup place ≠ some text
  (changed.map fun (place, text) => (String.intercalate "/" place, text)).mergeSort
    fun left right => left.1 ≤ right.1

end FileTree

structure Machine where
  tree : FileTree
  input : String := ""
  output : String := ""
  log : String := ""

instance : Host (StateM Machine) where
  readFile path := return (← get).tree.read path
  readInput := modifyGet fun machine => (machine.input, { machine with input := "" })
  writeFile path text := modifyGet fun machine =>
    let (result, tree) := machine.tree.write path text
    (result, { machine with tree })
  makeDirectories path := modifyGet fun machine =>
    match machine.tree.makeAll path with
    | .ok tree => (.ok (), { machine with tree })
    | .error fault => (.error fault, machine)
  print text := modify fun machine => { machine with output := machine.output ++ text }
  report text := modify fun machine => { machine with log := machine.log ++ text }

end GameScript
