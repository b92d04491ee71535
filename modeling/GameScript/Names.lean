import GameScript.Bytecode.Kinds
import GameScript.Pairs

/-! Tables of the names that code refers to by number. -/

namespace GameScript

open Bytecode

/-- Items without repetition, numbered from zero in the order of arrival. -/
structure Roster (α : Type) where
  items : List α := []
deriving DecidableEq, Repr

namespace Roster

variable {α : Type} [DecidableEq α]

def get? (roster : Roster α) (id : Nat) : Option α := roster.items[id]?

def idOf? (roster : Roster α) (item : α) : Option Nat := roster.items.idxOf? item

def contains (roster : Roster α) (item : α) : Bool := roster.items.contains item

def insert (roster : Roster α) (item : α) : Roster α :=
  if roster.contains item then roster else ⟨roster.items ++ [item]⟩

def insertAll (roster : Roster α) (items : List α) : Roster α := items.foldl insert roster

def intern (roster : Roster α) (item : α) : Roster α × Nat :=
  match roster.idOf? item with
  | some id => (roster, id)
  | none => (⟨roster.items ++ [item]⟩, roster.items.length)

def ofList (items : List α) : Roster α := insertAll {} items

end Roster

inductive AssetKind where
  | object | sprite | sound | room | background | path | script | font | timeline | shader
  | sequence | animCurve
deriving DecidableEq, Repr

namespace AssetKind

def all : List AssetKind :=
  [.object, .sprite, .sound, .room, .background, .path, .script, .font, .timeline, .shader,
    .sequence, .animCurve]

def name : AssetKind → String
  | .object => "object"
  | .sprite => "sprite"
  | .sound => "sound"
  | .room => "room"
  | .background => "background"
  | .path => "path"
  | .script => "script"
  | .font => "font"
  | .timeline => "timeline"
  | .shader => "shader"
  | .sequence => "sequence"
  | .animCurve => "anim_curve"

def ofName? (text : String) : Option AssetKind := all.find? (·.name == text)

end AssetKind

/-- An asset: its kind, and its number among the assets of that kind. -/
structure Asset where
  kind : AssetKind
  id : Int
deriving DecidableEq, Repr

/-- Assets by name, in the order in which the names arrived. -/
structure AssetTable where
  entries : List (String × Asset) := []
deriving DecidableEq, Repr

namespace AssetTable

def insert (table : AssetTable) (name : String) (asset : Asset) : AssetTable :=
  ⟨putPair name asset table.entries⟩

def get? (table : AssetTable) (name : String) : Option Asset := table.entries.lookup name

def nameOf? (table : AssetTable) (asset : Asset) : Option String :=
  (table.entries.find? (·.2 == asset)).map (·.1)

def size (table : AssetTable) : Nat := table.entries.length

def isEmpty (table : AssetTable) : Bool := table.entries.isEmpty

end AssetTable

/-! Strings, functions and variables. -/

/-- A variable: its name, and the instance it is stored under. -/
structure StoredVariable where
  name : String
  scope : Instance
deriving DecidableEq, Repr

structure NameTables where
  strings : Roster String := {}
  functions : Roster String := {}
  vars : Roster StoredVariable := {}
  assets : AssetTable := {}
deriving DecidableEq, Repr

/-- A number that no entry of a table has. -/
inductive TableError where
  | unknownString (id : Nat)
  | unknownFunction (id : Nat)
  | unknownVariable (id : Nat)
deriving DecidableEq, Repr

namespace TableError

def message : TableError → String
  | .unknownString id => s!"unknown string id {id}"
  | .unknownFunction id => s!"unknown function id {id}"
  | .unknownVariable id => s!"unknown variable id {id}"

end TableError

namespace NameTables

def internString (tables : NameTables) (text : String) : NameTables × Nat :=
  let (strings, id) := tables.strings.intern text
  ({ tables with strings }, id)

def internFunction (tables : NameTables) (name : String) : NameTables × Nat :=
  let (functions, id) := tables.functions.intern name
  ({ tables with functions }, id)

/-- Variables are stored under the scope of their instance. -/
def internVariable (tables : NameTables) (name : String) (owner : Instance) :
    NameTables × Nat :=
  let (vars, id) := tables.vars.intern ⟨name, owner.scope⟩
  ({ tables with vars }, id)

def string (tables : NameTables) (id : Nat) : Except TableError String :=
  match tables.strings.get? id with
  | some text => .ok text
  | none => .error (.unknownString id)

def function (tables : NameTables) (id : Nat) : Except TableError String :=
  match tables.functions.get? id with
  | some name => .ok name
  | none => .error (.unknownFunction id)

def storedVariable (tables : NameTables) (id : Nat) : Except TableError StoredVariable :=
  match tables.vars.get? id with
  | some stored => .ok stored
  | none => .error (.unknownVariable id)

end NameTables

end GameScript
