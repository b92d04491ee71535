import GameScript.Pairs

/-! Enumerations by name, each with its members. -/

namespace GameScript.Syntax

/-- Members of each enumeration, in the order in which the names arrived. -/
structure EnumTable where
  entries : List (String × List (String × Int64)) := []
deriving DecidableEq, Repr

namespace EnumTable

def get? (table : EnumTable) (name : String) : Option (List (String × Int64)) :=
  table.entries.lookup name

/-- A later enumeration of the same name, or member, replaces the value in place. -/
def insert (table : EnumTable) (name : String) (members : List (String × Int64)) :
    EnumTable :=
  let distinct := members.foldl (fun known member => putPair member.1 member.2 known) []
  ⟨putPair name distinct table.entries⟩

end EnumTable

end GameScript.Syntax
