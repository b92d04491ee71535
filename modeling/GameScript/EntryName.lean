/-! Names of entries.  The name of an entry says what the entry belongs to. -/

namespace GameScript.EntryName

/-- What the names of script entries start with; the rest names a function. -/
def scriptMark : String := "gml_Script_"

/-- What the names of event entries start with; the name of the object follows. -/
def objectMark : String := "gml_Object_"

def after? (mark text : String) : Option String :=
  if text.startsWith mark then some
    (String.ofList (text.toList.drop mark.length)) else none

def script? (entry : String) : Option String := after? scriptMark entry

def isOfObject (object entry : String) : Bool :=
  entry.startsWith (objectMark ++ object ++ "_")

end GameScript.EntryName
