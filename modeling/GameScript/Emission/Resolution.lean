import GameScript.Emission.Code

/-! Resolution: symbolic names become numbers of the name tables.

Names are interned in the order of emission, so entries that are resolved in a
fixed order always get the same tables. -/

namespace GameScript.Emission

open Bytecode

def resolveSymbol (state : Code × NameTables) (reference : Nat × Symbol) :
    Code × NameTables :=
  let (code, tables) := state
  let (index, symbol) := reference
  if index < code.size then
    match symbol with
    | .string text =>
      let (tables, id) := tables.internString text
      (code.modify index fun ins => { ins with immediate := some (.string id) }, tables)
    | .var name scope access =>
      let (tables, id) := tables.internVariable name scope
      (code.modify index fun ins =>
        { ins with reference := some (.var id access) }, tables)
    | .function name =>
      let (tables, id) := tables.internFunction name
      (code.modify index fun ins => { ins with reference := some (.function id) }, tables)
  else state

namespace PendingEntry

def resolve (pending : PendingEntry) (tables : NameTables) : CodeEntry × NameTables :=
  let (code, tables) := pending.symbols.foldl resolveSymbol (pending.code, tables)
  ({ name := pending.name, instructions := code, length := pending.length
     locals := pending.locals, argumentCount := pending.argumentCount
     children := pending.children.toList }, tables)

end PendingEntry

end GameScript.Emission
