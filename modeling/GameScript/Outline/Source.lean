import GameScript.Outline.Printer
import GameScript.Outline.Recovery
import GameScript.Outline.Role
import GameScript.Outline.Tidy

/-! Source text of entries. -/

namespace GameScript

open Bytecode

/-- The source text of an entry; with rules, numbers are written in their roles. -/
def Bytecode.CodeEntry.source (target : Target) (tables : NameTables)
    (rules : Option Outline.Rules) (entry : CodeEntry) :
    Except Outline.RecoveryError String := do
  let outline := (← Outline.recover entry tables).tidy target entry
  let outline :=
    match rules with
    | some rules => outline.spell rules entry.name tables.assets
    | none => outline
  return outline.render target tables.assets

end GameScript
