import GameScript.Json.Decode
import GameScript.Outline.Role

/-! Rules as JSON documents. -/

namespace GameScript.Outline

open Json

namespace RuleDocument

def role : Decoder Role := Decode.named Role.ofName?

def literal : Decoder RuleLiteral := fun depth json =>
  match json with
  | .bool value => some (.boolean value)
  | .number _ => (Decode.double depth json).map .number
  | .string text => text.map .text
  | _ => none

/-- The position of an argument and the literal that it is. -/
def condition : Decoder (Nat × RuleLiteral) := fun depth json => do
  let record ← Record.decode ["argument", "equals"] depth json
  let position ← record.get "argument" (Decode.nat 64)
  let expected ← record.get "equals" literal
  return (position, expected)

def alternative : Decoder Alternative := fun depth json => do
  let record ← Record.decode ["condition", "types"] depth json
  let condition ← record.getD "condition" (Decode.optional condition) none
  let roles ← record.get "types" (Decode.list role)
  return ⟨condition, roles⟩

def keys : List String :=
  ["FunctionArgs", "FunctionArgsCond", "FunctionReturns", "VariableTypes", "CodeEntries"]

def ruleSet (record : Record) : Option RuleSet := do
  return {
    arguments := ← record.getD "FunctionArgs" (Decode.table (Decode.list role)) []
    alternatives :=
      ← record.getD "FunctionArgsCond" (Decode.table (Decode.list alternative)) []
    returns := ← record.getD "FunctionReturns" (Decode.table role) []
    vars := ← record.getD "VariableTypes" (Decode.table role) [] }

/-- Rules for some entries may hold such rules again, which then concern nothing;
they take two levels each. -/
def rules : Nat → Json → Option Rules
  | depth + 2, json => do
    let record ← Record.decode keys (depth + 2) json
    let entry : Decoder RuleSet := fun _ json => (rules depth json).map Rules.base
    return {
      base := ← ruleSet record
      entries := ← record.getD "CodeEntries" (Decode.table entry) [] }
  | 1, json => do
    let record ← Record.decode keys 1 json
    if (record.fields.lookup "CodeEntries").isSome then none
    else return { base := ← ruleSet record }
  | 0, _ => none

end RuleDocument

def Rules.parse? (text : String) : Option Rules := decodeText? RuleDocument.rules text

def Rules.addText? (rules : Rules) (text : String) : Option Rules :=
  (Rules.parse? text).map rules.merge

end GameScript.Outline
