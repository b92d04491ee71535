import GameScript.Bytecode.Entry
import GameScript.Json.Decode
import GameScript.Names
import GameScript.Number.Decimal
import GameScript.Target

/-! Bundles: compiled entries with their tables and target, as JSON documents. -/

namespace GameScript

open Bytecode Json Number

namespace DocumentName

def opcodes : List (Opcode × String) :=
  [(.convert, "Conv"), (.mul, "Mul"), (.div, "Div"), (.rem, "Rem"), (.mod, "Mod"),
    (.add, "Add"), (.sub, "Sub"), (.and, "And"), (.or, "Or"), (.xor, "Xor"), (.neg, "Neg"),
    (.not, "Not"), (.shl, "Shl"), (.shr, "Shr"), (.compare, "Cmp"), (.pop, "Pop"),
    (.duplicate, "Dup"), (.ret, "Ret"), (.exit, "Exit"), (.discard, "Popz"),
    (.branch, "B"), (.branchTrue, "Bt"), (.branchFalse, "Bf"), (.enterWith, "PushEnv"),
    (.leaveWith, "PopEnv"), (.push, "Push"), (.pushLocal, "PushLoc"),
    (.pushGlobal, "PushGlb"), (.pushBuiltin, "PushBltn"), (.pushImmediate, "PushI"),
    (.call, "Call"), (.callValue, "CallV"), (.extended, "Break")]

def dataTypes : List (DataType × String) :=
  [(.double, "Double"), (.float, "Float"), (.int32, "Int32"), (.int64, "Int64"),
    (.boolean, "Boolean"), (.variant, "Variable"), (.string, "String"), (.int16, "Int16")]

def comparisons : List (Comparison × String) :=
  [(.less, "Lt"), (.lessEqual, "Lte"), (.equal, "Eq"), (.notEqual, "Neq"),
    (.greaterEqual, "Gte"), (.greater, "Gt")]

def accesses : List (Access × String) :=
  [(.array, "Array"), (.stackTop, "StackTop"), (.normal, "Normal"), (.owned, "Instance"),
    (.nested, "MultiPush"), (.nestedStore, "MultiPushPop")]

def ofValue [BEq α] (names : List (α × String)) (value : α) : Json :=
  .ofText ((names.lookup value).getD "")

def decode (names : List (α × String)) : Decoder α :=
  Decode.named fun text => (names.find? (·.2 == text)).map (·.1)

end DocumentName

namespace Target

def toJson (target : Target) : Json :=
  .ofMembers
    [("version", .ofText target.generation.name),
      ("short_circuit", .bool target.lazyLogic),
      ("format_id", .ofNat target.formatId.toNat),
      ("bytecode_version", .ofNat target.bytecodeVersion.toNat)]

/-- What is missing is that of the usual target. -/
def decode : Decoder Target := fun depth json => do
  let usual : Target := default
  let record ←
    Record.decode ["version", "short_circuit", "format_id", "bytecode_version"] depth json
  return {
    generation :=
      ← record.getD "version" (Decode.named Generation.ofName?) usual.generation
    lazyLogic := ← record.getD "short_circuit" Decode.bool usual.lazyLogic
    formatId := UInt8.ofNat (← record.getD "format_id" (Decode.nat 8) usual.formatId.toNat)
    bytecodeVersion :=
      UInt8.ofNat (← record.getD "bytecode_version"
        (Decode.nat 8) usual.bytecodeVersion.toNat) }

end Target

namespace StoredVariable

def toJson (stored : StoredVariable) : Json :=
  .ofMembers [("name", .ofText stored.name), ("scope", .ofInt stored.scope.code.toInt)]

def decode : Decoder StoredVariable := fun depth json => do
  let record ← Record.decode ["name", "scope"] depth json
  let name ← record.get "name" Decode.text
  let scope ← record.get "scope" (Decode.signed 16)
  return ⟨name, ⟨Int16.ofInt scope⟩⟩

end StoredVariable

namespace Asset

def toJson (asset : Asset) : Json :=
  .ofMembers [("kind", .ofText asset.kind.name), ("id", .ofInt asset.id)]

def decode : Decoder Asset := fun depth json => do
  let record ← Record.decode ["kind", "id"] depth json
  let kind ← record.get "kind" (Decode.named AssetKind.ofName?)
  let id ← record.get "id" (Decode.signed 32)
  return ⟨kind, id⟩

end Asset

namespace NameTables

def toJson (tables : NameTables) : Json :=
  .ofMembers
    [("strings", .array (tables.strings.items.map .ofText)),
      ("functions", .array (tables.functions.items.map .ofText)),
      ("variables", .array (tables.vars.items.map StoredVariable.toJson)),
      ("assets", .ofMembers
        (tables.assets.entries.map fun (name, asset) => (name, asset.toJson)))]

def decode : Decoder NameTables := fun depth json => do
  let record ← Record.decode ["strings", "functions", "variables", "assets"] depth json
  return {
    strings := Roster.ofList (← record.getD "strings" (Decode.list Decode.text) [])
    functions := Roster.ofList (← record.getD "functions" (Decode.list Decode.text) [])
    vars :=
      Roster.ofList (← record.getD "variables" (Decode.list StoredVariable.decode) [])
    assets := ⟨← record.getD "assets" (Decode.table Asset.decode) []⟩ }

end NameTables

namespace Bytecode

/-- Numbers that are not finite have no spelling. -/
def Immediate.toJson : Immediate → Json
  | .int16 value => .ofMembers [("Int16", .ofInt value.toInt)]
  | .int32 value => .ofMembers [("Int32", .ofInt value.toInt)]
  | .int64 value => .ofMembers [("Int64", .ofInt value.toInt)]
  | .float value =>
    .ofMembers [("Float",
      if value.isFinite then .number (value.render .documentSingle) else .null)]
  | .double value =>
    .ofMembers
      [("Double", if value.isFinite then .number (value.render .document) else .null)]
  | .boolean value => .ofMembers [("Boolean", .bool value)]
  | .string id => .ofMembers [("String", .ofNat id)]

def Immediate.decode : Decoder (Option Immediate)
  | _, .string (some "None") => some none
  | depth + 1, .object [(some kind, json)] =>
    match kind with
    | "None" => Decode.nothing depth json
    | "Int16" => (Decode.signed 16 depth json).map fun n => some (.int16 (Int16.ofInt n))
    | "Int32" => (Decode.signed 32 depth json).map fun n => some (.int32 (Int32.ofInt n))
    | "Int64" => (Decode.signed 64 depth json).map fun n => some (.int64 (Int64.ofInt n))
    | "Float" => (Decode.single depth json).map fun x => some (.float x)
    | "Double" => (Decode.double depth json).map fun x => some (.double x)
    | "Boolean" => (Decode.bool depth json).map fun b => some (.boolean b)
    | "String" => (Decode.nat 32 depth json).map fun id => some (.string id)
    | _ => none
  | _, _ => none

def Reference.toJson : Reference → Json
  | .var id access =>
    .ofMembers [("Variable", .ofMembers
      [("id", .ofNat id), ("kind", DocumentName.ofValue DocumentName.accesses access)])]
  | .function id => .ofMembers [("Function", .ofNat id)]

def Reference.decode : Decoder (Option Reference)
  | _, .string (some "None") => some none
  | depth + 1, .object [(some kind, json)] =>
    match kind with
    | "None" => Decode.nothing depth json
    | "Variable" => do
      let record ← Record.decode ["id", "kind"] depth json
      let id ← record.get "id" (Decode.nat 32)
      let access ← record.get "kind" (DocumentName.decode DocumentName.accesses)
      return some (.var id access)
    | "Function" => (Decode.nat 32 depth json).map fun id => some (.function id)
    | _ => none
  | _, _ => none

namespace Instruction

def toJson (ins : Instruction) : Json :=
  .ofMembers
    [("address", .ofNat ins.address),
      ("opcode", DocumentName.ofValue DocumentName.opcodes ins.opcode),
      ("type1", DocumentName.ofValue DocumentName.dataTypes ins.type1),
      ("type2", DocumentName.ofValue DocumentName.dataTypes ins.type2),
      ("comparison",
        ins.comparison.elim .null (DocumentName.ofValue DocumentName.comparisons)),
      ("swap", .ofNat ins.swap.toNat), ("extra", .ofNat ins.extra.toNat),
      ("instance", .ofInt ins.owner.code.toInt), ("jump", .ofInt ins.jump),
      ("exit_magic", .bool ins.leavesForGood),
      ("value", ins.immediate.elim (.ofText "None") Immediate.toJson),
      ("reference", ins.reference.elim (.ofText "None") Reference.toJson)]

def keys : List String :=
  ["address", "opcode", "type1", "type2", "comparison", "swap", "extra", "instance",
    "jump", "exit_magic", "value", "reference"]

def decode : Decoder Instruction := fun depth json => do
  let record ← Record.decode keys depth json
  let type := DocumentName.decode DocumentName.dataTypes
  return {
    address := ← record.get "address" (Decode.nat 32)
    opcode := ← record.get "opcode" (DocumentName.decode DocumentName.opcodes)
    type1 := ← record.get "type1" type
    type2 := ← record.get "type2" type
    comparison := ← record.get? "comparison" (DocumentName.decode DocumentName.comparisons)
    swap := UInt8.ofNat (← record.get "swap" (Decode.nat 8))
    extra := UInt8.ofNat (← record.get "extra" (Decode.nat 8))
    owner := ⟨Int16.ofInt (← record.get "instance" (Decode.signed 16))⟩
    jump := ← record.get "jump" (Decode.signed 32)
    leavesForGood := ← record.get "exit_magic" Decode.bool
    immediate := ← record.get "value" Immediate.decode
    reference := ← record.get "reference" Reference.decode }

end Instruction

namespace ChildFunction

def toJson (child : ChildFunction) : Json :=
  .ofMembers
    [("name", .ofText child.name), ("offset", .ofNat child.offset),
      ("argument_count", .ofNat child.argumentCount), ("locals", .ofNat child.locals),
      ("constructor", .bool child.isConstructor)]

def decode : Decoder ChildFunction := fun depth json => do
  let record ←
    Record.decode ["name", "offset", "argument_count", "locals", "constructor"] depth json
  return {
    name := ← record.get "name" Decode.text
    offset := ← record.get "offset" (Decode.nat 32)
    argumentCount := ← record.get "argument_count" (Decode.nat 16)
    locals := ← record.get "locals" (Decode.nat 16)
    isConstructor := ← record.get "constructor" Decode.bool }

end ChildFunction

namespace CodeEntry

def toJson (entry : CodeEntry) : Json :=
  .ofMembers
    [("name", .ofText entry.name),
      ("instructions", .array (entry.instructions.toList.map Instruction.toJson)),
      ("length", .ofNat entry.length), ("locals", .array (entry.locals.map .ofText)),
      ("argument_count", .ofNat entry.argumentCount),
      ("children", .array (entry.children.map ChildFunction.toJson))]

def keys : List String :=
  ["name", "instructions", "length", "locals", "argument_count", "children"]

/-- Addresses and the length are taken as they are. -/
def decode : Decoder CodeEntry := fun depth json => do
  let record ← Record.decode keys depth json
  let code ← record.get "instructions" (Decode.list Instruction.decode)
  return {
    name := ← record.get "name" Decode.text
    instructions := code.toArray
    length := ← record.get "length" (Decode.nat 32)
    locals := ← record.get "locals" (Decode.list Decode.text)
    argumentCount := ← record.get "argument_count" (Decode.nat 16)
    children := ← record.getD "children" (Decode.list ChildFunction.decode) [] }

end CodeEntry

end Bytecode

structure Bundle where
  target : Target := default
  tables : NameTables := {}
  entries : List CodeEntry := []

namespace Bundle

def toJson (bundle : Bundle) : Json :=
  .ofMembers
    [("target", bundle.target.toJson), ("tables", bundle.tables.toJson),
      ("entries", .array (bundle.entries.map CodeEntry.toJson))]

def render (bundle : Bundle) : String := bundle.toJson.pretty ++ "\n"

def decode : Decoder Bundle := fun depth json => do
  let record ← Record.decode ["target", "tables", "entries"] depth json
  return {
    target := ← record.getD "target" Target.decode default
    tables := ← record.getD "tables" NameTables.decode {}
    entries := ← record.getD "entries" (Decode.list CodeEntry.decode) [] }

def parse? (text : String) : Option Bundle := decodeText? decode text

end Bundle

end GameScript
