import GameScript.Command.Basic

/-! Command lines. -/

namespace GameScript

structure Arguments where
  /-- A file with the whole target; the three settings after it then count for nothing. -/
  targetPath : Option String := none
  generation : Option Generation := none
  lazyLogic : Option Bool := none
  formatId : Option UInt8 := none
  tablesPath : Option String := none
  rulesPaths : List String := []
  output : Option String := none
  directory : Option String := none
  isListing : Bool := false
  usesRules : Bool := true
  words : List String := []
deriving DecidableEq, Repr

namespace Arguments

def split (word : String) : List String :=
  if word.startsWith "--" then
    match word.splitOn "=" with
    | name :: first :: more => [name, String.intercalate "=" (first :: more)]
    | _ => [word]
  else [word]

def boolOf? : String → Option Bool
  | "true" => some true
  | "false" => some false
  | _ => none

def byteOf? (word : String) : Option UInt8 := do
  let n ← word.toNat?
  if n < 256 then some (UInt8.ofNat n) else none

def orInvalid (option value : String) : Option α → Except String α
  | some result => .ok result
  | none => .error s!"invalid value {value} for {option}"

def readAll : List String → Arguments → Except String Arguments
  | [], arguments => .ok arguments
  | "--" :: rest, arguments => .ok { arguments with words := arguments.words ++ rest }
  | "--listing" :: rest, arguments => readAll rest { arguments with isListing := true }
  | "--no-macros" :: rest, arguments => readAll rest { arguments with usesRules := false }
  | "--target" :: path :: rest, arguments =>
    readAll rest { arguments with targetPath := some path }
  | "--tables" :: path :: rest, arguments =>
    readAll rest { arguments with tablesPath := some path }
  | "--macro-types" :: path :: rest, arguments =>
    readAll rest { arguments with rulesPaths := arguments.rulesPaths ++ [path] }
  | "--gm-version" :: name :: rest, arguments => do
    let generation ← orInvalid "--gm-version" name (Generation.ofName? name)
    readAll rest { arguments with generation := some generation }
  | "--short-circuit" :: word :: rest, arguments => do
    let lazyLogic ← orInvalid "--short-circuit" word (boolOf? word)
    readAll rest { arguments with lazyLogic := some lazyLogic }
  | "--format-id" :: word :: rest, arguments => do
    let formatId ← orInvalid "--format-id" word (byteOf? word)
    readAll rest { arguments with formatId := some formatId }
  | "-o" :: path :: rest, arguments => readAll rest { arguments with output := some path }
  | "--output" :: path :: rest, arguments =>
    readAll rest { arguments with output := some path }
  | "-d" :: path :: rest, arguments =>
    readAll rest { arguments with directory := some path }
  | "--out-dir" :: path :: rest, arguments =>
    readAll rest { arguments with directory := some path }
  | word :: rest, arguments =>
    if word.startsWith "-" && word ≠ "-" then .error s!"unexpected argument {word}"
    else readAll rest { arguments with words := arguments.words ++ [word] }

def parse (words : List String) : Except String Arguments :=
  readAll (words.flatMap split) {}

def usualTarget (arguments : Arguments) : Target :=
  let usual := Target.ofGeneration (arguments.generation.getD .gms23)
  { usual with
    lazyLogic := arguments.lazyLogic.getD usual.lazyLogic
    formatId := arguments.formatId.getD usual.formatId }

def command (arguments : Arguments) : Except String Command :=
  let output := (arguments.output.map Output.file).getD .standard
  match arguments.words with
  | [] => .error "a command is missing"
  | name :: paths =>
    let inputs := paths.map Input.ofPath
    let first := inputs.headD .standard
    match name with
    | "lex" => .ok (.lex first output)
    | "compile" => .ok (.compile inputs output arguments.isListing)
    | "disasm" => .ok (.disassemble first output)
    | "decompile" => .ok (.decompile first arguments.directory arguments.usesRules)
    | "roundtrip" => .ok (.roundTrip inputs)
    | _ => .error s!"unknown command {name}"

end Arguments

end GameScript
