import GameScript.Builtin.Catalogue
import GameScript.Builtin.Constants
import GameScript.Number.Binary
import GameScript.Target

/-! The built-in names of a target.  Functions and variables share one numbering. -/

namespace GameScript.Builtin

open Number

/-! Names that emitted code refers to. -/

namespace Internal

def nullObject : String := "@@NullObject@@"
def copyStatic : String := "@@CopyStatic@@"
def newArray : String := "@@NewGMLArray@@"
def newObject : String := "@@NewGMLObject@@"
def getInstance : String := "@@GetInstance@@"
def this : String := "@@This@@"
def other : String := "@@Other@@"
def global : String := "@@Global@@"
def tryHook : String := "@@try_hook@@"
def tryUnhook : String := "@@try_unhook@@"
def finishCatch : String := "@@finish_catch@@"
def finishFinally : String := "@@finish_finally@@"
def throw : String := "@@throw@@"
def method : String := "method"
/-- Local that keeps a returned value while loops are being left. -/
def returnTemp : String := "$$$$temp$$$$"

end Internal

structure BuiltinFunction where
  name : String
  /-- Number of arguments; `none` takes any number. -/
  arity : Option Nat
  id : Nat
deriving DecidableEq, Repr

structure BuiltinVariable where
  name : String
  isGlobal : Bool
  canSet : Bool
  canGet : Bool
  id : Nat
deriving DecidableEq, Repr

structure Registry where
  constants : List (String × Double)
  globals : List BuiltinVariable
  globalArrays : List BuiltinVariable
  instanceVariables : List BuiltinVariable
  functions : List BuiltinFunction
  idCount : Nat
deriving DecidableEq, Repr

def argumentNames : List String :=
  (List.range 16).map (fun index => s!"argument{index}") ++ ["argument"]

namespace Registry

private def number (first : Nat) (define : α → Nat → β) : List α → List β
  | [] => []
  | item :: rest => define item first :: number (first + 1) define rest

private def defineFunction (item : String × Option Nat) (id : Nat) : BuiltinFunction :=
  ⟨item.1, item.2, id⟩

private def defineVariable (isGlobal : Bool) (item : String × Bool × Bool) (id : Nat) :
    BuiltinVariable :=
  ⟨item.1, isGlobal, item.2.1, item.2.2, id⟩

def pi : Double := ⟨0x400921FB54442D18⟩

def languageConstants : List (String × Double) :=
  [("self", Double.ofInt (-1)), ("other", Double.ofInt (-2)), ("all", Double.ofInt (-3)),
    ("noone", Double.ofInt (-4)), ("global", Double.ofInt (-5)), ("false", Double.ofInt 0),
    ("true", Double.ofInt 1), ("pi", pi)]

/-- Number zero is `undefined`; arguments are variables of the instance before
functions exist. -/
def ofGeneration (generation : Generation) : Registry :=
  let runtime : List (String × Option Nat) :=
    [(Internal.nullObject, some 0), (Internal.copyStatic, some 1)]
  let arguments :=
    if generation = .gms23 then [] else argumentNames.map (fun name => (name, true, true))
  let functionNames := Catalogue.internalFunctions ++ Catalogue.functions
  let arrayNames :=
    Catalogue.globalArrays ++
      (if generation = .gms1 then Catalogue.legacyGlobalArrays else [])
  let afterArguments := 3 + arguments.length
  let afterFunctions := afterArguments + functionNames.length
  let afterGlobals := afterFunctions + Catalogue.globals.length
  let afterArrays := afterGlobals + arrayNames.length
  { constants :=
      languageConstants ++
        Constants.allTables.flatten.map (fun entry => (entry.1, Double.ofInt entry.2))
    globals :=
      ⟨"undefined", true, false, true, 0⟩ ::
        number afterFunctions (defineVariable true) Catalogue.globals
    globalArrays := number afterGlobals (defineVariable true) arrayNames
    instanceVariables :=
      number 3 (defineVariable false) arguments ++
        number afterArrays (defineVariable false) Catalogue.instanceVariables
    functions :=
      number 1 defineFunction runtime ++ number afterArguments defineFunction functionNames
    idCount := afterArrays + Catalogue.instanceVariables.length }

def gms1 : Registry := ofGeneration .gms1

def gms2 : Registry := ofGeneration .gms2

def gms23 : Registry := ofGeneration .gms23

def ofTarget (target : Target) : Registry :=
  match target.generation with
  | .gms1 => gms1
  | .gms2 => gms2
  | .gms23 => gms23

def function? (registry : Registry) (name : String) : Option BuiltinFunction :=
  registry.functions.find? (·.name == name)

def functionById? (registry : Registry) (id : Nat) : Option BuiltinFunction :=
  registry.functions.find? (·.id == id)

def constant? (registry : Registry) (name : String) : Option Double :=
  registry.constants.lookup name

def globalVariable? (registry : Registry) (name : String) : Option BuiltinVariable :=
  registry.globals.find? (·.name == name)

def globalArray? (registry : Registry) (name : String) : Option BuiltinVariable :=
  registry.globalArrays.find? (·.name == name)

def instanceVariable? (registry : Registry) (name : String) : Option BuiltinVariable :=
  registry.instanceVariables.find? (·.name == name)

def lookup? (registry : Registry) (name : String) : Option BuiltinVariable :=
  (registry.globalVariable? name).or
    ((registry.globalArray? name).or (registry.instanceVariable? name))

end Registry

def isArgument (name : String) : Bool := argumentNames.contains name

def decimalValue? (digits : List Char) : Option Nat :=
  if digits.isEmpty || !digits.all (fun c => '0' ≤ c && c ≤ '9') then none
  else some (digits.foldl (fun value c => 10 * value + (c.toNat - '0'.toNat)) 0)

/-- Index of a numbered argument; leading zeros do not count. -/
def argumentIndex? (name : String) : Option Nat :=
  if name.startsWith "argument" then
    (decimalValue? (name.toList.drop "argument".length)).filter (· ≤ 15)
  else none

end GameScript.Builtin
