/-! The runtime that code is compiled for. -/

namespace GameScript

/-- Generation of the runtime, from the oldest to the newest. -/
inductive Generation where
  | gms1
  | gms2
  | gms23
deriving DecidableEq, Repr, Inhabited

namespace Generation

def all : List Generation := [.gms1, .gms2, .gms23]

def name : Generation → String
  | .gms1 => "gms1"
  | .gms2 => "gms2"
  | .gms23 => "gms2_3"

def ofName? (text : String) : Option Generation := all.find? (·.name == text)

end Generation

/-- Everything about the runtime that lexing, emission and recovery depend on. -/
structure Target where
  generation : Generation
  /-- `&&` and `||` skip the operands that cannot matter. -/
  lazyLogic : Bool
  formatId : UInt8
  bytecodeVersion : UInt8
deriving DecidableEq, Repr

namespace Target

def ofGeneration : Generation → Target
  | .gms1 => ⟨.gms1, true, 15, 15⟩
  | .gms2 => ⟨.gms2, true, 16, 16⟩
  | .gms23 => ⟨.gms23, true, 17, 17⟩

instance : Inhabited Target := ⟨ofGeneration .gms23⟩

/-- String escapes and verbatim strings are available. -/
def hasEscapes (target : Target) : Bool := target.generation != .gms1

def hasFunctions (target : Target) : Bool := target.generation == .gms23

def isOldFormat (target : Target) : Bool := target.formatId ≤ 14

/-- One bit each for escapes, functions and lazy logic. -/
def flags (target : Target) : Nat :=
  (if target.hasEscapes then 1 else 0) + (if target.hasFunctions then 2 else 0) +
    (if target.lazyLogic then 4 else 0)

end Target

end GameScript
