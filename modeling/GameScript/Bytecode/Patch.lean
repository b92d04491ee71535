import GameScript.Bytecode.Instruction

/-! Branch distances and addresses that become known after their instruction
has been written.  A patch holds the indices of the waiting instructions; once
resolved it waits for nothing. -/

namespace GameScript.Bytecode

abbrev Code := Array Instruction

/-- Distance from one address to another in words, kept within 32 bits. -/
def wordDistance (source target : Nat) : Int :=
  Number.nearestSignedWord 32 (((target : Int) - source).tdiv 4)

def aimAt (target : Nat) (code : Code) (site : Nat) : Code :=
  code.modify site fun ins => { ins with jump := wordDistance ins.address target }

structure ForwardPatch where
  sites : List Nat := []
deriving DecidableEq, Repr, Inhabited

namespace ForwardPatch

def ofSite (site : Nat) : ForwardPatch := ⟨[site]⟩

def add (patch : ForwardPatch) (site : Nat) : ForwardPatch := ⟨patch.sites ++ [site]⟩

def isEmpty (patch : ForwardPatch) : Bool := patch.sites.isEmpty

def resolve (patch : ForwardPatch) (code : Code) (target : Nat) : Code :=
  patch.sites.foldl (aimAt target) code

end ForwardPatch

/-- Branches to an address fixed beforehand. -/
structure BackwardPatch where
  target : Nat
  sites : List Nat := []
deriving DecidableEq, Repr

namespace BackwardPatch

def add (patch : BackwardPatch) (site : Nat) : BackwardPatch :=
  { patch with sites := patch.sites ++ [site] }

def resolve (patch : BackwardPatch) (code : Code) : Code :=
  patch.sites.foldl (aimAt patch.target) code

end BackwardPatch

/-- Immediates that receive an absolute address. -/
structure AddressPatch where
  sites : List Nat := []
deriving DecidableEq, Repr

namespace AddressPatch

def add (patch : AddressPatch) (site : Nat) : AddressPatch := ⟨patch.sites ++ [site]⟩

def resolve (patch : AddressPatch) (code : Code) (address : Nat) : Code :=
  let value := Int32.ofInt (Number.nearestSignedWord 32 address)
  patch.sites.foldl
    (fun code site => code.modify site fun ins =>
      { ins with immediate := some (.int32 value) })
    code

end AddressPatch

end GameScript.Bytecode
