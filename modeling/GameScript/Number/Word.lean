/-! Whole numbers that fit in a word of a given width. -/

namespace GameScript.Number

def wordCount (bits : Nat) : Nat := Nat.pow 2 bits

def isUnsignedWord (bits : Nat) (value : Int) : Bool := 0 ≤ value && value < wordCount bits

def isSignedWord (bits : Nat) (value : Int) : Bool :=
  -(wordCount (bits - 1) : Int) ≤ value && value < wordCount (bits - 1)

def nearestSignedWord (bits : Nat) (value : Int) : Int :=
  max (-(wordCount (bits - 1) : Int)) (min value ((wordCount (bits - 1) : Int) - 1))

end GameScript.Number
