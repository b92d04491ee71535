import GameScript.Number.Word

/-! Binary floating-point numbers as bit patterns.

A finite pattern stands for `±m * 2 ^ e`; every conversion below is exact
integer arithmetic followed by one rounding to nearest, ties to even.  Keeping
the pattern itself means that no payload of a NaN is ever lost. -/

namespace GameScript.Number

/-- Widths of the two fields behind the sign bit. -/
structure BinaryFormat where
  fractionBits : Nat
  exponentBits : Nat
deriving DecidableEq, Repr

namespace BinaryFormat

def binary64 : BinaryFormat := ⟨52, 11⟩

def binary32 : BinaryFormat := ⟨23, 8⟩

def leastScale (format : BinaryFormat) : Int :=
  2 - (wordCount (format.exponentBits - 1) : Int) - format.fractionBits

/-- Magnitude pattern of infinity; greater magnitudes are NaNs. -/
def infinity (format : BinaryFormat) : Nat :=
  (wordCount format.exponentBits - 1) * wordCount format.fractionBits

def signBit (format : BinaryFormat) : Nat :=
  wordCount (format.fractionBits + format.exponentBits)

/-- Mantissa and scale of a finite magnitude pattern. -/
def decode (format : BinaryFormat) (magnitude : Nat) : Nat × Int :=
  let field := magnitude / wordCount format.fractionBits
  let fraction := magnitude % wordCount format.fractionBits
  if field = 0 then (fraction, format.leastScale)
  else (fraction + wordCount format.fractionBits, format.leastScale + (field - 1 : Nat))

def roundQuotient (numerator denominator : Nat) : Nat :=
  let quotient := numerator / denominator
  let twice := 2 * (numerator % denominator)
  if twice < denominator then quotient
  else if denominator < twice then quotient + 1
  else quotient + quotient % 2

/-- Numerator and denominator of `numerator / (denominator * 2 ^ scale)`. -/
def rescale (numerator denominator : Nat) (scale : Int) : Nat × Nat :=
  if 0 ≤ scale then (numerator, denominator * Nat.pow 2 scale.toNat)
  else (numerator * Nat.pow 2 (-scale).toNat, denominator)

/-- Scale at which the quotient fills the mantissa, or the least scale. -/
def scaleFor (format : BinaryFormat) (numerator denominator : Nat) : Int :=
  let estimate : Int :=
    (numerator.log2 : Int) - denominator.log2 - format.fractionBits
  let (n, d) := rescale numerator denominator estimate
  let exact := if n < d * wordCount format.fractionBits then estimate - 1 else estimate
  max exact format.leastScale

/-- Magnitude pattern nearest to `numerator / denominator`. -/
def roundRatio (format : BinaryFormat) (numerator denominator : Nat) : Nat :=
  if numerator = 0 then 0
  else
    let scale := format.scaleFor numerator denominator
    let (n, d) := rescale numerator denominator scale
    let mantissa := roundQuotient n d
    min format.infinity
      ((scale - format.leastScale).toNat * wordCount format.fractionBits + mantissa)

end BinaryFormat

structure Double where
  bits : UInt64
deriving DecidableEq, Repr, Inhabited, Hashable

namespace Double

def format : BinaryFormat := .binary64

def magnitude (x : Double) : Nat := x.bits.toNat % format.signBit

def isNegative (x : Double) : Bool := format.signBit ≤ x.bits.toNat

def isFinite (x : Double) : Bool := x.magnitude < format.infinity

def isNaN (x : Double) : Bool := format.infinity < x.magnitude

def ofMagnitude (negative : Bool) (magnitude : Nat) : Double :=
  ⟨UInt64.ofNat (if negative then format.signBit + magnitude else magnitude)⟩

def ofRatio (negative : Bool) (numerator denominator : Nat) : Double :=
  ofMagnitude negative (format.roundRatio numerator denominator)

def ofInt (value : Int) : Double := ofRatio (value < 0) value.natAbs 1

def zero : Double := ⟨0⟩

def one : Double := ofInt 1

def neg (x : Double) : Double := ofMagnitude (!x.isNegative) x.magnitude

def parts (x : Double) : Nat × Int := format.decode x.magnitude

def ratio (x : Double) : Nat × Nat :=
  let (mantissa, scale) := x.parts
  if 0 ≤ scale then (mantissa * Nat.pow 2 scale.toNat, 1)
  else (mantissa, Nat.pow 2 (-scale).toNat)

def product (x y : Double) : Double :=
  ofRatio (x.isNegative != y.isNegative) (x.ratio.1 * y.ratio.1) (x.ratio.2 * y.ratio.2)

def quotient (x y : Double) : Double :=
  ofRatio (x.isNegative != y.isNegative) (x.ratio.1 * y.ratio.2) (x.ratio.2 * y.ratio.1)

def toInt? (x : Double) : Option Int :=
  if x.isFinite then
    let (mantissa, scale) := x.parts
    let sign : Int := if x.isNegative then -1 else 1
    if 0 ≤ scale then some (sign * (mantissa * Nat.pow 2 scale.toNat : Nat))
    else
      let unit := Nat.pow 2 (-scale).toNat
      if mantissa % unit = 0 then some (sign * (mantissa / unit : Nat)) else none
  else none

def equals (x y : Double) : Bool :=
  !x.isNaN && !y.isNaN &&
    (x.bits == y.bits || (x.magnitude == 0 && y.magnitude == 0))

end Double

structure Single where
  bits : UInt32
deriving DecidableEq, Repr, Inhabited, Hashable

namespace Single

def format : BinaryFormat := .binary32

def magnitude (x : Single) : Nat := x.bits.toNat % format.signBit

def isNegative (x : Single) : Bool := format.signBit ≤ x.bits.toNat

def isFinite (x : Single) : Bool := x.magnitude < format.infinity

def isNaN (x : Single) : Bool := format.infinity < x.magnitude

def ofMagnitude (negative : Bool) (magnitude : Nat) : Single :=
  ⟨UInt32.ofNat (if negative then format.signBit + magnitude else magnitude)⟩

def ofRatio (negative : Bool) (numerator denominator : Nat) : Single :=
  ofMagnitude negative (format.roundRatio numerator denominator)

def ofInt (value : Int) : Single := ofRatio (value < 0) value.natAbs 1

/-- The number nearest to a finite number of double precision. -/
def ofDouble (x : Double) : Single := ofRatio x.isNegative x.ratio.1 x.ratio.2

def zero : Single := ⟨0⟩

def parts (x : Single) : Nat × Int := format.decode x.magnitude

def equals (x y : Single) : Bool :=
  !x.isNaN && !y.isNaN &&
    (x.bits == y.bits || (x.magnitude == 0 && y.magnitude == 0))

end Single

end GameScript.Number
