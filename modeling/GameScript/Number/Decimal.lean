import GameScript.Number.Binary

/-! Decimal text of binary numbers.

`shortest` selects the fewest digits that round back to the number, nearest to
it among those; a `Layout` then says how the digits are written and which of two
equally near decimals is taken. -/

namespace GameScript.Number

/-- The digits of `digits * 10 ^ exponent`. -/
structure Decimal where
  digits : Nat
  exponent : Int
deriving DecidableEq, Repr

/-- Which of two equally near decimals is taken. -/
inductive Tie where
  | upper
  /-- The one with an even last digit. -/
  | even
deriving DecidableEq, Repr

namespace Decimal

def digitChars (n : Nat) : List Char := (Nat.toDigits 10 n)

/-- The positive real numbers that round to one magnitude pattern, on a common
grid: `lower < x < upper` in units of `1 / denominator`, with the ends included
when `closed`. -/
structure RoundingInterval where
  value : Nat
  lower : Nat
  upper : Nat
  denominator : Nat
  closed : Bool

/-- Interval of a positive finite magnitude pattern. -/
def RoundingInterval.of (format : BinaryFormat) (magnitude : Nat) : RoundingInterval :=
  let (mantissa, scale) := format.decode magnitude
  let isBoundary :=
    mantissa == wordCount format.fractionBits && decide (format.leastScale < scale)
  let below := if isBoundary then 1 else 2
  let quarter := scale - 2
  let factor := if 0 ≤ quarter then Nat.pow 2 quarter.toNat else 1
  { value := 4 * mantissa * factor
    lower := (4 * mantissa - below) * factor
    upper := (4 * mantissa + 2) * factor
    denominator := if 0 ≤ quarter then 1 else Nat.pow 2 (-quarter).toNat
    closed := mantissa % 2 == 0 }

def RoundingInterval.contains (interval : RoundingInterval) (numerator scale : Nat) :
    Bool :=
  let x := numerator * interval.denominator
  let lower := interval.lower * scale
  let upper := interval.upper * scale
  if interval.closed then lower ≤ x && x ≤ upper else lower < x && x < upper

/-- Of the two neighbours of the value on the grid of unit `10 ^ exponent`, the
nearer one that lies in the interval. -/
def RoundingInterval.onGrid? (tie : Tie) (interval : RoundingInterval) (exponent : Int) :
    Option Nat :=
  let unit := if 0 ≤ exponent then Nat.pow 10 exponent.toNat else 1
  let scale := if 0 ≤ exponent then 1 else Nat.pow 10 (-exponent).toNat
  let numerator := interval.value * scale
  let denominator := interval.denominator * unit
  let low := numerator / denominator
  let remainder := numerator % denominator
  let fits := fun digits => interval.contains (digits * unit) scale
  let isTie := 2 * remainder == denominator
  let takesLow := 2 * remainder < denominator || (isTie && tie == .even && low % 2 == 0)
  let (first, second) := if takesLow then (low, low + 1) else (low + 1, low)
  if fits first then some first
  else if fits second then some second
  else none

/-- First grid, from coarse to fine, that holds a point of the interval. -/
def RoundingInterval.search (tie : Tie) (interval : RoundingInterval) : Nat → Int → Decimal
  | 0, exponent => ⟨interval.value / interval.denominator, exponent⟩
  | fuel + 1, exponent =>
    match interval.onGrid? tie exponent with
    | some digits =>
      if digits = 0 then interval.search tie fuel (exponent - 1) else ⟨digits, exponent⟩
    | none => interval.search tie fuel (exponent - 1)

def trim : Nat → Decimal → Decimal
  | 0, decimal => decimal
  | fuel + 1, decimal =>
    if decimal.digits % 10 = 0 && decimal.digits ≠ 0 then
      trim fuel ⟨decimal.digits / 10, decimal.exponent + 1⟩
    else decimal

/-- Upper bound on the decimal exponent of a positive number: the search starts
on a grid whose unit is not smaller than the number. -/
def startExponent (format : BinaryFormat) (magnitude : Nat) : Int :=
  let (mantissa, scale) := format.decode magnitude
  let log : Int := mantissa.log2 + 1 + scale
  if 0 ≤ log then log * 30103 / 100000 + 1 else log * 30102 / 100000 + 1

def shortest (tie : Tie) (format : BinaryFormat) (magnitude : Nat) : Decimal :=
  if magnitude = 0 then ⟨0, 0⟩
  else
    let interval := RoundingInterval.of format magnitude
    trim 400 (interval.search tie 40 (startExponent format magnitude))

end Decimal

/-- How decimal digits are laid out.  With `point` the number of digits before
the decimal point, positional notation is used for `lowest < point ≤ highest`
and always when `bounded` is false. -/
structure Layout where
  bounded : Bool
  lowest : Int
  highest : Int
  /-- An integral number keeps a final `.0`. -/
  keepsPoint : Bool
  /-- An exponent that is not negative has a plus sign. -/
  signedExponent : Bool
  tie : Tie

namespace Layout

/-- Positional at every size, without a final `.0`. -/
def plain : Layout := ⟨false, 0, 0, false, false, .upper⟩

/-- Positional from `0.0001` up to below `10 ^ 16`. -/
def debugging : Layout := ⟨true, -4, 16, true, false, .upper⟩

/-- Numbers of double precision inside a document. -/
def document : Layout := ⟨true, -5, 16, true, true, .even⟩

/-- Numbers of single precision inside a document. -/
def documentSingle : Layout := ⟨true, -6, 13, true, true, .even⟩

private def zeros (count : Nat) : List Char := List.replicate count '0'

private def positional (layout : Layout) (digits : List Char) (point : Int) : List Char :=
  if point ≤ 0 then '0' :: '.' :: (zeros (-point).toNat ++ digits)
  else if digits.length ≤ point.toNat then
    digits ++ zeros (point.toNat - digits.length) ++
      (if layout.keepsPoint then ['.', '0'] else [])
  else digits.take point.toNat ++ '.' :: digits.drop point.toNat

private def exponent (layout : Layout) (value : Int) : List Char :=
  let digits := Decimal.digitChars value.natAbs
  if value < 0 then '-' :: digits
  else if layout.signedExponent then '+' :: digits
  else digits

private def scientific (layout : Layout) (digits : List Char) (point : Int) : List Char :=
  let mantissa := match digits with
    | first :: second :: rest => first :: '.' :: second :: rest
    | short => short
  mantissa ++ 'e' :: layout.exponent (point - 1)

def write (layout : Layout) (decimal : Decimal) : List Char :=
  if decimal.digits = 0 then (if layout.keepsPoint then ['0', '.', '0'] else ['0'])
  else
    let digits := Decimal.digitChars decimal.digits
    let point : Int := digits.length + decimal.exponent
    if !layout.bounded || (layout.lowest < point && point ≤ layout.highest) then
      layout.positional digits point
    else layout.scientific digits point

end Layout

/-- Text of a number of the given format; the sign of a zero is kept. -/
def renderMagnitude (layout : Layout) (format : BinaryFormat)
    (negative : Bool) (magnitude : Nat) : String :=
  if format.infinity < magnitude then "NaN"
  else
    let body :=
      if magnitude = format.infinity then "inf".toList
      else layout.write (Decimal.shortest layout.tie format magnitude)
    String.ofList (if negative then '-' :: body else body)

def Double.render (layout : Layout) (x : Double) : String :=
  renderMagnitude layout Double.format x.isNegative x.magnitude

def Single.render (layout : Layout) (x : Single) : String :=
  renderMagnitude layout Single.format x.isNegative x.magnitude

end GameScript.Number
