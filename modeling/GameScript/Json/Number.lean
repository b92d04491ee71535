import GameScript.Json.Reader
import GameScript.Number.Binary

/-! Values of JSON numbers. -/

namespace GameScript.Json

open Number

structure NumberParts where
  negative : Bool
  whole : List Nat
  fraction : List Nat
  exponent : Int
  /-- It has neither a point nor an exponent. -/
  isWhole : Bool
deriving DecidableEq, Repr

def digitsOf (text : List Char) : List Nat := text.map fun c => c.toNat - '0'.toNat

def valueOf (digits : List Nat) : Nat :=
  digits.foldl (fun value digit => 10 * value + digit) 0

def exponentOf : List Char → Int
  | '+' :: digits => valueOf (digitsOf digits)
  | '-' :: digits => -(valueOf (digitsOf digits) : Int)
  | digits => valueOf (digitsOf digits)

namespace NumberParts

def ofSpelling (spelling : String) : NumberParts :=
  let (negative, text) :=
    match spelling.toList with
    | '-' :: rest => (true, rest)
    | rest => (false, rest)
  let (whole, rest) := text.span isDigit
  let (fraction, tail) :=
    match rest with
    | '.' :: rest => rest.span isDigit
    | rest => ([], rest)
  { negative, whole := digitsOf whole, fraction := digitsOf fraction,
    exponent := exponentOf (tail.drop 1), isWhole := rest.isEmpty }

def significandLimit : Nat := wordCount 64 - 1

/-- Appends digits to a significand for as long as it stays within the limit;
returns it with the number of digits that were appended. -/
def extend : Nat → List Nat → Nat × Nat
  | significand, [] => (significand, 0)
  | significand, digit :: rest =>
    let longer := 10 * significand + digit
    if longer ≤ significandLimit then
      let (significand, count) := extend longer rest
      (significand, count + 1)
    else (significand, 0)

/-- Significand and power of ten.  Digits that do not fit count as zeros before
the point and are dropped after it. -/
def scientific (parts : NumberParts) : Nat × Int :=
  let (significand, kept) := extend 0 parts.whole
  let (significand, places) := extend significand parts.fraction
  (significand, (parts.whole.length - kept : Nat) - (places : Int) + parts.exponent)

/-- The integer that a whole number is, within 64 bits; minus zero is none. -/
def toInt? (parts : NumberParts) : Option Int :=
  let value := valueOf parts.whole
  if !parts.isWhole then none
  else if parts.negative then
    if 0 < value && value ≤ wordCount 63 then some (-(value : Int)) else none
  else if value ≤ significandLimit then some value
  else none

def greatestPower : Nat := 308

def powerOfTen (exponent : Nat) : Double := Double.ofInt (Nat.pow 10 exponent)

def divideDown : Nat → Double → Double
  | 0, x => x
  | count + 1, x =>
    if x.magnitude = 0 then x else divideDown count (x.quotient (powerOfTen greatestPower))

/-- The number `significand * 10 ^ exponent`, rounded when the significand is
converted and again when it is scaled; `none` if it is too great. -/
def scale? (significand : Nat) (exponent : Int) : Option Double :=
  let x := Double.ofInt significand
  if x.magnitude = 0 then some x
  else if 0 ≤ exponent then
    if exponent.toNat ≤ greatestPower then
      let product := x.product (powerOfTen exponent.toNat)
      if product.isFinite then some product else none
    else none
  else
    let down := exponent.natAbs
    let rounds := (down - 1) / greatestPower
    some ((divideDown rounds x).quotient (powerOfTen (down - greatestPower * rounds)))

def toDouble? (parts : NumberParts) : Option Double :=
  match parts.toInt? with
  | some value => some (Double.ofInt value)
  | none =>
    let (significand, exponent) := parts.scientific
    (scale? significand exponent).map fun x => if parts.negative then x.neg else x

/-- The number in single precision; it is rounded to double precision first
unless it is an integer. -/
def toSingle? (parts : NumberParts) : Option Single :=
  match parts.toInt? with
  | some value => some (Single.ofInt value)
  | none => parts.toDouble?.map Single.ofDouble

end NumberParts

end GameScript.Json
