import GameScript.Proofs.Operators.Scanning
import Mathlib.Data.List.Basic

/-! Integer literals and the constants that they are scanned into.

A numeral tells its number digit by digit.  Doubles hold every integer of 32 bits, so
only longer ones are kept as integers. -/

namespace GameScript.Token

open Builtin Number Text

inductive Numeral (base : Nat) : List Char → Nat → Prop
  | digit {c : Char} {n : Nat} : digitValue? base c = some n → Numeral base [c] n
  | append {text : List Char} {n : Nat} {c : Char} {last : Nat} :
      Numeral base text n → digitValue? base c = some last →
      Numeral base (text ++ [c]) (base * n + last)

inductive IntegerLiteral : List Char → Int → Prop
  | decimal {text : List Char} {n : Nat} :
      Numeral 10 text n → n < wordCount 63 → IntegerLiteral text n
  | negated {text : List Char} {n : Nat} :
      Numeral 10 text n → 0 < n → n ≤ wordCount 63 → IntegerLiteral ('-' :: text) (-n)
  /-- The digits are a pattern of 64 bits in two's complement. -/
  | hexadecimal {opening text : List Char} {n : Nat} :
      opening = ['0', 'x'] ∨ opening = ['$'] → Numeral 16 text n → n < wordCount 64 →
      IntegerLiteral (opening ++ text) (Int.bmod n (wordCount 64))
  /-- The bytes for red and blue change places. -/
  | colour {red green blue alpha : List Char} {n : Nat} :
      red.length = 2 → green.length = 2 → blue.length = 2 → alpha = [] ∨ alpha.length = 2 →
      Numeral 16 (blue ++ green ++ red ++ alpha) n →
      IntegerLiteral ('#' :: (red ++ green ++ blue ++ alpha)) (Int.bmod n (wordCount 64))

/-- The scalar is the integer; one of 32 bits is held as a number. -/
def Scalar.Holds : Scalar → Int → Prop
  | .number double, value => double.toInt? = some value
  | .int64 word, value => word.toInt = value ∧ isSignedWord 32 value = false
  | .string _, _ => False

def Scalar.negated : Scalar → Scalar
  | .number double => .number double.neg
  | .int64 word => .int64 (-word)
  | .string text => .string text

theorem digitValue?_lt {base : Nat} {c : Char} {n : Nat}
    (found : digitValue? base c = some n) : n < base := by
  simp only [digitValue?, Option.filter_eq_some_iff, decide_eq_true_eq] at found
  exact found.2

theorem digitValue?_ten {c : Char} {n : Nat} (found : digitValue? 10 c = some n) :
    isDigit c = true ∧ n = c.toNat - '0'.toNat := by
  have small := digitValue?_lt found
  simp only [digitValue?, Option.filter_eq_some_iff] at found
  grind

namespace Numeral

variable {base n : Nat} {text : List Char}

theorem ne_nil (numeral : Numeral base text n) : text ≠ [] := by
  cases numeral <;> simp

theorem lt_pow (numeral : Numeral base text n) : n < Nat.pow base text.length := by
  induction numeral with
  | digit found => simpa using digitValue?_lt found
  | append _ found induction =>
    rw [List.length_append, List.length_singleton, Nat.pow]
    calc
      _ < base * (_ + 1) := Nat.add_lt_add_left (digitValue?_lt found) _
      _ ≤ base * Nat.pow base _ := Nat.mul_le_mul_left base induction
      _ = Nat.pow base _ * base := Nat.mul_comm _ _

theorem isSome_digitValue? (numeral : Numeral base text n) :
    ∀ c ∈ text, (digitValue? base c).isSome = true := by
  induction numeral with
  | digit found => simp [found]
  | append _ found induction =>
    intro c member
    rcases List.mem_append.mp member with inner | last
    · exact induction c inner
    · simp only [List.mem_singleton] at last
      simp [last, found]

theorem areDigits (numeral : Numeral 10 text n) : ∀ c ∈ text, isDigit c = true := by
  intro c member
  obtain ⟨digit, found⟩ :=
    Option.isSome_iff_exists.mp (numeral.isSome_digitValue? c member)
  exact (digitValue?_ten found).1

theorem foldlM_eq (numeral : Numeral base text n) :
    text.foldlM (fun value c => (digitValue? base c).map (base * value + ·)) 0 =
      some n := by
  induction numeral with
  | digit found => simp [found]
  | append _ found induction => simp [List.foldlM_append, induction, found]

theorem decimalValue?_eq (numeral : Numeral 10 text n) : decimalValue? text = some n := by
  have digits : text.all (fun c => '0' ≤ c && c ≤ '9') = true :=
    List.all_eq_true.mpr numeral.areDigits
  have value : text.foldl (fun value c => 10 * value + (c.toNat - '0'.toNat)) 0 = n := by
    generalize isTen : 10 = base at numeral
    induction numeral with
    | digit found =>
      subst isTen
      simp [digitValue?_ten found]
    | append inner found induction =>
      subst isTen
      rw [List.foldl_append, induction (List.all_eq_true.mpr inner.areDigits),
        List.foldl_cons, (digitValue?_ten found).2]
      rfl
  rw [decimalValue?, digits, value]
  simp [numeral.ne_nil]

end Numeral

section Scalars

variable {n : Nat} {text : List Char}

theorem decimalScalar?_eq (numeral : Numeral 10 text n) (fits : n ≤ wordCount 63) :
    ∃ scalar, decimalScalar? text = some scalar ∧ scalar.Holds n ∧
    scalar.negated.Holds (-n) := by
  have bound : wordCount 63 = 9223372036854775808 := rfl
  rw [decimalScalar?, numeral.decimalValue?_eq]
  dsimp only
  by_cases inside : n < wordCount 63
  · rw [if_pos inside, integerScalar]
    by_cases held : (Double.ofInt n).toInt? = some (n : Int)
    · rw [if_pos held]
      refine ⟨_, rfl, held, ?_⟩
      rw [Scalar.negated, Scalar.Holds, Double.toInt?_neg, held]
      rfl
    · rw [if_neg held]
      -- Double precision holds every integer of 32 bits.
      have large : ¬ n < 2 ^ 53 := fun small => held (Double.toInt?_ofInt small)
      have half : wordCount (32 - 1) = 2147483648 := rfl
      have same : (Int64.ofInt n).toInt = n :=
        Int64.toInt_ofInt_of_le (by omega) (by omega)
      have opposite : (-Int64.ofInt n).toInt = -n := by
        rw [← Int64.ofInt_neg]
        exact Int64.toInt_ofInt_of_le (by omega) (by omega)
      refine ⟨_, rfl, ⟨same, ?_⟩, opposite, ?_⟩ <;>
        (rw [isSignedWord, half]; simp; omega)
  · obtain rfl : n = wordCount 63 := by omega
    rw [if_neg inside]
    have held :
        (Double.ofRatio false (wordCount 63) 1).toInt? = some (wordCount 63 : Int) := by
      decide +kernel
    refine ⟨_, rfl, held, ?_⟩
    rw [Scalar.negated, Scalar.Holds, Double.toInt?_neg, held]
    rfl

theorem hexScalar?_eq (numeral : Numeral 16 text n) (fits : n < wordCount 64) :
    ∃ scalar, hexScalar? text = some scalar ∧
    scalar.Holds (Int.bmod n (wordCount 64)) := by
  have word : (Int64.ofNat n).toInt = Int.bmod n (wordCount 64) := Int64.toInt_ofNat'
  rw [hexScalar?, numeral.foldlM_eq]
  have isText : text.isEmpty = false := List.isEmpty_eq_false_iff.mpr numeral.ne_nil
  simp only [isText, Bool.not_false, guard, if_true, Option.pure_def, Option.bind_eq_bind,
    Option.bind_some, fits]
  by_cases small : isSignedWord 32 (Int64.ofNat n).toInt = true
  · rw [if_pos small]
    refine ⟨_, rfl, ?_⟩
    have half : wordCount (32 - 1) = 2147483648 := rfl
    simp only [isSignedWord, half, Bool.and_eq_true, decide_eq_true_eq] at small
    rw [Scalar.Holds, Double.toInt?_ofInt_of_natAbs (by omega), word]
  · rw [if_neg small]
    exact ⟨_, rfl, word, by rw [← word]; exact Bool.eq_false_iff.mpr small⟩

theorem colourScalar?_eq {red green blue alpha : List Char} (isRed : red.length = 2)
    (isGreen : green.length = 2) (isBlue : blue.length = 2)
    (isAlpha : alpha = [] ∨ alpha.length = 2)
    (numeral : Numeral 16 (blue ++ green ++ red ++ alpha) n) :
    ∃ scalar, colourScalar? (red ++ green ++ blue ++ alpha) = some scalar ∧
      scalar.Holds (Int.bmod n (wordCount 64)) := by
  have small := numeral.lt_pow
  obtain ⟨r, r', rfl⟩ := List.length_eq_two.mp isRed
  obtain ⟨g, g', rfl⟩ := List.length_eq_two.mp isGreen
  obtain ⟨b, b', rfl⟩ := List.length_eq_two.mp isBlue
  rcases isAlpha with rfl | isAlpha
  · exact hexScalar?_eq numeral
      (Nat.lt_of_lt_of_le small (show Nat.pow 16 6 ≤ _ by decide))
  · obtain ⟨a, a', rfl⟩ := List.length_eq_two.mp isAlpha
    exact hexScalar?_eq numeral
      (Nat.lt_of_lt_of_le small (show Nat.pow 16 8 ≤ _ by decide))

end Scalars

section Texts

variable {target : Target}

theorem isHexDigit_isNamePart {c : Char} (digit : isHexDigit c = true) :
    isNamePart c = true := by
  simp only [isHexDigit, digitValue?] at digit
  simp only [isNamePart, isNameStart, Char.le_def, UInt32.le_iff_toNat_le] at *
  grind

theorem readHex?_eq {opening text rest : List Char} {scalar : Scalar} (offset : Nat)
    (opens : opening = ['0', 'x'] ∨ opening = ['$']) (notEmpty : text ≠ [])
    (digits : ∀ c ∈ text, isHexDigit c = true) (read : hexScalar? text = some scalar)
    (stops : ∀ c ∈ rest.head?, isHexDigit c = false) :
    ∃ after, Cursor.readHex? ⟨opening ++ (text ++ rest), offset⟩ =
      some (Cursor.readingScalar ⟨opening ++ (text ++ rest), offset⟩ scalar
        ⟨rest, after⟩) := by
  have noX : (text ++ rest).head? ≠ some 'x' := by
    obtain ⟨c, text, rfl⟩ := List.exists_cons_of_ne_nil notEmpty
    intro isX
    cases Option.some.inj isX
    cases digits 'x' (by simp)
  have cut (offset : Nat) : Cursor.cut ⟨text ++ rest, offset⟩ isHexDigit =
      (text, ⟨rest, offset + byteLength text⟩) := by
    rw [Cursor.cut, span_append digits stops]
    rfl
  have plain (offset : Nat) :
      Cursor.passX? ⟨text ++ rest, offset⟩ = some ⟨text ++ rest, offset⟩ := if_neg noX
  rcases opens with rfl | rfl
  · have opened : Cursor.step? ⟨'0' :: 'x' :: (text ++ rest), offset⟩ 1 =
        some ⟨'x' :: (text ++ rest), offset + 1⟩ := Cursor.step?_one rfl _ offset
    have passed : Cursor.passX? ⟨'x' :: (text ++ rest), offset + 1⟩ =
        some ⟨text ++ rest, offset + 1 + 1⟩ := Cursor.step?_one rfl _ (offset + 1)
    refine ⟨offset + 1 + 1 + byteLength text, ?_⟩
    simp only [List.cons_append, List.nil_append, Cursor.readHex?, opened, passed, cut,
      read, Option.bind_eq_bind, Option.bind_some]
    rfl
  · have opened : Cursor.step? ⟨'$' :: (text ++ rest), offset⟩ 1 =
        some ⟨text ++ rest, offset + 1⟩ := Cursor.step?_one rfl _ offset
    refine ⟨offset + 1 + byteLength text, ?_⟩
    simp only [List.cons_append, List.nil_append, Cursor.readHex?, opened, plain, cut,
      read, Option.bind_eq_bind, Option.bind_some]
    rfl

theorem Spells.hexadecimal {opening text : List Char} {scalar : Scalar}
    (opens : opening = ['0', 'x'] ∨ opening = ['$']) (notEmpty : text ≠ [])
    (digits : ∀ c ∈ text, isHexDigit c = true) (read : hexScalar? text = some scalar) :
    Spells target (opening ++ text) [.constant { value := scalar }] where
  long := by rcases opens with rfl | rfl <;> simp
  scans fuel offset rest macros separated := by
    have stops (c : Char) (member : c ∈ rest.head?) : isHexDigit c = false :=
      Bool.eq_false_iff.mpr fun digit =>
        Bool.eq_false_iff.mp (separated.stops c member).1 (isHexDigit_isNamePart digit)
    obtain ⟨after, hex⟩ := readHex?_eq offset opens notEmpty digits read stops
    refine ⟨[⟨_, Position.ofOffset offset⟩], after, rfl,
      (congrArg (scanFrom target · _ macros) (Nat.add_comm 1 fuel)).trans ?_⟩
    rw [List.append_assoc]
    rcases opens with rfl | rfl
    · exact scanFrom_token fuel offset (by decide) rfl (by decide) hex nofun
    · exact scanFrom_token fuel offset (by decide) rfl (by decide) hex nofun

theorem scan_colour {text : String} {name : List Char} {scalar : Scalar}
    (spelled : text.toList = '#' :: name) (notEmpty : name ≠ [])
    (digits : ∀ c ∈ name, isHexDigit c = true) (read : colourScalar? name = some scalar)
    (macros : MacroTable) :
    ∃ tokens last, tokens.map (·.lexeme) = [.constant { value := scalar }] ∧
      scan target macros text = ⟨tokens ++ [⟨.eof, last⟩], [], macros⟩ := by
  have other (word : String) (c : Char) (member : c ∈ word.toList)
    (noDigit : isHexDigit c = false) :
      (String.ofList name == word) = false := by
    refine beq_eq_false_iff_ne.mpr fun same => ?_
    rw [← same, String.toList_ofList] at member
    simp [digits c member] at noDigit
  obtain ⟨c, name, rfl⟩ := List.exists_cons_of_ne_nil notEmpty
  have visible (c : Char) (member : c ∈ name) : (!isBlank c) = true := by
    simp [(visible_of_isNamePart (isHexDigit_isNamePart (digits c (by simp [member])))).1]
  have cut (offset : Nat) : Cursor.cut ⟨name, offset⟩ (fun c => !isBlank c) =
      (name, ⟨[], offset + byteLength name⟩) := by
    have spans : (name ++ []).span (fun c => !isBlank c) = (name, []) :=
      span_append visible nofun
    rw [List.append_nil] at spans
    rw [Cursor.cut, spans]
    rfl
  have opened : Cursor.step? ⟨'#' :: c :: name, 0⟩ 1 = some ⟨c :: name, 1⟩ :=
    Cursor.step?_one rfl _ 0
  have whole : List.take 1 (c :: name) ++ name = c :: name := rfl
  have event : ∃ after, Cursor.event? target ⟨'#' :: c :: name, 0⟩ =
      some (.token ⟨.constant { value := scalar }, 0⟩ [] ⟨[], after⟩) := by
    refine ⟨1 + c.utf8Size + byteLength name, ?_⟩
    rw [Cursor.event?, skipGap?_of_visible 0 (by decide) rfl]
    dsimp only [Option.bind_eq_bind, Option.bind_some]
    simp only [Cursor.readDirective?, opened, Cursor.next_cons, cut, whole, read,
      Bool.or_self, Bool.false_eq_true, if_false,
      other "macro" 'm' (by decide) (by decide),
      other "region" 'r' (by decide) (by decide),
      other "endregion" 'n' (by decide) (by decide), Option.bind_eq_bind, Option.bind_some]
    rfl
  obtain ⟨after, event⟩ := event
  refine ⟨[⟨_, 0⟩], Position.ofOffset after, rfl, ?_⟩
  rw [scan, spelled, scanFrom, Cursor.event, event]
  rfl

end Texts

end GameScript.Token
