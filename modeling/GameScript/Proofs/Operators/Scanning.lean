import GameScript.Proofs.Number.Whole
import GameScript.Proofs.Operators.Nesting
import GameScript.Proofs.Token.Cursor

/-! Texts and the words that they spell.

A text spells words if it is scanned into them wherever a blank, a closing
parenthesis or nothing follows it. -/

namespace GameScript.Token

open Builtin Number Syntax Text

variable {target : Target} {macros : MacroTable}

def Scan.prepend (tokens : List Token) (scan : Scan) : Scan :=
  { scan with tokens := tokens ++ scan.tokens }

theorem scanFrom_blank (fuel offset : Nat) (rest : List Char) :
    scanFrom target fuel ⟨' ' :: rest, offset⟩ macros =
      scanFrom target fuel ⟨rest, offset + 1⟩ macros := by
  have blank : isBlank ' ' = true := by decide
  have skips : (Cursor.cut ⟨' ' :: rest, offset⟩ isBlank).2 =
      (Cursor.cut ⟨rest, offset + 1⟩ isBlank).2 := by
    have size : Char.utf8Size ' ' = 1 := rfl
    simp [Cursor.cut, Cursor.after, List.span_eq_takeWhile_dropWhile, blank,
      size, Nat.add_assoc]
  have events : Cursor.event? target ⟨' ' :: rest, offset⟩ =
      Cursor.event? target ⟨rest, offset + 1⟩ := by
    rw [Cursor.event?, Cursor.event?, Cursor.skipGap?, Cursor.skipGap?, skips]
  rw [Cursor.event?_eq, Cursor.event?_eq] at events
  cases fuel with
  | zero => rfl
  | succ fuel => rw [scanFrom, scanFrom, Option.some.inj events]

def beginsComment : List Char → Bool
  | '/' :: '/' :: _ | '/' :: '*' :: _ => true
  | _ => false

variable {c : Char} {rest : List Char} {mark : Mark}

theorem beginsComment_of_ne (noSlash : c ≠ '/') (rest : List Char) :
    beginsComment (c :: rest) = false := by
  unfold beginsComment
  split
  · next same => exact absurd (List.cons.inj same).1 noSlash
  · next same => exact absurd (List.cons.inj same).1 noSlash
  · rfl

theorem skipGap?_of_visible (offset : Nat)
    (visible : isBlank c = false) (noComment : beginsComment (c :: rest) = false) :
    Cursor.skipGap? ⟨c :: rest, offset⟩ = some ⟨c :: rest, offset⟩ := by
  have stays : (Cursor.cut ⟨c :: rest, offset⟩ isBlank).2 = ⟨c :: rest, offset⟩ := by
    simp [Cursor.cut, Cursor.after, List.span_eq_takeWhile_dropWhile, visible]
  rw [Cursor.skipGap?, stays]
  dsimp only [List.length_cons]
  rw [skipComments?]
  dsimp only
  split
  · next same =>
      cases same
      cases noComment
  · next same =>
      cases same
      cases noComment
  · rfl

theorem scanFrom_token (fuel offset : Nat)
    (visible : isBlank c = false) (noComment : beginsComment (c :: rest) = false)
    (noDirective : c ≠ '#') {lexeme : Lexeme} {after : Cursor}
    (read : Cursor.readToken? target ⟨c :: rest, offset⟩ =
      some (Cursor.reading ⟨c :: rest, offset⟩ lexeme after))
    (valid : lexeme.kind ≠ .invalid) :
    scanFrom target (fuel + 1) ⟨c :: rest, offset⟩ macros =
      (scanFrom target fuel after macros).prepend
      [⟨lexeme, Position.ofOffset offset⟩] := by
  have event : Cursor.event? target ⟨c :: rest, offset⟩ =
      some (.token ⟨lexeme, Position.ofOffset offset⟩ [] after) := by
    rw [Cursor.event?, skipGap?_of_visible offset visible noComment]
    dsimp only [Option.bind_eq_bind, Option.bind_some]
    split
    · next same =>
        cases same
        exact absurd rfl noDirective
    · next same => cases same
    · rw [read]
      dsimp only [Option.bind_some, Cursor.reading]
      rw [if_neg valid]
      rfl
  rw [scanFrom, Cursor.event, event]
  rfl

def isSymbol (c : Char) : Bool :=
  !isBlank c && !isNameStart c && !isDigit c &&
    !(['#', '$', '.', '@', '"', '\''].contains c)

theorem readToken?_symbol (offset : Nat) (symbol : isSymbol c = true) :
    Cursor.readToken? target ⟨c :: rest, offset⟩ =
      Cursor.readOperator? ⟨c :: rest, offset⟩ := by
  simp only [isSymbol, List.contains_cons, Bool.and_eq_true, Bool.not_eq_true',
    Bool.or_eq_false_iff] at symbol
  simp [Cursor.readToken?, symbol]

theorem scanFrom_operator {text : List Char} (fuel offset : Nat)
    (visible : isBlank c = false) (noDirective : c ≠ '#')
    (noComment : beginsComment (c :: (text ++ rest)) = false)
    (found : Cursor.operator? (c :: (text ++ rest)) = some (mark, text.length + 1))
    (reads : Cursor.readToken? target ⟨c :: (text ++ rest), offset⟩ =
      Cursor.readOperator? ⟨c :: (text ++ rest), offset⟩) :
    scanFrom target (fuel + 1) ⟨c :: (text ++ rest), offset⟩ macros =
      (scanFrom target fuel ⟨rest, offset + byteLength (c :: text)⟩ macros).prepend
        [⟨.mark mark, Position.ofOffset offset⟩] := by
  refine scanFrom_token fuel offset visible noComment noDirective ?_ nofun
  obtain ⟨spelling, behind, split, length, size, -⟩ := Cursor.operator?_spelling found
  have split : (c :: text) ++ rest = spelling ++ behind := split
  obtain ⟨rfl, rfl⟩ := List.append_inj split (by simp [length])
  have steps := Cursor.step?_eq (c :: text) size rest offset
  rw [List.cons_append] at steps
  rw [reads, Cursor.readOperator?, found]
  dsimp only
  rw [steps, size]
  rfl

theorem scanFrom_mark {text : List Char} (fuel offset : Nat)
    (symbol : isSymbol c = true) (noComment : beginsComment (c :: (text ++ rest)) = false)
    (found : Cursor.operator? (c :: (text ++ rest)) = some (mark, text.length + 1)) :
    scanFrom target (fuel + 1) ⟨c :: (text ++ rest), offset⟩ macros =
      (scanFrom target fuel ⟨rest, offset + byteLength (c :: text)⟩ macros).prepend
        [⟨.mark mark, Position.ofOffset offset⟩] := by
  have parts : isBlank c = false ∧ c ≠ '#' := by
    simp only [isSymbol, List.contains_cons, Bool.and_eq_true, Bool.not_eq_true',
      Bool.or_eq_false_iff, beq_eq_false_iff_ne] at symbol
    exact ⟨symbol.1.1.1, symbol.2.1⟩
  exact scanFrom_operator fuel offset parts.1 parts.2 noComment found
    (readToken?_symbol offset symbol)

theorem scanFrom_dot (fuel offset : Nat) (noDigit : rest.head?.any isDigit = false) :
    scanFrom target (fuel + 1) ⟨'.' :: rest, offset⟩ macros =
      (scanFrom target fuel ⟨rest, offset + 1⟩ macros).prepend
        [⟨.mark .dot, Position.ofOffset offset⟩] := by
  have noName : isNameStart '.' = false := by decide
  have reads : Cursor.readToken? target ⟨'.' :: ([] ++ rest), offset⟩ =
      Cursor.readOperator? ⟨'.' :: ([] ++ rest), offset⟩ := by
    simp [Cursor.readToken?, noName, isDigit, noDigit]
  have found :
      Cursor.operator? ('.' :: ([] ++ rest)) = some (.dot, ([] : List Char).length + 1) :=
    rfl
  exact scanFrom_operator fuel offset (by decide) (by decide) rfl found reads

theorem scanFrom_single (fuel offset : Nat)
    (symbol : isSymbol c = true) (noComment : beginsComment (c :: rest) = false)
    (found : Cursor.operator? (c :: rest) = some (mark, 1)) :
    ∃ after, scanFrom target (fuel + 1) ⟨c :: rest, offset⟩ macros =
      (scanFrom target fuel ⟨rest, after⟩ macros).prepend
        [⟨.mark mark, Position.ofOffset offset⟩] := by
  rw [← List.nil_append rest] at noComment found
  exact ⟨_, scanFrom_mark fuel offset symbol noComment found⟩

theorem scanFrom_open (target : Target) (macros : MacroTable) (fuel offset : Nat)
    (rest : List Char) :
    ∃ after, scanFrom target (fuel + 1) ⟨'(' :: rest, offset⟩ macros =
      (scanFrom target fuel ⟨rest, after⟩ macros).prepend
        [⟨.mark .parenOpen, Position.ofOffset offset⟩] :=
  scanFrom_single fuel offset (by decide) rfl rfl

theorem scanFrom_close (target : Target) (macros : MacroTable) (fuel offset : Nat)
    (rest : List Char) :
    ∃ after, scanFrom target (fuel + 1) ⟨')' :: rest, offset⟩ macros =
      (scanFrom target fuel ⟨rest, after⟩ macros).prepend
        [⟨.mark .parenClose, Position.ofOffset offset⟩] :=
  scanFrom_single fuel offset (by decide) rfl rfl

theorem span_append {p : Char → Bool} {text : List Char} (all : ∀ c ∈ text, p c = true)
    (stops : ∀ c ∈ rest.head?, p c = false) : (text ++ rest).span p = (text, rest) := by
  rw [List.span_eq_takeWhile_dropWhile, List.takeWhile_append_of_pos all,
    List.dropWhile_append_of_pos all]
  cases rest with
  | nil => simp
  | cons c rest =>
    have stop : p c = false := stops c rfl
    simp [stop]

def wordLexeme (name : String) : Lexeme :=
  match Mark.ofKeyword? name with
  | some mark => .mark mark
  | none => .identifier name

theorem isNamePart_of_isNameStart (start : isNameStart c = true) :
    isNamePart c = true := by
  simp [isNamePart, start]

theorem visible_of_isNamePart (isPart : isNamePart c = true) :
    isBlank c = false ∧ c ≠ '#' ∧ c ≠ '/' := by
  refine ⟨?_, ?_, ?_⟩
  · simp only [isNamePart, isNameStart, isDigit, Char.le_def, UInt32.le_iff_toNat_le,
      Bool.or_eq_true, Bool.and_eq_true, decide_eq_true_eq, beq_iff_eq] at isPart
    have range : 48 ≤ c.toNat ∧ c.toNat ≤ 122 := by
      rcases isPart with ((lower | upper) | rfl) | digit
      · exact ⟨Nat.le_trans (by decide) lower.1, Nat.le_trans lower.2 (by decide)⟩
      · exact ⟨Nat.le_trans (by decide) upper.1, Nat.le_trans upper.2 (by decide)⟩
      · decide
      · exact ⟨Nat.le_trans (by decide) digit.1, Nat.le_trans digit.2 (by decide)⟩
    simp [isBlank, blankRanges]
    omega
  · rintro rfl
    cases isPart
  · rintro rfl
    cases isPart

theorem scanFrom_word {text : List Char} (fuel offset : Nat)
    (start : isNameStart c = true) (all : ∀ c ∈ text, isNamePart c = true)
    (stops : ∀ c ∈ rest.head?, isNamePart c = false) :
    scanFrom target (fuel + 1) ⟨c :: (text ++ rest), offset⟩ macros =
      (scanFrom target fuel ⟨rest, offset + byteLength (c :: text)⟩ macros).prepend
        [⟨wordLexeme (String.ofList (c :: text)), Position.ofOffset offset⟩] := by
  obtain ⟨visible, noDirective, noSlash⟩ :=
    visible_of_isNamePart (isNamePart_of_isNameStart start)
  refine scanFrom_token fuel offset visible
    (beginsComment_of_ne noSlash _) noDirective ?_ ?_
  · have cut : Cursor.cut ⟨c :: (text ++ rest), offset⟩ isNamePart =
        (c :: text, ⟨rest, offset + byteLength (c :: text)⟩) := by
      rw [Cursor.cut, ← List.cons_append, span_append _ stops]
      · rfl
      · simpa [isNamePart_of_isNameStart start] using all
    rw [Cursor.readToken?]
    dsimp only
    rw [if_pos start, Cursor.readName, cut]
    dsimp only
    rw [wordLexeme]
    cases Mark.ofKeyword? (String.ofList (c :: text)) <;> rfl
  · rw [wordLexeme]
    cases Mark.ofKeyword? (String.ofList (c :: text)) <;> simp

theorem isNameStart_of_isDigit (digit : isDigit c = true) : isNameStart c = false := by
  refine Bool.eq_false_iff.mpr fun start => ?_
  simp only [isDigit, isNameStart, Char.le_def, UInt32.le_iff_toNat_le, Bool.or_eq_true,
    Bool.and_eq_true, decide_eq_true_eq, beq_iff_eq] at digit start
  rcases start with (lower | upper) | rfl
  · exact absurd (Nat.le_trans lower.1 digit.2) (by decide)
  · exact absurd (Nat.le_trans upper.1 digit.2) (by decide)
  · exact absurd digit.2 (by decide)

theorem isDigit_of_mem_toDigits {n : Nat} (member : c ∈ Nat.toDigits 10 n) :
    isDigit c = true := by
  have digit := Char.isDigit_iff_toNat.mp
    (Nat.isDigit_of_mem_toDigits (by decide) (by decide) member)
  simp only [isDigit, Char.le_def, UInt32.le_iff_toNat_le, Bool.and_eq_true,
    decide_eq_true_eq]
  exact digit

theorem decimalScalar?_toDigits {n : Nat} (small : n < 2 ^ 53) :
    decimalScalar? (Nat.toDigits 10 n) = some (.number (Double.ofInt n)) := by
  have digits : (Nat.toDigits 10 n).all (fun c => '0' ≤ c && c ≤ '9') = true :=
    List.all_eq_true.mpr fun c member => isDigit_of_mem_toDigits member
  have value : decimalValue? (Nat.toDigits 10 n) = some n := by
    have read :
        (Nat.toDigits 10 n).foldl (fun value c => 10 * value + (c.toNat - '0'.toNat)) 0 =
        n :=
      Nat.ofDigitChars_ten_toDigits
    rw [decimalValue?, digits, read]
    simp [Nat.toDigits_ne_nil]
  have isNumber : integerScalar n = .number (Double.ofInt n) := by
    rw [integerScalar, Double.toInt?_ofInt small]
    simp
  have bound : wordCount 63 = 2 ^ 63 := rfl
  rw [decimalScalar?, value]
  dsimp only
  rw [if_pos (by rw [bound]; omega), isNumber]

theorem scanFrom_decimal {text : List Char} {scalar : Scalar} (fuel offset : Nat)
    (nonempty : text ≠ []) (digits : ∀ c ∈ text, isDigit c = true)
    (read : decimalScalar? text = some scalar)
    (stops : ∀ c ∈ rest.head?, isNamePart c = false ∧ c ≠ '.') :
    scanFrom target (fuel + 1) ⟨text ++ rest, offset⟩ macros =
      (scanFrom target fuel ⟨rest, offset + byteLength text⟩ macros).prepend
        [⟨.constant { value := scalar }, Position.ofOffset offset⟩] := by
  obtain ⟨c, text, rfl⟩ := List.exists_cons_of_ne_nil nonempty
  have isFirst : isDigit c = true := digits c List.mem_cons_self
  have isPart : isNamePart c = true := by simp [isNamePart, isFirst]
  obtain ⟨visible, noDirective, noSlash⟩ := visible_of_isNamePart isPart
  rw [List.cons_append]
  refine scanFrom_token fuel offset visible (beginsComment_of_ne noSlash _) noDirective ?_
    (by simp)
  have noWord : isNameStart c = false := isNameStart_of_isDigit isFirst
  have noHex : (text ++ rest).head? ≠ some 'x' := by
    cases text with
    | nil =>
      intro isX
      cases (stops 'x' isX).1
    | cons d _ =>
      intro isX
      cases Option.some.inj isX
      cases digits 'x' (by simp)
  have cut : Cursor.cut ⟨c :: (text ++ rest), offset⟩ (fun c => isDigit c || c == '.') =
      (c :: text, ⟨rest, offset + byteLength (c :: text)⟩) := by
    rw [Cursor.cut, ← List.cons_append, span_append]
    · rfl
    · intro c member
      simp [digits c member]
    · intro c member
      obtain ⟨noPart, noPoint⟩ := stops c member
      simp [(Bool.or_eq_false_iff.mp noPart).2, noPoint]
  rw [Cursor.readToken?]
  dsimp only
  rw [noWord, isFirst, beq_eq_false_iff_ne.mpr noHex]
  simp only [Bool.false_eq_true, if_false, if_true, Bool.and_false]
  rw [Cursor.readDecimal, cut]
  dsimp only
  rw [read]
  rfl

/-- The text is a mark wherever a blank follows it. -/
def IsMark (target : Target) (text : List Char) (mark : Mark) : Prop :=
  ∀ (fuel offset : Nat) (rest : List Char) (macros : MacroTable), ∃ pos after,
    scanFrom target (fuel + 1) ⟨text ++ ' ' :: rest, offset⟩ macros =
      (scanFrom target fuel ⟨' ' :: rest, after⟩ macros).prepend [⟨.mark mark, pos⟩]

theorem isMark_of_operator? {text : List Char} (symbol : isSymbol c = true)
    (noComment : ∀ rest, beginsComment (c :: (text ++ ' ' :: rest)) = false)
    (found : ∀ rest, Cursor.operator? (c :: (text ++ ' ' :: rest)) =
      some (mark, text.length + 1)) :
    IsMark target (c :: text) mark :=
  fun fuel offset rest _ =>
    ⟨_, _, scanFrom_mark fuel offset symbol (noComment rest) (found rest)⟩

theorem isMark_question : IsMark target ['?'] .question :=
  isMark_of_operator? (by decide) (fun _ => rfl) fun _ => rfl

theorem isMark_colon : IsMark target [':'] .colon :=
  isMark_of_operator? (by decide) (fun _ => rfl) fun _ => rfl

theorem isMark_div : IsMark target ['d', 'i', 'v'] .intDivide := by
  intro fuel offset rest macros
  have all : ∀ c ∈ ['i', 'v'], isNamePart c = true := List.all_eq_true.mp rfl
  have stops : ∀ c ∈ (' ' :: rest).head?, isNamePart c = false := by
    rintro c ⟨rfl⟩
    rfl
  exact ⟨_, _, scanFrom_word fuel offset rfl all stops⟩

theorem isMark_symbol (op : BinaryOp) : IsMark target op.symbol.toList op.mark := by
  cases op
  case intDiv => exact isMark_div
  all_goals exact isMark_of_operator? (by decide) (fun _ => rfl) fun _ => rfl

/-- What may follow a text of words. -/
def Separated (rest : List Char) : Prop := ∀ c ∈ rest.head?, c = ' ' ∨ c = ')'

/-- The text is scanned into the words before everything that may follow it. -/
structure Spells (target : Target) (text : List Char) (words : List Lexeme) : Prop where
  long : words.length ≤ text.length
  scans : ∀ (fuel offset : Nat) (rest : List Char) (macros : MacroTable), Separated rest →
    ∃ tokens after, tokens.map (·.lexeme) = words ∧
      scanFrom target (words.length + fuel) ⟨text ++ rest, offset⟩ macros =
        (scanFrom target fuel ⟨rest, after⟩ macros).prepend tokens

theorem Separated.stops (separated : Separated rest) :
    ∀ c ∈ rest.head?, isNamePart c = false ∧ c ≠ '.' := by
  intro c member
  rcases separated c member with rfl | rfl <;> decide

namespace Spells

variable {text others : List Char} {words otherWords : List Lexeme}

theorem word {c : Char} (start : isNameStart c = true)
    (all : ∀ c ∈ text, isNamePart c = true) :
    Spells target (c :: text) [wordLexeme (String.ofList (c :: text))] where
  long := by simp
  scans fuel offset rest macros separated :=
    ⟨[_], _, rfl, (congrArg (scanFrom target · _ macros) (Nat.add_comm 1 fuel)).trans
      (scanFrom_word fuel offset start all fun c member => (separated.stops c member).1)⟩

theorem dotted {c d : Char} (start : isNameStart c = true)
    (all : ∀ c ∈ text, isNamePart c = true) (noDigit : isDigit d = false)
    (behind : Spells target (d :: others) words) :
    Spells target (c :: (text ++ '.' :: d :: others))
      (wordLexeme (String.ofList (c :: text)) :: .mark .dot :: words) where
  long := by
    have := behind.long
    simp at *
    omega
  scans fuel offset rest macros separated := by
    have stops : ∀ c ∈ ('.' :: d :: (others ++ rest)).head?, isNamePart c = false := by
      rintro c ⟨rfl⟩
      rfl
    have behindDot : (d :: (others ++ rest)).head?.any isDigit = false := noDigit
    obtain ⟨tokens, after, spelled, scans⟩ :=
      behind.scans fuel (offset + byteLength (c :: text) + 1) rest macros separated
    refine ⟨⟨wordLexeme (String.ofList (c :: text)), Position.ofOffset offset⟩ ::
      ⟨.mark .dot, Position.ofOffset (offset + byteLength (c :: text))⟩ ::
      tokens, after, ?_, ?_⟩
    · rw [List.map_cons, List.map_cons, spelled]
    · have units (first : Lexeme) : (first :: .mark .dot :: words).length + fuel =
          words.length + fuel + 1 + 1 := by
        simp
        omega
      simp only [List.append_assoc, List.cons_append] at scans ⊢
      rw [units, scanFrom_word _ _ start all stops, scanFrom_dot _ _ behindDot, scans]
      simp [Scan.prepend]

theorem decimal {scalar : Scalar} (nonempty : text ≠ [])
    (digits : ∀ c ∈ text, isDigit c = true) (read : decimalScalar? text = some scalar) :
    Spells target text [.constant { value := scalar }] where
  long := List.length_pos_iff.mpr nonempty
  scans fuel offset _ macros separated :=
    ⟨[_], _, rfl, (congrArg (scanFrom target · _ macros) (Nat.add_comm 1 fuel)).trans
      (scanFrom_decimal fuel offset nonempty digits read separated.stops)⟩

theorem digits {n : Nat} (small : n < 2 ^ 53) :
    Spells target (Nat.toDigits 10 n) [.constant { value := .number (Double.ofInt n) }] :=
  .decimal Nat.toDigits_ne_nil (fun _ => isDigit_of_mem_toDigits)
    (decimalScalar?_toDigits small)

theorem between {symbol : List Char} {mark : Mark} (left : Spells target text words)
    (isMark : IsMark target symbol mark) (right : Spells target others otherWords) :
    Spells target (text ++ ' ' :: (symbol ++ ' ' :: others))
      (words ++ .mark mark :: otherWords) where
  long := by
    have := left.long
    have := right.long
    simp
    omega
  scans fuel offset rest macros separated := by
    obtain ⟨leftTokens, afterLeft, spelledLeft, scansLeft⟩ :=
      left.scans (otherWords.length + fuel + 1) offset
        (' ' :: (symbol ++ ' ' :: (others ++ rest))) macros (by simp [Separated])
    obtain ⟨pos, afterMark, scansMark⟩ :=
      isMark (otherWords.length + fuel) (afterLeft + 1) (others ++ rest) macros
    obtain ⟨rightTokens, afterRight, spelledRight, scansRight⟩ :=
      right.scans fuel (afterMark + 1) rest macros separated
    refine ⟨leftTokens ++ ⟨.mark mark, pos⟩ :: rightTokens, afterRight, ?_, ?_⟩
    · simp [spelledLeft, spelledRight]
    · have units : (words ++ .mark mark :: otherWords).length + fuel =
          words.length + (otherWords.length + fuel + 1) := by
        simp
        omega
      simp only [List.append_assoc, List.cons_append] at scansLeft ⊢
      rw [units, scansLeft, scanFrom_blank, scansMark, scanFrom_blank, scansRight]
      simp [Scan.prepend]

theorem paren (inner : Spells target text words) :
    Spells target ('(' :: (text ++ [')']))
      (.mark .parenOpen :: words ++ [.mark .parenClose]) where
  long := by
    have := inner.long
    simp
    omega
  scans fuel offset rest macros separated := by
    obtain ⟨afterOpen, opens⟩ :=
      scanFrom_open target macros (words.length + (fuel + 1)) offset (text ++ ')' :: rest)
    obtain ⟨tokens, after, spelled, scans⟩ :=
      inner.scans (fuel + 1) afterOpen (')' :: rest) macros (by simp [Separated])
    obtain ⟨afterClose, closes⟩ := scanFrom_close target macros fuel after rest
    refine ⟨⟨.mark .parenOpen, Position.ofOffset offset⟩ :: tokens ++
      [⟨.mark .parenClose, Position.ofOffset after⟩], afterClose, ?_, ?_⟩
    · simp [spelled]
    · have units :
        (Lexeme.mark .parenOpen :: words ++ [Lexeme.mark .parenClose]).length + fuel =
          words.length + (fuel + 1) + 1 := by
        simp
        omega
      rw [units]
      simp only [List.append_assoc, List.cons_append, List.nil_append]
      rw [opens, scans, closes]
      simp [Scan.prepend]

theorem prefixed {c : Char} {mark : Mark} (symbol : isSymbol c = true) (noSlash : c ≠ '/')
    (found : ∀ rest, Cursor.operator? (c :: (text ++ rest)) = some (mark, 1))
    (operand : Spells target text words) :
    Spells target (c :: text) (.mark mark :: words) where
  long := Nat.succ_le_succ operand.long
  scans fuel offset rest macros separated := by
    obtain ⟨afterMark, scansMark⟩ := scanFrom_single (words.length + fuel) offset symbol
      (beginsComment_of_ne noSlash _) (found rest)
    obtain ⟨tokens, after, spelled, scans⟩ :=
      operand.scans fuel afterMark rest macros separated
    refine ⟨⟨.mark mark, Position.ofOffset offset⟩ :: tokens, after, ?_, ?_⟩
    · simp [spelled]
    · have units :
          (Lexeme.mark mark :: words).length + fuel = words.length + fuel + 1 := by
        simp
        omega
      rw [units, List.cons_append, scansMark, scans]
      simp [Scan.prepend]

end Spells

theorem Spells.scan {text : String} {words : List Lexeme}
    (spells : Spells target text.toList words) (macros : MacroTable) :
    ∃ tokens last, tokens.map (·.lexeme) = words ∧
      scan target macros text = ⟨tokens ++ [⟨.eof, last⟩], [], macros⟩ := by
  have separated : Separated [] := nofun
  obtain ⟨tokens, after, spelled, scans⟩ :=
    spells.scans (text.toList.length - words.length + 1) 0 [] macros separated
  have units : text.toList.length + 1 =
      words.length + (text.toList.length - words.length + 1) := by
    have := spells.long
    omega
  refine ⟨tokens, Position.ofOffset after, spelled, ?_⟩
  rw [List.append_nil] at scans
  rw [Token.scan, units, scans]
  rfl

namespace NameSources

variable {sources : NameSources}

/-- No name among the words is a macro or stands in front of a parenthesis. -/
def ArePlain (sources : NameSources) : List Lexeme → Prop
  | [] => True
  | word :: rest =>
    (∀ name, word = .identifier name →
      sources.macros.get? name = none ∧
      ∀ next ∈ rest.head?, next.kind ≠ .mark .parenOpen) ∧
    sources.ArePlain rest

theorem ArePlain.other {word : Lexeme} {words : List Lexeme}
    (noName : word.kind ≠ .identifier) (behind : sources.ArePlain words) :
    sources.ArePlain (word :: words) :=
  ⟨fun _ isName => absurd (congrArg Lexeme.kind isName) noName, behind⟩

theorem ArePlain.name {name : String} (noMacro : sources.macros.get? name = none) :
    sources.ArePlain [.identifier name] := by
  simp [ArePlain, noMacro]

theorem ArePlain.append {words others : List Lexeme} (front : sources.ArePlain words)
    (back : sources.ArePlain others)
    (noParen : ∀ next ∈ others.head?, next.kind ≠ .mark .parenOpen) :
    sources.ArePlain (words ++ others) := by
  induction words with
  | nil => exact back
  | cons word rest induction =>
    refine ⟨fun name isName => ⟨(front.1 name isName).1, ?_⟩, induction front.2⟩
    cases rest with
    | nil => exact noParen
    | cons _ _ => exact (front.1 name isName).2

theorem resolveUntilMacro_plain
    (onMacro : Token → String → List Token → List Token → List Token × List LexError)
    {tokens : List Token} (plain : sources.ArePlain (tokens.map (·.lexeme))) :
    sources.resolveUntilMacro onMacro tokens =
      (tokens.map fun token => ⟨sources.meaning token.lexeme, token.pos⟩, []) := by
  induction tokens with
  | nil => rfl
  | cons token rest induction =>
    obtain ⟨lexeme, pos⟩ := token
    rw [resolveUntilMacro, induction plain.2, List.map_cons]
    dsimp only
    split
    · next name =>
        obtain ⟨noMacro, noParen⟩ := plain.1 name rfl
        have alone : (rest.head?.any (·.isMark .parenOpen)) = false := by
          cases rest with
          | nil => rfl
          | cons next _ => exact beq_eq_false_iff_ne.mpr (noParen next.lexeme rfl)
        rw [noMacro, alone]
        rfl
    · next noName =>
        rw [meaning]
        exact noName
    · next noName otherKind =>
        rw [meaning]
        · exact noName
        · exact otherKind

theorem resolve_plain {tokens : List Token}
    (plain : sources.ArePlain (tokens.map (·.lexeme))) : sources.resolve tokens =
      (tokens.map fun token => ⟨sources.meaning token.lexeme, token.pos⟩, []) :=
  resolveUntilMacro_plain _ plain

end NameSources

end GameScript.Token
