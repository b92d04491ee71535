import GameScript.Proofs.Operators.Scanning
import GameScript.Text.Quoted

/-! String literals read back.

A literal with escapes is scanned into the text that it was written for, character by
character.  One without escapes is so too, or it is a sum of such literals. -/

namespace GameScript.Token

open Text

variable {target : Target}

def stringLexeme (text : String) : Lexeme := .constant { value := .string text }

theorem digitValue?_hexDigit : ∀ n < 16, digitValue? 16 (hexDigit n) = some n := by
  decide

theorem radixDigits?_digit {base more value read digit offset : Nat} {c : Char}
    {rest : List Char} (isDigit : digitValue? base c = some digit) :
    radixDigits? base (more + 1) value read ⟨c :: rest, offset⟩ =
      radixDigits? base more (base * value + digit) (read + 1)
        ⟨rest, offset + c.utf8Size⟩ := by
  rw [radixDigits?]
  dsimp only [List.head?_cons, Option.bind_some]
  rw [isDigit, Cursor.step?_one (digitValue?_utf8Size isDigit)]
  rfl

theorem readEscape?_hex {c : Char} (small : c.toNat < 256) (rest : List Char)
    (offset : Nat) : ∃ after, readEscape?
        ⟨'x' :: hexDigit (c.toNat / 16) :: hexDigit (c.toNat % 16) :: rest, offset⟩ =
      some ⟨[c], [], ⟨rest, after⟩⟩ := by
  have high := digitValue?_hexDigit (c.toNat / 16) (by omega)
  have low := digitValue?_hexDigit (c.toNat % 16) (by omega)
  have value : 16 * (16 * 0 + c.toNat / 16) + c.toNat % 16 = c.toNat := by omega
  have finish : NumericEscape.finish .hexadecimal c.toNat 2 = ([c], []) := by
    have valid : c.toNat.isValidChar := c.valid
    simp [NumericEscape.finish, valid]
  refine ⟨offset + Char.utf8Size 'x' + (hexDigit (c.toNat / 16)).utf8Size +
    (hexDigit (c.toNat % 16)).utf8Size, ?_⟩
  change NumericEscape.read? .hexadecimal 0 (Cursor.next _) = _
  rw [Cursor.next_cons, NumericEscape.read?, NumericEscape.base, NumericEscape.width,
    radixDigits?_digit high, radixDigits?_digit low, value, radixDigits?]
  dsimp only [Option.bind_eq_bind, Option.bind_some]
  rw [finish]
  rfl

theorem readQuoted?_escape {fuel offset : Nat} {c : Char} {inner : List Char}
    {after : Cursor} (read : readEscape? ⟨inner, offset + 1⟩ = some ⟨[c], [], after⟩) :
    readQuoted? (fuel + 1) ⟨'\\' :: inner, offset⟩ =
      (readQuoted? fuel after).map (·.push c) := by
  have opens : Cursor.step? ⟨'\\' :: inner, offset⟩ 1 = some ⟨inner, offset + 1⟩ :=
    Cursor.step?_one rfl inner offset
  change (Cursor.step? _ 1 >>= fun opened => readEscape? opened >>= fun escape => _) = _
  rw [opens]
  dsimp only [Option.bind_eq_bind, Option.bind_some]
  rw [read]
  dsimp only [Option.bind_some]
  cases readQuoted? fuel after <;> rfl

theorem readQuoted?_escapeChar (fuel : Nat) (c : Char) (rest : List Char) (offset : Nat) :
    ∃ after, readQuoted? (fuel + 1) ⟨escapeChar c ++ rest, offset⟩ =
      (readQuoted? fuel ⟨rest, after⟩).map (·.push c) := by
  unfold escapeChar
  split
  iterate 9 exact ⟨_, readQuoted?_escape rfl⟩
  next noQuote noBackslash noLine _ _ _ _ _ _ =>
  split
  · next control =>
      simp only [Bool.or_eq_true, decide_eq_true_eq] at control
      obtain ⟨after, read⟩ := readEscape?_hex (c := c) (by omega) rest (offset + 1)
      exact ⟨after, readQuoted?_escape read⟩
  · refine ⟨offset + c.utf8Size, ?_⟩
    rw [List.singleton_append, readQuoted?]
    dsimp only
    split
    · next same => cases same
    · next same => exact absurd (List.cons.inj same).1 noQuote
    · next same => exact absurd (List.cons.inj same).1 noBackslash
    · next same => exact absurd (List.cons.inj same).1 noLine
    · next same =>
        cases same
        rw [Cursor.next_cons]
        cases readQuoted? fuel ⟨rest, offset + c.utf8Size⟩ <;> rfl

theorem readQuoted?_escaped (fuel : Nat) (text rest : List Char) (offset : Nat) :
    ∃ after, readQuoted? (fuel + 1 + text.length)
        ⟨text.flatMap escapeChar ++ '"' :: rest, offset⟩ =
      some ⟨text, [], ⟨rest, after⟩⟩ := by
  induction text generalizing offset with
  | nil =>
    refine ⟨offset + 1, ?_⟩
    change (Cursor.step? ⟨'"' :: rest, offset⟩ 1 >>= fun after => _) = _
    rw [Cursor.step?_one rfl]
    rfl
  | cons c text induction =>
    obtain ⟨behind, step⟩ := readQuoted?_escapeChar (fuel + 1 + text.length) c
      (text.flatMap escapeChar ++ '"' :: rest) offset
    obtain ⟨after, read⟩ := induction behind
    refine ⟨after, ?_⟩
    rw [List.flatMap_cons, List.append_assoc, List.length_cons,
      ← Nat.add_assoc, step, read]
    rfl

variable {quote : Char} {text : String}

theorem readVerbatim_closed {text : List Char} (absent : quote ∉ text)
    (rest : List Char) (offset : Nat) :
    ∃ after, readVerbatim quote (text ++ quote :: rest) offset =
      ⟨text, [], ⟨rest, after⟩⟩ := by
  induction text generalizing offset with
  | nil => exact ⟨_, if_pos rfl⟩
  | cons c text induction =>
    obtain ⟨other, behind⟩ := not_or.mp (List.mem_cons.not.mp absent)
    obtain ⟨after, read⟩ := induction behind (offset + c.utf8Size)
    refine ⟨after, ?_⟩
    rw [List.cons_append, readVerbatim, if_neg (Ne.symm other), read]
    rfl

theorem Spells.quotation {inner : List Char} (isQuote : quote = '"' ∨ quote = '\'')
    (reads : ∀ rest offset, ∃ after,
      Cursor.readToken? target ⟨quote :: (inner ++ quote :: rest), offset⟩ =
        some (Cursor.readingQuotation ⟨quote :: (inner ++ quote :: rest), offset⟩
          ⟨text.toList, [], ⟨rest, after⟩⟩)) :
    Spells target (quote :: (inner ++ [quote])) [stringLexeme text] where
  long := by simp
  scans fuel offset rest macros _ := by
    have shape : isBlank quote = false ∧ quote ≠ '#' ∧ quote ≠ '/' := by
      rcases isQuote with rfl | rfl <;> decide
    obtain ⟨visible, noDirective, noSlash⟩ := shape
    obtain ⟨after, read⟩ := reads rest offset
    have scans :
      scanFrom target (fuel + 1) ⟨quote :: (inner ++ quote :: rest), offset⟩ macros =
        (scanFrom target fuel ⟨rest, after⟩ macros).prepend
          [⟨stringLexeme text, Position.ofOffset offset⟩] := by
      refine scanFrom_token fuel offset visible
        (beginsComment_of_ne noSlash _) noDirective ?_ nofun
      rw [read, Cursor.readingQuotation, String.ofList_toList]
      rfl
    refine ⟨[⟨stringLexeme text, Position.ofOffset offset⟩], after, rfl, ?_⟩
    simpa [Nat.add_comm] using scans

theorem Spells.escaped (hasEscapes : target.hasEscapes = true) (text : String) :
    Spells target (escapedLiteral text.toList) [stringLexeme text] := by
  refine .quotation (.inl rfl) fun rest offset => ?_
  have long (text : List Char) : text.length ≤ (text.flatMap escapeChar).length := by
    induction text with
    | nil => exact Nat.le_refl 0
    | cons c text induction =>
      have isSpelled : 0 < (escapeChar c).length := by
        unfold escapeChar
        repeat' split
        all_goals exact Nat.succ_pos _
      simp only [List.flatMap_cons, List.length_append, List.length_cons]
      omega
  let inner := text.toList.flatMap escapeChar ++ '"' :: rest
  have units :
      inner.length + 1 = inner.length - text.toList.length + 1 + text.toList.length := by
    have := long text.toList
    simp only [inner, List.length_append]
    omega
  obtain ⟨after, read⟩ :=
    readQuoted?_escaped (inner.length - text.toList.length) text.toList rest (offset + 1)
  refine ⟨after, ?_⟩
  have quoted : Cursor.readToken? target ⟨'"' :: inner, offset⟩ =
      Cursor.readQuotedString? ⟨'"' :: inner, offset⟩ := by
    rw [Cursor.readToken?]
    dsimp only
    rw [hasEscapes]
    rfl
  have opens : Cursor.step? ⟨'"' :: inner, offset⟩ 1 = some ⟨inner, offset + 1⟩ :=
    Cursor.step?_one rfl inner offset
  refine quoted.trans ?_
  rw [Cursor.readQuotedString?, opens]
  dsimp only [Option.bind_eq_bind, Option.bind_some]
  rw [units, read]
  rfl

theorem Spells.verbatim (noEscapes : target.hasEscapes = false)
    (isQuote : quote = '"' ∨ quote = '\'') (absent : quote ∉ text.toList) :
    Spells target (quote :: (text.toList ++ [quote])) [stringLexeme text] := by
  refine .quotation isQuote fun rest offset => ?_
  obtain ⟨after, read⟩ := readVerbatim_closed absent rest (offset + quote.utf8Size)
  refine ⟨after, ?_⟩
  have quoted (inner : List Char) : Cursor.readToken? target ⟨quote :: inner, offset⟩ =
      some (Cursor.readVerbatimString ⟨quote :: inner, offset⟩) := by
    rw [Cursor.readToken?]
    dsimp only
    rw [noEscapes]
    rcases isQuote with rfl | rfl <;> rfl
  rw [quoted, Cursor.readVerbatimString]
  dsimp only
  rw [read]

def sumWords (pieces : List String) : List Lexeme :=
  (pieces.map stringLexeme).intersperse (.mark .plus)

theorem chainedPieces_append {piece : List Char} (absent : '"' ∉ piece)
    (rest : List Char) : chainedPieces (piece ++ rest) = piece ++ chainedPieces rest := by
  induction piece with
  | nil => rfl
  | cons c piece induction =>
    obtain ⟨other, behind⟩ := not_or.mp (List.mem_cons.not.mp absent)
    rw [List.cons_append, chainedPieces, if_neg (Ne.symm other), induction behind]
    rfl

theorem isMark_plus : IsMark target ['+'] .plus :=
  isMark_of_operator? (by decide) (fun _ => rfl) fun _ => rfl

theorem Spells.chained (noEscapes : target.hasEscapes = false) (text : List Char) :
    ∃ first others, (first :: others).flatMap String.toList = text ∧
      Spells target ('"' :: chainedPieces text) (sumWords (first :: others)) := by
  induction size : text.length using Nat.strongRecOn generalizing text with
  | ind _ induction =>
  by_cases quoted : '"' ∈ text
  · obtain ⟨piece, rest, rfl, absent⟩ := List.eq_append_cons_of_mem quoted
    obtain ⟨first, others, whole, spells⟩ :=
      induction rest.length (by rw [← size]; simp; omega) rest rfl
    refine ⟨String.ofList piece, "\"" :: first :: others, by simp [← whole], ?_⟩
    have plain : Spells target _ [stringLexeme (String.ofList piece)] :=
      .verbatim noEscapes (.inl rfl) (by simpa using absent)
    have quote : Spells target _ [stringLexeme "\""] :=
      .verbatim noEscapes (.inr rfl) (by decide)
    have sum := plain.between isMark_plus (quote.between isMark_plus spells)
    rw [chainedPieces_append absent, chainedPieces, if_pos rfl]
    simpa [sumWords] using sum
  · have plain : Spells target _ [stringLexeme (String.ofList text)] :=
      .verbatim noEscapes (.inl rfl) (by simpa using quoted)
    have all := chainedPieces_append quoted []
    rw [List.append_nil] at all
    refine ⟨String.ofList text, [], by simp, ?_⟩
    rw [all]
    simpa [sumWords, chainedPieces] using plain

/-- A literal is one word with escapes, or where one of the two quotes does not occur. -/
theorem Spells.literal
    (simple : target.hasEscapes = true ∨ '"' ∉ text.toList ∨ '\'' ∉ text.toList) :
    Spells target (Text.literal target.hasEscapes text).toList [stringLexeme text] := by
  rw [Text.literal, String.toList_ofList]
  cases escapes : target.hasEscapes with
  | true => exact .escaped escapes text
  | false =>
    rw [if_neg (by decide), plainLiteral]
    split
    · next absent => exact .verbatim escapes (.inl rfl) (by simpa using absent)
    · next present =>
        have absent : '\'' ∉ text.toList := by
          rcases simple with always | absent | absent
          · rw [escapes] at always
            cases always
          · exact absurd (by simpa using absent) present
          · exact absent
        rw [if_pos (by simpa using absent)]
        exact .verbatim escapes (.inr rfl) absent

/-- With both quotes and without escapes, a literal is a sum in parentheses. -/
theorem Spells.literal_sum (noEscapes : target.hasEscapes = false)
    (double : '"' ∈ text.toList) (single : '\'' ∈ text.toList) :
    ∃ first others, (first :: others).flatMap String.toList = text.toList ∧
      Spells target (Text.literal target.hasEscapes text).toList
        (.mark .parenOpen :: sumWords (first :: others) ++ [.mark .parenClose]) := by
  obtain ⟨first, others, whole, spells⟩ := Spells.chained noEscapes text.toList
  refine ⟨first, others, whole, ?_⟩
  rw [Text.literal, String.toList_ofList, noEscapes, if_neg (by decide), plainLiteral,
    if_neg (by simpa using double), if_neg (by simpa using single)]
  exact spells.paren

/-- A written literal reads back.  With escapes, or where one of the two quotes does not
occur, it is scanned into the string alone; otherwise into a sum of strings in parentheses
that make up the text. -/
theorem literal_reads_back (target : Target) (macros : MacroTable) (text : String) :
    (target.hasEscapes = true ∨ '"' ∉ text.toList ∨ '\'' ∉ text.toList →
      ∃ pos last, scan target macros (literal target.hasEscapes text) =
        ⟨[⟨stringLexeme text, pos⟩, ⟨.eof, last⟩], [], macros⟩) ∧
    (target.hasEscapes = false → '"' ∈ text.toList → '\'' ∈ text.toList →
      ∃ first others tokens last, String.join (first :: others) = text ∧
        tokens.map (·.lexeme) =
          .mark .parenOpen :: sumWords (first :: others) ++ [.mark .parenClose] ∧
        scan target macros (literal target.hasEscapes text) =
          ⟨tokens ++ [⟨.eof, last⟩], [], macros⟩) := by
  constructor
  · intro simple
    obtain ⟨tokens, last, spelled, scans⟩ := (Spells.literal simple).scan macros
    obtain ⟨token, rfl, isString⟩ := List.map_eq_singleton_iff.mp spelled
    refine ⟨token.pos, last, ?_⟩
    rw [scans, ← isString]
    rfl
  · intro noEscapes double single
    obtain ⟨first, others, whole, spells⟩ := Spells.literal_sum noEscapes double single
    obtain ⟨tokens, last, spelled, scans⟩ := spells.scan macros
    have joined := String.toList_inj.mp (String.toList_join.trans whole)
    exact ⟨first, others, tokens, last, joined, spelled, scans⟩

/-- Both quotes and a character that is written by its number. -/
theorem bothQuotes_read_back :
    let text := "\"'\x01A"
    let old := Target.ofGeneration .gms1
    (∃ pos last, scan default {} (literal (Target.hasEscapes default) text) =
      ⟨[⟨stringLexeme text, pos⟩, ⟨.eof, last⟩], [], {}⟩) ∧
    ∃ first others tokens last, String.join (first :: others) = text ∧
      tokens.map (·.lexeme) =
        .mark .parenOpen :: sumWords (first :: others) ++ [.mark .parenClose] ∧
      scan old {} (literal old.hasEscapes text) = ⟨tokens ++ [⟨.eof, last⟩], [], {}⟩ := by
  intro text old
  exact ⟨(literal_reads_back default {} text).1 (.inl rfl),
    (literal_reads_back old {} text).2 rfl (by decide) (by decide)⟩

end GameScript.Token
