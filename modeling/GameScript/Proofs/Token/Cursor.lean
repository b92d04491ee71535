import GameScript.Token.Scanner
import Mathlib.Algebra.Ring.Nat
import Mathlib.Data.List.TakeDrop

/-! Cursors pass whole characters.

A cursor moves by characters or by a number of bytes, which may end inside a character.
Nothing that reads from a cursor does that: it leaves the cursor behind some characters of
the text, with an offset that counts their bytes.  Each token and each directive takes at
least one. -/

namespace GameScript.Token

open Builtin Number Text

@[simp] theorem byteLength_nil : byteLength [] = 0 := rfl

@[simp] theorem byteLength_cons (c : Char) (text : List Char) :
    byteLength (c :: text) = c.utf8Size + byteLength text := rfl

@[simp] theorem byteLength_append (text others : List Char) :
    byteLength (text ++ others) = byteLength text + byteLength others := by
  induction text with
  | nil => simp
  | cons c text induction => simp [induction, Nat.add_assoc]

theorem byteLength_eq_utf8ByteSize (text : List Char) :
    byteLength text = (String.ofList text).utf8ByteSize := by
  induction text with
  | nil => rfl
  | cons c text induction =>
    have cut : String.ofList (c :: text) = String.singleton c ++ String.ofList text := by
      rw [String.singleton_eq_ofList, ← String.ofList_append]
      rfl
    rw [cut, String.utf8ByteSize_append, String.utf8ByteSize_singleton, byteLength_cons,
      induction]

theorem skipBytes?_append (taken rest : List Char) :
    skipBytes? (byteLength taken) (taken ++ rest) = some rest := by
  induction taken with
  | nil => simp [skipBytes?]
  | cons c taken induction =>
    obtain ⟨fewer, size⟩ : ∃ fewer, c.utf8Size + byteLength taken = fewer + 1 :=
      ⟨c.utf8Size + byteLength taken - 1, by have := c.utf8Size_pos; omega⟩
    rw [byteLength_cons, size, List.cons_append, skipBytes?, if_pos (by omega)]
    rw [← size, Nat.add_sub_cancel_left, induction]

theorem skipBytes?_eq_some {bytes : Nat} {text rest : List Char}
    (skips : skipBytes? bytes text = some rest) :
    ∃ taken, text = taken ++ rest ∧ byteLength taken = bytes := by
  fun_induction skipBytes? bytes text
  case case1 text => exact ⟨[], Option.some.inj skips, rfl⟩
  case case2 => cases skips
  case case3 bytes c text fits induction =>
    obtain ⟨taken, cut, size⟩ := induction skips
    refine ⟨c :: taken, congrArg (c :: ·) cut, ?_⟩
    rw [byteLength_cons, size]
    omega
  case case4 => cases skips

namespace Cursor

def Reaches (cursor later : Cursor) : Prop :=
  ∃ taken, cursor.rest = taken ++ later.rest ∧
    later.offset = cursor.offset + byteLength taken

/-- Passing one or more whole characters leads from one cursor to the other. -/
def Passes (cursor later : Cursor) : Prop :=
  cursor.Reaches later ∧ cursor.offset < later.offset

variable {cursor later last : Cursor} {c : Char} {rest : List Char} {offset : Nat}

theorem Reaches.refl (cursor : Cursor) : cursor.Reaches cursor := ⟨[], rfl, rfl⟩

theorem Reaches.trans (first : cursor.Reaches later) (second : later.Reaches last) :
    cursor.Reaches last := by
  obtain ⟨taken, before, offset⟩ := first
  obtain ⟨more, after, offset'⟩ := second
  refine ⟨taken ++ more, ?_, ?_⟩
  · rw [before, after, List.append_assoc]
  · rw [offset', offset, byteLength_append, Nat.add_assoc]

theorem Reaches.offset_le (reaches : cursor.Reaches later) :
    cursor.offset ≤ later.offset := by
  obtain ⟨taken, -, offset⟩ := reaches
  omega

theorem Reaches.length_le (reaches : cursor.Reaches later) :
    later.rest.length ≤ cursor.rest.length := by
  obtain ⟨taken, before, -⟩ := reaches
  simp [before]

theorem Reaches.end_eq (reaches : cursor.Reaches later) :
    later.offset + byteLength later.rest = cursor.offset + byteLength cursor.rest := by
  obtain ⟨taken, before, offset⟩ := reaches
  rw [before, offset, byteLength_append, Nat.add_assoc]

theorem Reaches.step (reaches : Reaches ⟨rest, offset + c.utf8Size⟩ later) :
    Passes ⟨c :: rest, offset⟩ later := by
  obtain ⟨taken, before, after⟩ := reaches
  refine ⟨⟨c :: taken, congrArg (c :: ·) before, ?_⟩, ?_⟩
  · simpa [Nat.add_assoc] using after
  · have := c.utf8Size_pos
    simp only at after ⊢
    omega

theorem Passes.trans_reaches (first : cursor.Passes later) (second : later.Reaches last) :
    cursor.Passes last :=
  ⟨first.1.trans second, Nat.lt_of_lt_of_le first.2 second.offset_le⟩

theorem Reaches.trans_passes (first : cursor.Reaches later) (second : later.Passes last) :
    cursor.Passes last :=
  ⟨first.trans second.1, Nat.lt_of_le_of_lt first.offset_le second.2⟩

theorem Passes.length_lt (passes : cursor.Passes later) :
    later.rest.length < cursor.rest.length := by
  obtain ⟨⟨taken, before, after⟩, further⟩ := passes
  cases taken with
  | nil => exact absurd (after ▸ further) (Nat.lt_irrefl _)
  | cons c taken =>
    rw [before, List.length_append, List.length_cons]
    omega

theorem reaches_after {taken : List Char} (cut : cursor.rest = taken ++ rest) :
    cursor.Reaches (cursor.after taken rest) :=
  ⟨taken, cut, rfl⟩

theorem cut_reaches (cursor : Cursor) (p : Char → Bool) :
    cursor.Reaches (cursor.cut p).2 := by
  rw [cut]
  refine reaches_after ?_
  rw [List.span_eq_takeWhile_dropWhile]
  exact List.takeWhile_append_dropWhile.symm

theorem next_reaches (cursor : Cursor) : cursor.Reaches cursor.next :=
  reaches_after (List.take_append_drop 1 cursor.rest).symm

theorem next_cons (c : Char) (rest : List Char) (offset : Nat) :
    next ⟨c :: rest, offset⟩ = ⟨rest, offset + c.utf8Size⟩ := rfl

theorem cut_passes {p : Char → Bool} (first : p c = true) (rest : List Char)
    (offset : Nat) : Passes ⟨c :: rest, offset⟩ (cut ⟨c :: rest, offset⟩ p).2 := by
  refine ⟨cut_reaches _ _, ?_⟩
  have := c.utf8Size_pos
  simp [cut, after, List.span_eq_takeWhile_dropWhile, first]
  omega

/-- A step of so many bytes is made if it ends at a boundary of the text. -/
theorem step?_eq (taken : List Char) {bytes : Nat} (size : byteLength taken = bytes)
    (rest : List Char) (offset : Nat) :
    step? ⟨taken ++ rest, offset⟩ bytes = some ⟨rest, offset + bytes⟩ := by
  rw [step?, ← size, skipBytes?_append]
  rfl

theorem step?_reaches {bytes : Nat} (steps : cursor.step? bytes = some later) :
    cursor.Reaches later ∧ later.offset = cursor.offset + bytes := by
  obtain ⟨rest, skips, rfl⟩ := Option.map_eq_some_iff.mp steps
  obtain ⟨taken, cut, size⟩ := skipBytes?_eq_some skips
  exact ⟨⟨taken, cut, by rw [size]⟩, rfl⟩

theorem step?_isSome_iff (cursor : Cursor) (bytes : Nat) :
    (cursor.step? bytes).isSome = true ↔
      (⟨bytes⟩ : String.Pos.Raw).IsValid (String.ofList cursor.rest) := by
  rw [step?, Option.isSome_map, Option.isSome_iff_exists,
    String.Pos.Raw.isValid_iff_exists_append]
  constructor
  · rintro ⟨rest, skips⟩
    obtain ⟨taken, cut, size⟩ := skipBytes?_eq_some skips
    refine ⟨String.ofList taken, String.ofList rest, ?_, ?_⟩
    · rw [cut, String.ofList_append]
    · rw [← size, byteLength_eq_utf8ByteSize]
      rfl
  · rintro ⟨taken, rest, cut, size⟩
    have split : cursor.rest = taken.toList ++ rest.toList := by
      rw [← String.toList_append, ← cut, String.toList_ofList]
    have bytes_eq : bytes = byteLength taken.toList := by
      rw [byteLength_eq_utf8ByteSize, String.ofList_toList]
      exact congrArg String.Pos.Raw.byteIdx size
    exact ⟨rest.toList, by rw [split, bytes_eq, skipBytes?_append]⟩

/-- One byte is one character of the kind that has one byte. -/
theorem step?_one (size : c.utf8Size = 1) (rest : List Char) (offset : Nat) :
    step? ⟨c :: rest, offset⟩ 1 = some ⟨rest, offset + c.utf8Size⟩ := by
  rw [size]
  exact step?_eq [c] (by simp [size]) rest offset

end Cursor

def Yields {α : Type} (result : Option α) (property : α → Prop) : Prop :=
  ∃ value, result = some value ∧ property value

namespace Yields

variable {α β : Type} {result : Option α} {property : α → Prop}

theorem some {value : α} (holds : property value) : Yields (.some value) property :=
  ⟨value, rfl, holds⟩

theorem mono (yields : Yields result property) {weaker : α → Prop}
    (implies : ∀ value, property value → weaker value) : Yields result weaker := by
  obtain ⟨value, found, holds⟩ := yields
  exact ⟨value, found, implies value holds⟩

theorem bind (yields : Yields result property) {next : α → Option β} {later : β → Prop}
    (continues : ∀ value, property value → Yields (next value) later) :
    Yields (result >>= next) later := by
  obtain ⟨value, rfl, holds⟩ := yields
  exact continues value holds

end Yields

theorem commentLength_splits (rest : List Char) :
    ∃ taken behind, rest = taken ++ behind ∧ byteLength taken = commentLength rest := by
  fun_induction commentLength rest
  case case1 => exact ⟨[], [], rfl, rfl⟩
  case case2 rest => exact ⟨['*', '/'], rest, rfl, rfl⟩
  case case3 c rest _ further =>
    obtain ⟨taken, behind, split, size⟩ := further
    exact ⟨c :: taken, behind, congrArg (c :: ·) split, by simp [size]⟩

theorem skipComments?_reaches (fuel : Nat) (cursor : Cursor) :
    Yields (skipComments? fuel cursor) cursor.Reaches := by
  induction fuel generalizing cursor with
  | zero => exact .some (.refl _)
  | succ fuel induction =>
    obtain ⟨text, offset⟩ := cursor
    rw [skipComments?]
    dsimp only
    split
    · next rest =>
        have opens :
            Cursor.step? ⟨'/' :: '/' :: rest, offset⟩ 2 = some ⟨rest, offset + 2⟩ :=
          Cursor.step?_eq ['/', '/'] rfl rest offset
        rw [opens]
        exact (induction _).mono fun later reaches =>
          (((Cursor.step?_reaches opens).1.trans
          (Cursor.cut_reaches _ _)).trans (Cursor.cut_reaches _ _)).trans reaches
    · next rest =>
        have opens :
            Cursor.step? ⟨'/' :: '*' :: rest, offset⟩ 2 = some ⟨rest, offset + 2⟩ :=
          Cursor.step?_eq ['/', '*'] rfl rest offset
        obtain ⟨taken, behind, split, size⟩ := commentLength_splits rest
        have closes := Cursor.step?_eq taken size behind (offset + 2)
        rw [← split] at closes
        rw [opens]
        dsimp only [Option.bind_eq_bind, Option.bind_some]
        rw [closes]
        exact (induction _).mono fun later reaches =>
          (((Cursor.step?_reaches opens).1.trans
          (Cursor.step?_reaches closes).1).trans (Cursor.cut_reaches _ _)).trans reaches
    · exact .some (.refl _)

theorem Cursor.skipGap?_reaches (cursor : Cursor) :
    Yields cursor.skipGap? cursor.Reaches :=
  (skipComments?_reaches _ _).mono fun _ reaches =>
    (cut_reaches cursor isBlank).trans reaches

/-- What is read after a cursor as a string ends behind it, and is no reason to stop. -/
structure Quotation.Follows (cursor : Cursor) (quotation : Quotation) : Prop where
  reaches : cursor.Reaches quotation.after
  mild : ∀ fault ∈ quotation.faults, fault.isHalting = false

namespace Quotation.Follows

variable {cursor : Cursor} {quotation : Quotation} {c : Char}
  {rest : List Char} {offset : Nat}

theorem step (follows : quotation.Follows ⟨rest, offset + c.utf8Size⟩) :
    quotation.Follows ⟨c :: rest, offset⟩ :=
  ⟨follows.reaches.step.1, follows.mild⟩

theorem push (follows : quotation.Follows cursor) (c : Char) :
    (quotation.push c).Follows cursor :=
  ⟨follows.reaches, follows.mild⟩

theorem pushAll (follows : quotation.Follows cursor) (text : List Char) :
    (quotation.pushAll text).Follows cursor :=
  ⟨follows.reaches, follows.mild⟩

theorem blame (follows : quotation.Follows cursor) {faults : List LexFault}
    (mild : ∀ fault ∈ faults, fault.isHalting = false) :
    (quotation.blame faults).Follows cursor := by
  refine ⟨follows.reaches, fun fault member => ?_⟩
  obtain member | member := List.mem_append.mp member
  · exact mild fault member
  · exact follows.mild fault member

theorem closing (rest : List Char) (offset : Nat) :
    Quotation.Follows ⟨c :: rest, offset⟩ ⟨[], [], ⟨rest, offset + c.utf8Size⟩⟩ :=
  step ⟨.refl _, nofun⟩

theorem unclosed (text : List Char) (cursor : Cursor) (faults : List LexFault)
    (mild : ∀ fault ∈ faults, fault.isHalting = false) :
    Quotation.Follows cursor ⟨text, faults ++ [.unclosedString], cursor⟩ := by
  refine ⟨.refl _, fun fault member => ?_⟩
  obtain member | member := List.mem_append.mp member
  · exact mild fault member
  · cases List.mem_singleton.mp member
    rfl

end Quotation.Follows

theorem readVerbatim_follows (quote : Char) (rest : List Char) (offset : Nat) :
    (readVerbatim quote rest offset).Follows ⟨rest, offset⟩ := by
  fun_induction readVerbatim quote rest offset
  case case1 => exact .unclosed [] _ [] nofun
  case case2 => exact .closing _ _
  case case3 further => exact further.step.push _

theorem NumericEscape.finish_mild (escape : NumericEscape) (value read : Nat) :
    ∀ fault ∈ (escape.finish value read).2, fault.isHalting = false := by
  intro fault member
  have cases : fault = .unicodeRange ∨ fault = .hexEscape ∨ fault = .octalEscape := by
    cases escape <;> simp only [finish] at member <;> split at member <;>
      (try split at member) <;> simp_all
  rcases cases with rfl | rfl | rfl <;> rfl

theorem digitValue?_utf8Size {base digit : Nat} {c : Char}
    (found : digitValue? base c = some digit) : c.utf8Size = 1 := by
  rw [Char.utf8Size_eq_one_iff, UInt32.le_iff_toNat_le]
  have known := Option.isSome_of_eq_some found
  simp only [digitValue?, isDigit, Char.le_def, UInt32.le_iff_toNat_le] at known
  grind

theorem radixDigits?_reaches (base more value read : Nat) (cursor : Cursor) :
    Yields (radixDigits? base more value read cursor) fun found =>
      cursor.Reaches found.2.2 := by
  induction more generalizing value read cursor with
  | zero => exact .some (.refl _)
  | succ more induction =>
    obtain ⟨text, offset⟩ := cursor
    rw [radixDigits?]
    split
    · next digit found =>
        obtain ⟨c, first, isDigit⟩ := Option.bind_eq_some_iff.mp found
        obtain ⟨rest, rfl⟩ := List.head?_eq_some_iff.mp first
        rw [Cursor.step?_one (digitValue?_utf8Size isDigit)]
        exact (induction _ _ _).mono fun _ reaches => reaches.step.1
    · exact .some (.refl _)

theorem NumericEscape.read?_follows (escape : NumericEscape) (value : Nat)
    (cursor : Cursor) : Yields (escape.read? value cursor) (Quotation.Follows cursor) := by
  refine (radixDigits?_reaches _ _ _ _ _).bind fun found reaches => ?_
  exact .some ⟨reaches, escape.finish_mild found.1 found.2.1⟩

theorem readEscape?_follows (cursor : Cursor) :
    Yields (readEscape? cursor) (Quotation.Follows cursor) := by
  have onward {result : Option Quotation}
    (yields : Yields result (Quotation.Follows cursor.next)) :
      Yields result (Quotation.Follows cursor) :=
    yields.mono fun _ follows => ⟨cursor.next_reaches.trans follows.reaches, follows.mild⟩
  have plain (text : List Char) :
      Yields (some ⟨text, [], cursor.next⟩) (Quotation.Follows cursor) :=
    .some ⟨cursor.next_reaches, nofun⟩
  rw [readEscape?]
  split
  · exact plain []
  · exact plain []
  · exact onward (NumericEscape.read?_follows _ _ _)
  · exact onward (NumericEscape.read?_follows _ _ _)
  · split
    · exact onward (NumericEscape.read?_follows _ _ _)
    · exact plain _

theorem readQuoted?_follows (fuel : Nat) (cursor : Cursor) :
    Yields (readQuoted? fuel cursor) (Quotation.Follows cursor) := by
  have rawNewline : ∀ fault ∈ [LexFault.rawNewline], fault.isHalting = false := by
    simp [LexFault.isHalting]
  induction fuel generalizing cursor with
  | zero => exact .some (.unclosed [] cursor [] nofun)
  | succ fuel induction =>
    obtain ⟨text, offset⟩ := cursor
    rw [readQuoted?]
    dsimp only
    split
    · exact .some (.unclosed [] _ [] nofun)
    · rw [Cursor.step?_one rfl]
      exact .some (.closing _ _)
    · rw [Cursor.step?_one rfl]
      refine (readEscape?_follows _).bind fun escape opens => ?_
      refine (induction escape.after).bind fun quotation follows => .some ?_
      have behind : quotation.Follows _ :=
        ⟨opens.reaches.trans follows.reaches, follows.mild⟩
      exact (behind.step.pushAll _).blame opens.mild
    · rw [Cursor.step?_one rfl]
      exact (induction _).bind fun quotation follows =>
        .some (follows.step.blame rawNewline)
    · exact (induction _).bind fun quotation follows => .some (follows.step.push _)

namespace Cursor

/-- What is read at a cursor: a token behind which reading goes on, or one that is no
token, with the reason. -/
inductive Reads (cursor : Cursor) : Reading → Prop where
  | proper {site after : Cursor} {lexeme : Lexeme} {errors : List LexError}
      (reaches : cursor.Reaches site) (passes : site.Passes after)
      (noEnd : lexeme.kind ≠ .eof) (valid : lexeme.kind ≠ .invalid)
      (mild : ∀ error ∈ errors, error.fault.isHalting = false) :
      Reads cursor ⟨⟨lexeme, site.position⟩, errors, after⟩
  | halt {fault : LexFault} (halting : fault.isHalting = true) (after : Cursor) :
      Reads cursor ⟨⟨.invalid, cursor.position⟩, [⟨cursor.position, fault⟩], after⟩

variable {cursor after : Cursor} {c : Char} {rest : List Char} {offset : Nat}

theorem Reads.plain (passes : cursor.Passes after) {lexeme : Lexeme}
    (noEnd : lexeme.kind ≠ .eof) (valid : lexeme.kind ≠ .invalid) :
    cursor.Reads (cursor.reading lexeme after) :=
  .proper (.refl cursor) passes noEnd valid nofun

theorem Reads.scalar (passes : cursor.Passes after) (value : Scalar) :
    cursor.Reads (cursor.readingScalar value after) :=
  .plain passes nofun nofun

theorem Reads.quotation {site : Cursor} (reaches : cursor.Reaches site)
    {quotation : Quotation} (passes : site.Passes quotation.after)
    (mild : ∀ fault ∈ quotation.faults, fault.isHalting = false) :
    cursor.Reads (site.readingQuotation quotation) := by
  refine .proper reaches passes nofun nofun fun error member => ?_
  obtain ⟨fault, known, rfl⟩ := List.mem_map.mp member
  exact mild fault known

theorem readName_reads (start : isNameStart c = true) :
    Reads ⟨c :: rest, offset⟩ (readName ⟨c :: rest, offset⟩) := by
  have isPart : isNamePart c = true := by simp [isNamePart, start]
  have passes := cut_passes isPart rest offset
  rw [readName]
  dsimp only
  split
  · exact .plain passes nofun nofun
  · exact .plain passes nofun nofun

theorem readDecimal_reads (start : (isDigit c || c == '.') = true) :
    Reads ⟨c :: rest, offset⟩ (readDecimal ⟨c :: rest, offset⟩) := by
  have passes := cut_passes (p := fun c => isDigit c || c == '.') start rest offset
  rw [readDecimal]
  dsimp only
  split
  · exact .scalar passes _
  · exact .halt rfl _

theorem passX?_reaches (cursor : Cursor) : Yields cursor.passX? cursor.Reaches := by
  obtain ⟨text, offset⟩ := cursor
  rw [passX?]
  split
  · next isX =>
      obtain ⟨rest, rfl⟩ := List.head?_eq_some_iff.mp isX
      rw [step?_one rfl]
      exact .some (next_reaches _)
  · exact .some (.refl _)

theorem readHex?_reads (size : c.utf8Size = 1) :
    Yields (readHex? ⟨c :: rest, offset⟩) (Reads ⟨c :: rest, offset⟩) := by
  rw [readHex?, step?_one size]
  refine (passX?_reaches _).bind fun start reaches => ?_
  dsimp only
  split
  · exact .some (.scalar (reaches.trans (cut_reaches _ _)).step _)
  · exact .some (.halt rfl _)

/-- Operators are written in characters of one byte. -/
theorem operator?_spelling {text : List Char} {mark : Mark} {width : Nat}
    (found : operator? text = some (mark, width)) :
    ∃ spelling rest, text = spelling ++ rest ∧ spelling.length = width ∧
      byteLength spelling = width ∧ 0 < width := by
  unfold operator? at found
  split at found <;> cases found <;> first
    | exact ⟨[_], _, rfl, rfl, rfl, by decide⟩
    | exact ⟨[_, _], _, rfl, rfl, rfl, by decide⟩
    | exact ⟨[_, _, _], _, rfl, rfl, rfl, by decide⟩

theorem readOperator?_reads :
    Yields (readOperator? ⟨c :: rest, offset⟩) (Reads ⟨c :: rest, offset⟩) := by
  rw [readOperator?]
  split
  · next mark width found =>
      obtain ⟨spelling, behind, split, -, size, hasSize⟩ := operator?_spelling found
      have steps := step?_eq spelling size behind offset
      rw [← split] at steps
      rw [steps]
      refine .some (.plain ⟨(step?_reaches steps).1, ?_⟩ nofun nofun)
      exact Nat.lt_add_of_pos_right hasSize
  · exact .some (.halt rfl _)

theorem readVerbatimString_reads {site : Cursor}
    (reaches : site.Reaches ⟨c :: rest, offset⟩) :
    site.Reads (readVerbatimString ⟨c :: rest, offset⟩) := by
  have follows := readVerbatim_follows c rest (offset + c.utf8Size)
  exact .quotation reaches follows.reaches.step follows.mild

theorem readQuotedString?_reads :
    Yields (readQuotedString? ⟨'"' :: rest, offset⟩) (Reads ⟨'"' :: rest, offset⟩) := by
  rw [readQuotedString?, step?_one rfl]
  refine (readQuoted?_follows _ _).bind fun quotation follows => .some ?_
  exact .quotation (.refl _) follows.reaches.step follows.mild

theorem readToken?_reads (target : Target) (c : Char) (rest : List Char) (offset : Nat) :
    Yields (readToken? target ⟨c :: rest, offset⟩) (Reads ⟨c :: rest, offset⟩) := by
  rw [readToken?]
  dsimp only
  split
  · next start => exact .some (readName_reads start)
  split
  · next digit =>
      split
      · next zero =>
          simp only [Bool.and_eq_true, beq_iff_eq] at zero
          exact readHex?_reads (zero.1 ▸ rfl)
      · exact .some (readDecimal_reads (by simp [digit]))
  split
  · next dollar => exact readHex?_reads (beq_iff_eq.mp dollar ▸ rfl)
  split
  · next point => exact .some (readDecimal_reads (by simp_all))
  split
  · split
    · next verbatim =>
        obtain ⟨at_, quoted⟩ := Bool.and_eq_true_iff.mp verbatim
        cases beq_iff_eq.mp at_
        cases rest with
        | nil => cases quoted
        | cons quote rest =>
          rw [step?_one rfl]
          exact .some (readVerbatimString_reads (next_reaches _))
    split
    · next quote =>
        cases beq_iff_eq.mp quote
        exact readQuotedString?_reads
    · exact readOperator?_reads
  split
  · exact .some (readVerbatimString_reads (.refl _))
  · exact readOperator?_reads

end Cursor

theorem continuation?_splits {rest : List Char} {bytes : Nat}
    (continues : continuation? rest = some bytes) :
    ∃ taken behind, rest = taken ++ behind ∧ byteLength taken = bytes ∧ '\n' ∈ taken := by
  simp only [continuation?, List.span_eq_takeWhile_dropWhile] at continues
  split at continues
  · next feed =>
      cases continues
      obtain ⟨behind, split⟩ := List.head?_eq_some_iff.mp feed
      refine ⟨rest.takeWhile (fun c => isBlank c && c != '\n') ++ ['\n'], behind,
        ?_, ?_, by simp⟩
      · rw [List.append_assoc, List.singleton_append, ← split,
          List.takeWhile_append_dropWhile]
      · rw [byteLength_append]
        rfl
  · cases continues

/-- The content of a macro is one line, and no longer than the text from it on. -/
structure IsContent (cursor : Cursor) (content : List Char) (after : Cursor) : Prop where
  reaches : cursor.Reaches after
  short : content.length ≤ cursor.rest.length
  oneLine : '\n' ∉ content
  whole : '\n' ∉ cursor.rest → after.rest = []

theorem readContent?_isContent {fuel : Nat} (cursor : Cursor)
    (enough : cursor.rest.length < fuel) :
    Yields (readContent? fuel cursor) fun read => IsContent cursor read.1 read.2 := by
  induction fuel generalizing cursor with
  | zero => exact absurd enough (Nat.not_lt_zero _)
  | succ fuel induction =>
    obtain ⟨text, offset⟩ := cursor
    rw [readContent?]
    dsimp only at enough ⊢
    split
    · exact .some ⟨.refl _, Nat.zero_le _, nofun, fun _ => rfl⟩
    · exact .some
        ⟨.refl _, Nat.zero_le _, nofun, fun noFeed => absurd List.mem_cons_self noFeed⟩
    · next c rest noFeed =>
        split
        · next bytes continues =>
            have backslash : c = '\\' := by
              by_contra other
              simp [other] at continues
            subst backslash
            obtain ⟨taken, behind, rfl, size, feed⟩ :=
              continuation?_splits (by simpa using continues)
            have steps : Cursor.step? ⟨'\\' :: (taken ++ behind), offset⟩ (1 + bytes) =
                some ⟨behind, offset + (1 + bytes)⟩ :=
              Cursor.step?_eq ('\\' :: taken) (by simp [size]; rfl) behind offset
            rw [steps]
            have shorter : behind.length < fuel := by
              simp only [List.length_cons, List.length_append] at enough
              omega
            refine (induction ⟨behind, _⟩ shorter).mono fun read is => ?_
            refine ⟨(Cursor.step?_reaches steps).1.trans is.reaches, ?_, is.oneLine, ?_⟩
            · have := is.short
              simp only [List.length_cons, List.length_append] at this ⊢
              omega
            · intro noFeed
              exact absurd (by simp [feed]) noFeed
        · refine (induction ⟨rest, _⟩ (Nat.lt_of_succ_lt_succ enough)).bind
            fun read is => .some ?_
          refine ⟨is.reaches.step.1, Nat.succ_le_succ is.short, ?_, fun absent => ?_⟩
          · simpa [Ne.symm noFeed] using is.oneLine
          · exact is.whole fun member => absent (List.mem_cons_of_mem _ member)

inductive Event.Follows (cursor : Cursor) : Event → Prop where
  | finish {site : Cursor} (reaches : cursor.Reaches site) (atEnd : site.rest = []) :
      Follows cursor (.finish site.position)
  | halt {site : Cursor} {fault : LexFault} (reaches : cursor.Reaches site)
      (halting : fault.isHalting = true) :
      Follows cursor (.halt ⟨.invalid, site.position⟩ [⟨site.position, fault⟩])
  | token {site after : Cursor} {lexeme : Lexeme} {errors : List LexError}
      (reaches : cursor.Reaches site) (passes : site.Passes after)
      (noEnd : lexeme.kind ≠ .eof) (valid : lexeme.kind ≠ .invalid)
      (mild : ∀ error ∈ errors, error.fault.isHalting = false) :
      Follows cursor (.token ⟨lexeme, site.position⟩ errors after)
  | pass {after : Cursor} {errors : List LexError} (passes : cursor.Passes after)
      (mild : ∀ error ∈ errors, error.fault.isHalting = false) :
      Follows cursor (.pass errors after)
  | define {after body : Cursor} {content : List Char} (passes : cursor.Passes body)
      (isContent : IsContent body content after) (pos : Position) (name : String) :
      Follows cursor (.define pos name content body.offset after)

namespace Cursor

theorem readDirective?_follows (d : Char) (rest : List Char) (offset : Nat) :
    Yields (readDirective? ⟨'#' :: d :: rest, offset⟩)
      (Event.Follows ⟨'#' :: d :: rest, offset⟩) := by
  have first : Passes ⟨'#' :: d :: rest, offset⟩ ⟨d :: rest, offset + Char.utf8Size '#'⟩ :=
    (Reaches.refl _).step
  have word :=
    (first.trans_reaches (next_reaches _)).trans_reaches
      (cut_reaches _ fun c => !isBlank c)
  rw [readDirective?, step?_one rfl]
  dsimp only [Option.bind_eq_bind, Option.bind_some]
  split
  · refine (readContent?_isContent _ (Nat.lt_succ_self _)).bind fun read is => .some ?_
    exact .define (((word.trans_reaches (next_reaches _)).trans_reaches
      (cut_reaches _ _)).trans_reaches (next_reaches _)) is _ _
  split
  · exact .some (.pass (word.trans_reaches (cut_reaches _ _)) nofun)
  split
  · exact .some (.token (.refl _) word nofun nofun nofun)
  · refine .some (.pass word fun error member => ?_)
    cases List.mem_singleton.mp member
    rfl

end Cursor

theorem Event.Follows.behind {cursor site : Cursor} {event : Event}
    (gap : cursor.Reaches site) (follows : event.Follows site) : event.Follows cursor := by
  cases follows with
  | finish reaches atEnd => exact .finish (gap.trans reaches) atEnd
  | halt reaches halting => exact .halt (gap.trans reaches) halting
  | token reaches passes noEnd valid mild =>
    exact .token (gap.trans reaches) passes noEnd valid mild
  | pass passes mild => exact .pass (gap.trans_passes passes) mild
  | define passes isContent pos name =>
    exact .define (gap.trans_passes passes) isContent pos name

/-- No step on the way to the next event, or in it, ends inside a character. -/
theorem Cursor.event?_follows (target : Target) (cursor : Cursor) :
    Yields (cursor.event? target) (Event.Follows cursor) := by
  refine cursor.skipGap?_reaches.bind fun site gap => ?_
  obtain ⟨text, offset⟩ := site
  dsimp only
  split
  · exact (readDirective?_follows _ _ _).mono fun _ follows => follows.behind gap
  · exact .some (.finish gap rfl)
  · next notDirective notEmpty =>
      cases text with
      | nil => exact absurd rfl notEmpty
      | cons c rest =>
        refine (readToken?_reads target c rest offset).bind fun reading reads => ?_
        cases reads with
        | proper reaches passes noEnd valid mild =>
          rw [if_neg valid]
          exact .some (.token (gap.trans reaches) passes noEnd valid mild)
        | halt halting after =>
          rw [if_pos rfl]
          exact .some (.halt gap halting)

theorem Cursor.event?_eq (target : Target) (cursor : Cursor) :
    cursor.event? target = some (cursor.event target) := by
  obtain ⟨next, found, -⟩ := cursor.event?_follows target
  rw [event, found]
  rfl

theorem Cursor.event_follows (target : Target) (cursor : Cursor) :
    (cursor.event target).Follows cursor := by
  obtain ⟨next, found, follows⟩ := cursor.event?_follows target
  rw [event, found]
  exact follows

theorem Cursor.follows_of_event {target : Target} {cursor : Cursor} {event : Event}
    (found : cursor.event target = event) : event.Follows cursor :=
  found ▸ cursor.event_follows target

end GameScript.Token
