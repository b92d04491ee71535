import GameScript.Position
import Mathlib.Algebra.Ring.Nat
import Mathlib.Data.List.Basic

/-! Lines and columns: a position is told, and told once, by the line it is on and its
distance from the start of that line. -/

namespace GameScript.LineMap

def bytes (text : String) : List UInt8 := text.toByteArray.data.toList

def lineFeed : UInt8 := 10

def feedsBefore (text : String) (position : Nat) : Nat :=
  ((bytes text).take position).count lineFeed

/-- The line on which a position lies starts at `start`. -/
structure StartsLine (text : String) (position start : Nat) : Prop where
  le : start ≤ position
  opens : start = 0 ∨ (bytes text)[start - 1]? = some lineFeed
  unbroken : ∀ between, start ≤ between → between < position →
    (bytes text)[between]? ≠ some lineFeed

theorem bytes_eq (text : String) :
    bytes text = text.toList.flatMap String.utf8EncodeChar := by
  rw [bytes, ← String.utf8Encode_toList, List.utf8Encode]
  simp

theorem length_bytes (text : String) : (bytes text).length = text.utf8ByteSize := by
  simp [bytes]

theorem lineFeed_mem_encode (c : Char) : lineFeed ∈ String.utf8EncodeChar c ↔
      c = '\n' := by
  have isFeed (n : Nat) : lineFeed = UInt8.ofNat n ↔ n % 256 = 10 := by
    rw [← UInt8.toNat_inj, UInt8.toNat_ofNat']
    exact eq_comm
  have isChar : c = '\n' ↔ c.val.toNat = 10 := by
    rw [← Char.toNat_inj]
    exact Iff.rfl
  rw [isChar]
  fun_cases String.utf8EncodeChar c <;>
    simp only [List.mem_cons, List.not_mem_nil, or_false, isFeed] <;> omega

theorem findIdxs_encode (c : Char) (offset : Nat) :
    (String.utf8EncodeChar c).findIdxs (· == lineFeed) offset = if c =
      '\n' then [offset] else [] := by
  split
  case isTrue feed =>
    subst feed
    rfl
  case isFalse other =>
    rw [List.findIdxs_eq_nil_iff]
    rintro byte found
    have differs : byte ≠ lineFeed := by
      rintro rfl
      exact other ((lineFeed_mem_encode c).mp found)
    simpa using differs

theorem startsAfter_eq (chars : List Char) (offset : Nat)
    (small : offset + (chars.flatMap String.utf8EncodeChar).length ≤ Position.limit) :
    startsAfter chars offset =
      ((chars.flatMap String.utf8EncodeChar).findIdxs (· == lineFeed) offset).map
      (· + 1) := by
  induction chars generalizing offset with
  | nil => rfl
  | cons c rest induction =>
    rw [List.flatMap_cons, List.length_append, String.length_utf8EncodeChar] at small
    rw [List.flatMap_cons, List.findIdxs_append, findIdxs_encode,
      String.length_utf8EncodeChar, startsAfter, induction _ (by omega)]
    split
    case isTrue feed =>
      subst feed
      have next : offset + '\n'.utf8Size = offset + 1 := rfl
      rw [Position.ofOffset, Nat.min_eq_left (by omega), next]
      rfl
    case isFalse => rfl

variable {text : String} {position : Nat}

theorem starts_ofText (small : text.utf8ByteSize ≤ Position.limit) :
    (ofText text).starts = 0 :: ((bytes text).findIdxs (· == lineFeed)).map (· + 1) := by
  rw [← length_bytes, bytes_eq] at small
  rw [ofText, startsAfter_eq _ 0 (by omega), bytes_eq]

/-- The starts up to a position, one for each line feed before it and one more, come before
the other starts. -/
theorem starts_split (small : text.utf8ByteSize ≤ Position.limit)
    (inside : position ≤ text.utf8ByteSize) :
    ∃ passed left : List Nat, (ofText text).starts = passed ++ left ∧
      passed.length = feedsBefore text position + 1 ∧
      (∀ start ∈ passed, start ≤ position) ∧
      ∀ start ∈ left, position < start := by
  have taken : ((bytes text).take position).length = position := by
    rw [List.length_take, length_bytes, Nat.min_eq_left inside]
  refine ⟨0 :: (((bytes text).take position).findIdxs (· == lineFeed)).map (· + 1),
    (((bytes text).drop position).findIdxs (· == lineFeed) position).map
    (· + 1), ?_, ?_, ?_, ?_⟩
  · rw [starts_ofText small, List.cons_append, ← List.map_append]
    conv_lhs =>
      rw [← List.take_append_drop position (bytes text), List.findIdxs_append, taken]
    rw [Nat.zero_add]
  · rw [List.length_cons, List.length_map, List.length_findIdxs, feedsBefore, List.count]
  · intro start found
    rcases List.mem_cons.mp found with rfl | later
    · exact Nat.zero_le _
    · obtain ⟨index, feed, rfl⟩ := List.mem_map.mp later
      have bound := List.lt_add_of_mem_findIdxs index feed
      rw [taken] at bound
      exact bound
  · intro start found
    obtain ⟨index, feed, rfl⟩ := List.mem_map.mp found
    exact Nat.lt_succ_of_le (List.ge_of_mem_findIdxs index feed)

theorem starts_increase (small : text.utf8ByteSize ≤ Position.limit) :
    (ofText text).starts.Pairwise (· < ·) := by
  rw [starts_ofText small, List.pairwise_cons]
  constructor
  · intro start found
    obtain ⟨index, -, rfl⟩ := List.mem_map.mp found
    exact Nat.succ_pos index
  · exact List.pairwise_findIdxs.map _ fun _ _ less => Nat.succ_lt_succ less

theorem mem_starts (small : text.utf8ByteSize ≤ Position.limit) {start : Nat} :
    start ∈ (ofText text).starts ↔ start = 0 ∨ ∃ index, start = index + 1 ∧
      (bytes text)[index]? = some lineFeed := by
  rw [starts_ofText small, List.mem_cons, List.mem_map]
  refine or_congr_right ⟨?_, ?_⟩
  · rintro ⟨index, found, rfl⟩
    obtain ⟨bound, feed⟩ := List.mem_findIdxs_iff_exists_getElem_pos.mp found
    refine ⟨index, rfl, ?_⟩
    rw [List.getElem?_eq_getElem bound, eq_of_beq feed]
  · rintro ⟨index, rfl, feed⟩
    obtain ⟨bound, feed⟩ := List.getElem?_eq_some_iff.mp feed
    exact ⟨index, List.mem_findIdxs_iff_exists_getElem_pos.mpr
      ⟨bound, by simp [feed]⟩, rfl⟩

theorem locate_eq {lines : LineMap} {passed left : List Nat} {start : Nat}
    {index : Nat} (split : lines.starts = passed ++ left)
    (last : passed.length = index + 1)
    (upTo : ∀ start ∈ passed, start ≤ position) (beyond : ∀ start ∈ left, position < start)
    (found : lines.starts[index]? = some start) :
    lines.locate position = (index + 1, position - start + 1) := by
  have reached (place : Nat) (low : place ≤ index) :
      lines.starts.toArray[place]?.any (· ≤ position) = true := by
    rw [List.getElem?_toArray, split, List.getElem?_append_left (by omega)]
    have bound : place < passed.length := by omega
    simpa [List.getElem?_eq_getElem bound] using upTo _ (List.getElem_mem bound)
  have missed (place : Nat) (high : index < place) :
      lines.starts.toArray[place]?.any (· ≤ position) = false := by
    rw [List.getElem?_toArray, split, List.getElem?_append_right (by omega)]
    cases later : left[place - passed.length]? with
    | none => rfl
    | some start => simpa using beyond start (List.mem_of_getElem? later)
  have halved : bisect (fun place => lines.starts.toArray[place]?.any (· ≤ position)) 0
      lines.starts.toArray.size = index := by
    refine bisect_eq 0 _ (Nat.zero_le _) ?_ (fun place _ => reached place)
      fun place high _ => missed place high
    rw [List.size_toArray, split, List.length_append]
    omega
  rw [← List.getElem?_toArray] at found
  simp only [locate, halved, reached index (Nat.le_refl index), if_true]
  rw [found, Option.getD_some]

/-- The search finds the line of a position, and the table its start. -/
theorem locate_ofText (small : text.utf8ByteSize ≤ Position.limit)
    (inside : position ≤ text.utf8ByteSize) :
    ∃ start, (ofText text).starts[feedsBefore text position]? = some start ∧
      StartsLine text position start ∧
      (ofText text).locate position =
      (feedsBefore text position + 1, position - start + 1) := by
  obtain ⟨passed, left, split, last, upTo, beyond⟩ := starts_split small inside
  have bound : feedsBefore text position < passed.length := by omega
  have found : (ofText text).starts[feedsBefore text position]? =
      some passed[feedsBefore text position] := by
    rw [split, List.getElem?_append_left bound, List.getElem?_eq_getElem bound]
  refine ⟨_, found, ⟨upTo _ (List.getElem_mem bound), ?_, ?_⟩,
    locate_eq split last upTo beyond found⟩
  · rcases (mem_starts small).mp
      (List.mem_of_getElem? found) with first | ⟨index, later, feed⟩
    · exact Or.inl first
    · rw [later]
      exact Or.inr feed
  · intro between low high feed
    have started : between + 1 ∈ passed := by
      have member := (mem_starts small).mpr (Or.inr ⟨between, rfl, feed⟩)
      rw [split, List.mem_append] at member
      exact member.resolve_right fun late => Nat.not_lt_of_le high (beyond _ late)
    obtain ⟨place, short, there⟩ := List.getElem_of_mem started
    have increase :=
      (split ▸ starts_increase small).sublist (List.sublist_append_left passed left)
    rcases Nat.lt_or_eq_of_le
      (by omega : place ≤ feedsBefore text position) with less | same
    · have earlier : passed[place] < passed[feedsBefore text position] :=
        List.pairwise_iff_getElem.mp increase place _ short bound less
      omega
    · subst same
      omega

theorem feedsBefore_mono (text : String) {first second : Nat} (le : first ≤ second) :
    feedsBefore text first ≤ feedsBefore text second :=
  (List.take_sublist_take_left le).count_le lineFeed

theorem locate_lt (small : text.utf8ByteSize ≤ Position.limit)
    {first second : Nat} (less : first < second) (inside : second ≤ text.utf8ByteSize) :
    Prod.Lex (· < ·) (· < ·) ((ofText text).locate first)
      ((ofText text).locate second) := by
  obtain ⟨start, found, starts, located⟩ :=
    locate_ofText small (by omega : first ≤ text.utf8ByteSize)
  obtain ⟨later, foundLater, startsLater, locatedLater⟩ := locate_ofText small inside
  rw [located, locatedLater, Prod.lex_def]
  rcases Nat.lt_or_eq_of_le (feedsBefore_mono text (Nat.le_of_lt less)) with fewer | same
  · exact Or.inl (Nat.succ_lt_succ fewer)
  · have sameStart : start = later := by
      rw [same, foundLater] at found
      exact (Option.some.inj found).symm
    have le := starts.le
    exact Or.inr ⟨congrArg (· + 1) same, by simp only [sameStart] at le ⊢; omega⟩

/-- The line of a position is one more than the number of line feeds before it, its column
is one more than the distance from the start that the table gives for the line, and later
positions have later lines and columns. -/
theorem locate_inverts_offsets (text : String) (small : text.utf8ByteSize < 2 ^ 32 - 1) :
    (∀ position ≤ text.utf8ByteSize, ∀ line column,
      (ofText text).locate position = (line, column) →
      line = feedsBefore text position + 1 ∧
        ∃ start : Nat, (ofText text).starts[line - 1]? = some start ∧
          StartsLine text position start ∧ column = position - start + 1 ∧
          start + column = position + 1) ∧
    (∀ first second, first < second → second ≤ text.utf8ByteSize →
      Prod.Lex (· < ·) (· < ·)
        ((ofText text).locate first) ((ofText text).locate second)) ∧
    ∀ first ≤ text.utf8ByteSize, ∀ second ≤ text.utf8ByteSize,
      (ofText text).locate first = (ofText text).locate second → first = second := by
  have small : text.utf8ByteSize ≤ Position.limit := Nat.le_of_lt small
  refine ⟨?_, fun first second less => locate_lt small less, ?_⟩
  · intro position inside line column located
    obtain ⟨start, found, starts, located'⟩ := locate_ofText small inside
    obtain ⟨rfl, rfl⟩ := Prod.mk.inj (located.symm.trans located')
    have le := starts.le
    exact ⟨rfl, start, found, starts, rfl, by omega⟩
  · intro first inside second inside' same
    have irreflexive (pair : Nat × Nat) : ¬ Prod.Lex (· < ·) (· < ·) pair pair := by
      rw [Prod.lex_def]
      omega
    rcases Nat.lt_trichotomy first second with less | equal | greater
    · exact absurd (same ▸ locate_lt small less inside') (irreflexive _)
    · exact equal
    · exact absurd (same ▸ locate_lt small greater inside) (irreflexive _)

/-- Between the ends of a text of four lines, the third of them empty. -/
theorem fourLines_inverted :
    let text := "a\nbc\n\nd"
    text.utf8ByteSize < 2 ^ 32 - 1 ∧ StartsLine text 3 2 ∧
    (ofText text).locate 3 = (2, 2) ∧
      Prod.Lex (· < ·) (· < ·) ((ofText text).locate 3) ((ofText text).locate 5) := by
  intro text
  have small : text.utf8ByteSize < 2 ^ 32 - 1 := by decide
  obtain ⟨located, increases, -⟩ := locate_inverts_offsets text small
  obtain ⟨isSecond, start, found, starts, column, -⟩ :=
    located 3 (by decide) _ _ (Prod.eta _).symm
  replace isSecond : ((ofText text).locate 3).1 = 2 := isSecond.trans (by decide)
  rw [isSecond] at found
  obtain rfl : start = 2 := Option.some.inj (found.symm.trans (by decide))
  have isSecondByte : ((ofText text).locate 3).2 = 2 := column
  exact ⟨small, starts, Prod.ext isSecond isSecondByte,
    increases 3 5 (by decide) (by decide)⟩

end GameScript.LineMap
