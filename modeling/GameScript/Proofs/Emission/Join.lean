import GameScript.Proofs.Emission.Piece

/-! Pieces put together from segments.

A construct joins the pieces of its parts.  The ways that lead from one part to
the start of another become distances; the ways of an enclosed loop are first
given labels of the construct around it. -/

namespace GameScript.Emission

open Bytecode

namespace Cell

def redirect (rename : Way → Way) (cell : Cell) : Cell :=
  match cell.link with
  | .leave way => { cell with link := .leave (rename way) }
  | .await way => { cell with link := .await (rename way) }
  | _ => cell

@[simp] theorem redirect_ins (rename : Way → Way) (cell : Cell) :
    (cell.redirect rename).ins = cell.ins := by
  unfold redirect
  split <;> rfl

@[simp] theorem redirect_symbol (rename : Way → Way) (cell : Cell) :
    (cell.redirect rename).symbol = cell.symbol := by
  unfold redirect
  split <;> rfl

@[simp] theorem redirect_opensBody (rename : Way → Way) (cell : Cell) :
    (cell.redirect rename).opensBody = cell.opensBody := by
  unfold redirect
  split <;> rfl

variable {rename : Way → Way} {cell : Cell} {way : Way}

theorem redirect_link_leave :
    (cell.redirect rename).link = .leave way ↔ ∃ old, cell.link = .leave old ∧
    rename old = way := by
  unfold redirect
  split
  case h_1 old link => simp [link]
  case h_2 old link => simp [link]
  case h_3 noLeave noAwait =>
      refine ⟨fun link => absurd link (noLeave way), ?_⟩
      rintro ⟨old, link, -⟩
      exact absurd link (noLeave old)

theorem redirect_link_await :
    (cell.redirect rename).link = .await way ↔ ∃ old, cell.link = .await old ∧
    rename old = way := by
  unfold redirect
  split
  case h_1 old link => simp [link]
  case h_2 old link => simp [link]
  case h_3 noLeave noAwait =>
      refine ⟨fun link => absurd link (noAwait way), ?_⟩
      rintro ⟨old, link, -⟩
      exact absurd link (noAwait old)

theorem takes_redirect :
    (cell.redirect rename).Takes way ↔ ∃ old, cell.Takes old ∧ rename old = way := by
  unfold Takes
  rw [redirect_link_leave, redirect_link_await]
  constructor
  · rintro (⟨old, link, same⟩ | ⟨old, link, same⟩)
    · exact ⟨old, Or.inl link, same⟩
    · exact ⟨old, Or.inr link, same⟩
  · rintro ⟨old, link | link, same⟩
    · exact Or.inl ⟨old, link, same⟩
    · exact Or.inr ⟨old, link, same⟩

theorem leadsWithin_redirect {size index : Nat}
    (within : cell.LeadsWithin size index) :
    (cell.redirect rename).LeadsWithin size index := by
  intro distance leads
  refine within distance ?_
  unfold redirect at leads
  split at leads
  case h_1 => simp at leads
  case h_2 => simp at leads
  case h_3 => exact leads

theorem place_redirect {address : Nat → Nat} {aims aims' : Aims}
    {index : Nat} (same : ∀ way, cell.Takes way → aims' (rename way) = aims way) :
    (cell.redirect rename).place address aims' index = cell.place address aims index := by
  cases link : cell.link with
  | none => simp [redirect, place, link]
  | branch _ => simp [redirect, place, link]
  | held _ => simp [redirect, place, link]
  | leave way => simp [redirect, place, link, same way (Or.inl link)]
  | await way => simp [redirect, place, link, same way (Or.inr link)]

end Cell

namespace Piece

def redirect (rename : Way → Way) (piece : Piece) : Piece := piece.map (·.redirect rename)

@[simp] theorem length_redirect (rename : Way → Way) (piece : Piece) :
    (piece.redirect rename).length = piece.length := by
  simp [redirect]

theorem offset_redirect (rename : Way → Way) (piece : Piece) (index : Nat) :
    (piece.redirect rename).offset index = piece.offset index :=
  offset_congr (by simp [redirect, Function.comp_def]) index

@[simp] theorem size_redirect (rename : Way → Way) (piece : Piece) :
    (piece.redirect rename).size = piece.size :=
  size_congr (by simp [redirect, Function.comp_def])

theorem getElem?_redirect (rename : Way → Way) (piece : Piece) (index : Nat) :
    (piece.redirect rename)[index]? = piece[index]?.map (·.redirect rename) := by
  simp [redirect]

variable {rename : Way → Way} {piece : Piece}

theorem mem_redirect {cell : Cell} :
    cell ∈ piece.redirect rename ↔ ∃ old ∈ piece, old.redirect rename = cell := by
  simp [redirect]

theorem Contained.redirect (contained : piece.Contained) (rename : Way → Way) :
    (piece.redirect rename).Contained := by
  intro index cell found
  rw [getElem?_redirect] at found
  obtain ⟨old, foundOld, rfl⟩ := Option.map_eq_some_iff.mp found
  rw [length_redirect]
  exact Cell.leadsWithin_redirect (contained index old foundOld)

theorem realize_redirect {aims aims' : Aims} {base : Nat}
    (same : ∀ cell ∈ piece, ∀ way, cell.Takes way → aims' (rename way) = aims way) :
    (piece.redirect rename).realize aims' base = piece.realize aims base := by
  apply List.ext_getElem?
  intro index
  rw [getElem?_realize, getElem?_realize, getElem?_redirect]
  cases found : piece[index]? with
  | none => rfl
  | some cell =>
    simp only [Option.map_some, Option.some.injEq, offset_redirect]
    exact Cell.place_redirect (same cell (List.mem_of_getElem? found))

theorem symbolsFrom_redirect (rename : Way → Way) (index : Nat) (piece : Piece) :
    symbolsFrom index (piece.redirect rename) = symbolsFrom index piece := by
  induction piece generalizing index with
  | nil => rfl
  | cons cell rest induction =>
    have step := induction (index + 1)
    simp only [redirect] at step
    simp [redirect, symbolsFrom, step]

theorem redirect_append (rename : Way → Way) (left right : Piece) :
    (left ++ right).redirect rename = left.redirect rename ++ right.redirect rename := by
  simp [redirect]

theorem redirect_eq_self
    (keeps : ∀ cell ∈ piece, ∀ way, cell.Takes way → rename way = way) :
    piece.redirect rename = piece := by
  have same : ∀ cell ∈ piece, cell.redirect rename = cell := by
    intro cell member
    cases link : cell.link with
    | none => simp [Cell.redirect, link]
    | branch _ => simp [Cell.redirect, link]
    | held _ => simp [Cell.redirect, link]
    | leave way =>
      have kept := keeps cell member way (Or.inl link)
      simp only [Cell.redirect, link, kept]
      rw [← link]
    | await way =>
      have kept := keeps cell member way (Or.inr link)
      simp only [Cell.redirect, link, kept]
      rw [← link]
  exact (List.map_congr_left same).trans (List.map_id piece)

theorem leaves_redirect (rename : Way → Way) (way : Way)
    (only : ∀ cell ∈ piece, ∀ other, cell.Takes other →
      (rename other = rename way ↔ other = way))
    (index : Nat) :
    leaves (rename way) index (piece.redirect rename) = leaves way index piece := by
  induction piece generalizing index with
  | nil => rfl
  | cons cell rest induction =>
    have step := induction (fun other member => only other (by simp [member])) (index + 1)
    have same : (cell.redirect rename).link = .leave (rename way) ↔
        cell.link = .leave way := by
      rw [Cell.redirect_link_leave]
      constructor
      · rintro ⟨old, link, renamed⟩
        rw [link, (only cell (by simp) old (Or.inl link)).mp renamed]
      · intro link
        exact ⟨way, link, rfl⟩
    simp only [redirect] at step
    simp only [redirect, List.map_cons, leaves, same, step]

end Piece

namespace Piece

def startOf (segments : List Piece) (index : Nat) : Nat :=
  (segments.take index).flatten.length

/-- Segments in a row; each way of `exits` leads to the start of a segment, or to
the end of the last one. -/
def join (exits : Exits) (segments : List Piece) : Piece :=
  close (fun way => (exits way).map (startOf segments)) segments.flatten

theorem startOf_le (segments : List Piece) (index : Nat) :
    startOf segments index ≤ segments.flatten.length := by
  have whole :
      segments.flatten = (segments.take index).flatten ++
        (segments.drop index).flatten := by
    rw [← List.flatten_append, List.take_append_drop]
  rw [startOf, whole, List.length_append]
  omega

theorem offset_startOf (segments : List Piece) (index : Nat) :
    offset segments.flatten (startOf segments index) =
      size (segments.take index).flatten := by
  have whole :
      segments.flatten = (segments.take index).flatten ++
        (segments.drop index).flatten := by
    rw [← List.flatten_append, List.take_append_drop]
  rw [startOf, whole, offset_append_left _ _ (Nat.le_refl _), offset_length]

@[simp] theorem length_join (exits : Exits) (segments : List Piece) :
    (join exits segments).length = segments.flatten.length := by
  simp [join]

variable {exits : Exits} {way : Way}

theorem mem_join {segments : List Piece} {cell : Cell}
    (member : cell ∈ join exits segments) (takes : cell.Takes way) :
    (∃ segment ∈ segments, cell ∈ segment) ∧ exits way = none := by
  obtain ⟨old, oldMember, position, rfl⟩ := mem_closeFrom member
  have stays := (Cell.takes_close takes).2
  rw [Cell.close_of_takes takes]
  exact ⟨List.mem_flatten.mp oldMember, Option.map_eq_none_iff.mp stays⟩

theorem leaves_closeFrom (stays : exits way = none) (position index : Nat)
    (piece : Piece) :
    leaves way index (closeFrom exits position piece) = leaves way index piece := by
  induction piece generalizing position index with
  | nil => rfl
  | cons cell rest induction =>
    have same : (cell.close exits position).link = .leave way ↔
        cell.link = .leave way := by
      cases link : cell.link with
      | none => simp [Cell.close, link]
      | branch _ => simp [Cell.close, link]
      | held _ => simp [Cell.close, link]
      | leave other =>
        cases exit : exits other with
        | none => simp [Cell.close, link, exit]
        | some target =>
          have differs : other ≠ way := by
            rintro rfl
            simp [stays] at exit
          simp [Cell.close, link, exit, differs]
      | await other =>
        cases exit : exits other with
        | none => simp [Cell.close, link, exit]
        | some target => simp [Cell.close, link, exit]
    simp only [closeFrom, leaves, same, induction]

theorem leaves_join (stays : exits way = none) (index : Nat) (segments : List Piece) :
    leaves way index (join exits segments) = leaves way index segments.flatten :=
  leaves_closeFrom (by simp [stays]) 0 index segments.flatten

end Piece

end GameScript.Emission
