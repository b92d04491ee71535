import GameScript.Proofs.Execution.Site

/-! Pieces at their places in an entry.

A piece lies at a spot if its cells are there, their ways leading where `exits`
says, and if the stretches that start inside of it are its own. -/

namespace GameScript.Execution

open Bytecode Emission

def Ordered : Nat → Nat → List Stretch → Prop
  | low, high, [] => low ≤ high
  | low, high, stretch :: rest =>
    low ≤ stretch.start ∧ stretch.start < stretch.stop ∧ Ordered stretch.stop high rest

namespace Ordered

variable {low middle high : Nat} {one other : List Stretch}

theorem le (ordered : Ordered low high one) : low ≤ high := by
  induction one generalizing low with
  | nil => exact ordered
  | cons stretch rest induction =>
    obtain ⟨starts, hasCells, later⟩ := ordered
    have := induction later
    omega

theorem bounds (ordered : Ordered low high one) {stretch : Stretch}
    (member : stretch ∈ one) :
    low ≤ stretch.start ∧ stretch.start < stretch.stop ∧ stretch.stop ≤ high := by
  induction one generalizing low with
  | nil => simp at member
  | cons first rest induction =>
    obtain ⟨starts, hasCells, later⟩ := ordered
    rcases List.mem_cons.mp member with rfl | member
    · exact ⟨starts, hasCells, later.le⟩
    · have inside := induction later member
      omega

theorem append (first : Ordered low middle one) (second : Ordered middle high other) :
    Ordered low high (one ++ other) := by
  induction one generalizing low with
  | nil =>
    have start : low ≤ middle := first
    cases other with
    | nil => exact Nat.le_trans start second
    | cons stretch rest => exact ⟨Nat.le_trans start second.1, second.2⟩
  | cons stretch rest induction => exact ⟨first.1, first.2.1, induction first.2.2⟩

end Ordered

def inner (start : Nat) (own exits : Exits) : Exits := fun way =>
  match own way with
  | some target => some (start + target)
  | none => exits way

theorem close_close (cell : Cell) (start index : Nat) (own exits : Exits) :
    (cell.close own index).close exits (start + index) = cell.close (inner start own exits)
    (start + index) := by
  cases link : cell.link with
  | none => simp [Cell.close, link]
  | branch _ => simp [Cell.close, link]
  | held _ => simp [Cell.close, link]
  | leave way =>
    cases exit : own way with
    | none => simp [Cell.close, link, exit, inner]
    | some target =>
      simp only [Cell.close, link, exit, inner, Option.elim_some]
      congr 2
      omega
  | await way =>
    cases exit : own way with
    | none => simp [Cell.close, link, exit, inner]
    | some target =>
      simp only [Cell.close, link, exit, inner, Option.elim_some]
      congr 2
      omega

def joined (spot : Spot) (targets : List (Option Nat)) (segments : List Piece)
    (exits : Exits) : Exits :=
  inner spot.index (fun way => (exitsTo targets way).map (Piece.startOf segments)) exits

theorem joined_ahead {spot : Spot} {targets : List (Option Nat)} {segments : List Piece}
    {exits : Exits} {label target : Nat} (leads : targets.getD label none = some target) :
    joined spot targets segments exits (.ahead label) =
      some (spot.index + Piece.startOf segments target) := by
  simp only [joined, inner, exitsTo, leads, Option.map_some]

structure Site.Lies {I : Interpretation} (site : Site I) (spot : Spot) (piece : Piece)
    (exits : Exits) (own : List Stretch) : Prop where
  address : spot.address = site.whole.offset spot.index
  cells : ∀ index cell, piece[index]? = some cell →
    site.whole[spot.index + index]? = some (cell.close exits (spot.index + index))
  known : ∀ stretch ∈ own, stretch ∈ site.stretches
  only : ∀ stretch ∈ site.stretches, spot.index ≤ stretch.start →
    stretch.start < spot.index + piece.length → stretch ∈ own

namespace Site.Lies

variable {I : Interpretation} {site : Site I} {spot : Spot} {piece front back : Piece}
  {exits : Exits} {own one other : List Stretch} {high low : Nat}

theorem left (lies : site.Lies spot (front ++ back) exits (one ++ other))
    (later : Ordered (spot.after front).index high other) :
    site.Lies spot front exits one where
  address := lies.address
  cells := fun index cell found => by
    have bound := (List.getElem?_eq_some_iff.mp found).1
    exact lies.cells index cell (by rw [List.getElem?_append_left bound, found])
  known := fun stretch member => lies.known stretch (List.mem_append_left other member)
  only := fun stretch member starts ends => by
    have inside := lies.only stretch member starts (by rw [List.length_append]; omega)
    rcases List.mem_append.mp inside with inOne | inOther
    · exact inOne
    · have after := (later.bounds inOther).1
      simp only [Spot.after] at after
      omega

theorem offset (lies : site.Lies spot piece exits own) {count : Nat}
    (bound : count ≤ piece.length) :
    site.whole.offset (spot.index + count) = spot.address + piece.offset count := by
  induction count with
  | zero => simp [lies.address]
  | succ count induction =>
    have found := List.getElem?_eq_getElem (show count < piece.length by omega)
    have there := lies.cells count _ found
    rw [← Nat.add_assoc, Piece.offset_succ there, induction (by omega),
      Piece.offset_succ found, Cell.close_ins, Nat.add_assoc]

theorem right (lies : site.Lies spot (front ++ back) exits (one ++ other))
    (earlier : Ordered low (spot.after front).index one) :
    site.Lies (spot.after front) back exits other where
  address := by
    have whole := lies.offset (show front.length ≤ (front ++ back).length by simp)
    rw [Piece.offset_append_left front back (Nat.le_refl _), Piece.offset_length] at whole
    exact whole.symm
  cells := fun index cell found => by
    have there := lies.cells (front.length + index) cell (by
      rw [List.getElem?_append_right (Nat.le_add_right _ _),
        Nat.add_sub_cancel_left, found])
    rw [← Nat.add_assoc] at there
    exact there
  known := fun stretch member => lies.known stretch (List.mem_append_right one member)
  only := fun stretch member starts ends => by
    simp only [Spot.after] at starts ends
    have inside := lies.only stretch member (by omega) (by rw [List.length_append]; omega)
    rcases List.mem_append.mp inside with inOne | inOther
    · have before := earlier.bounds inOne
      simp only [Spot.after] at before
      omega
    · exact inOther

theorem close {ownExits : Exits} (lies : site.Lies spot (piece.close ownExits) exits own) :
    site.Lies spot piece (inner spot.index ownExits exits) own where
  address := lies.address
  cells := fun index cell found => by
    have there := lies.cells index (cell.close ownExits index) (by
      rw [Piece.getElem?_close, found]
      rfl)
    rw [there, close_close]
  known := lies.known
  only := by
    have only := lies.only
    rwa [Piece.length_close] at only

theorem leads (lies : site.Lies spot piece exits own) {index : Nat} {cell : Cell}
    (found : piece[index]? = some cell) {way : Way} (takes : cell.Takes way) :
    ∃ target, exits way = some target := by
  have there := List.mem_of_getElem? (lies.cells index cell found)
  cases exit : exits way with
  | some target => exact ⟨target, rfl⟩
  | none =>
    have remains : (cell.close exits (spot.index + index)).Takes way := by
      rcases takes with link | link
      · exact Or.inl (by simp [Cell.close, link, exit])
      · exact Or.inr (by simp [Cell.close, link, exit])
    exact absurd remains (site.isCode.closed.not_takes there)

theorem redirect {rename : Way → Way}
    (lies : site.Lies spot (piece.redirect rename) exits own) :
    site.Lies spot piece (fun way => exits (rename way)) own where
  address := lies.address
  cells := fun index cell found => by
    have moved : (piece.redirect rename)[index]? = some (cell.redirect rename) := by
      rw [Piece.getElem?_redirect, found]
      rfl
    rw [lies.cells index _ moved]
    cases link : cell.link with
    | leave way =>
      obtain ⟨target, exit⟩ :=
        lies.leads moved (Cell.takes_redirect.mpr ⟨way, Or.inl link, rfl⟩)
      simp [Cell.close, Cell.redirect, link, exit]
    | await way =>
      obtain ⟨target, exit⟩ :=
        lies.leads moved (Cell.takes_redirect.mpr ⟨way, Or.inr link, rfl⟩)
      simp [Cell.close, Cell.redirect, link, exit]
    | _ => simp [Cell.close, Cell.redirect, link]
  known := lies.known
  only := by
    have only := lies.only
    rwa [Piece.length_redirect] at only

theorem cell (lies : site.Lies spot piece exits []) {index : Nat} {cell : Cell}
    (found : piece[index]? = some cell) (link : cell.link = .none) :
    site.Has (spot.index + index) cell where
  found := by
    rw [lies.cells index cell found]
    simp [Cell.close, link]
  apart := fun stretch member starts => by
    have bound := (List.getElem?_eq_some_iff.mp found).1
    have inside := lies.only stretch member (by omega) (by omega)
    simp at inside

end Site.Lies

end GameScript.Execution
