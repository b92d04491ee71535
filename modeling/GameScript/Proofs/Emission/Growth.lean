import GameScript.Proofs.Emission.Join
import GameScript.Proofs.Emission.Run

/-! Growth of the emitted code.

Code only grows by whole pieces.  What is written into it later are the aims of
the ways that its pieces take. -/

namespace GameScript.Emission

open Bytecode Syntax

/-- What later declarations do not change of the open functions. -/
def Emitter.frames (s : Emitter) : List (List String × Bool) :=
  s.scopes.map fun scope => (scope.params, scope.inFunction)

def Emitter.params (s : Emitter) : List String := (s.scopes.headD {}).params

theorem Emitter.params_eq_of_frames {s s' : Emitter} (frames : s'.frames = s.frames) :
    s'.params = s.params := by
  unfold Emitter.frames at frames
  unfold Emitter.params
  cases old : s.scopes with
  | nil => cases new : s'.scopes with
    | nil => rfl
    | cons scope rest => simp [old, new] at frames
  | cons scope rest => cases new : s'.scopes with
    | nil => simp [old, new] at frames
    | cons scope' rest' =>
      simp only [old, new, List.map_cons, List.cons.injEq, Prod.mk.injEq] at frames
      exact frames.1.1

namespace Piece

def Closed (piece : Piece) : Prop := piece.TakesOnly fun _ => False

variable {cell : Cell}

theorem Closed.not_takes {piece : Piece} (closed : piece.Closed)
    (member : cell ∈ piece) {way : Way} : ¬ cell.Takes way :=
  closed cell member way

theorem Closed.nil : Closed [] := by
  intro cell member
  simp at member

theorem Closed.append {left right : Piece} (closedLeft : left.Closed)
    (closedRight : right.Closed) : (left ++ right).Closed :=
  TakesOnly.append closedLeft closedRight

theorem Closed.takesOnly {piece : Piece} (closed : piece.Closed) (ways : Way → Prop) :
    piece.TakesOnly ways :=
  closed.mono fun _ => False.elim

theorem Closed.single (link : cell.link = .none) : Closed [cell] := by
  intro other member way takes
  rw [List.mem_singleton.mp member] at takes
  rcases takes with takes | takes
  · rw [link] at takes; exact Link.noConfusion takes
  · rw [link] at takes; exact Link.noConfusion takes

theorem Contained.single
    (link : ∀ distance, cell.link ≠ .branch distance ∧ cell.link ≠ .held distance) :
    Contained [cell] := by
  intro index other found distance leads
  have same : other = cell := by
    have member := List.mem_of_getElem? found
    exact List.mem_singleton.mp member
  subst same
  rcases leads with leads | leads
  · exact absurd leads (link distance).1
  · exact absurd leads (link distance).2

end Piece

structure Extends (aims : Aims) (s s' : Emitter) (piece : Piece) : Prop where
  code : s'.code.toList = s.code.toList ++ piece.realize aims s.length
  length : s'.length = s.length + piece.size
  symbols : s'.symbols.toList = s.symbols.toList ++ piece.symbolsFrom s.code.size
  children : ∃ added, s'.children.toList = s.children.toList ++ added ∧
    (∀ child ∈ added, ∃ (index : Nat) (cell : Cell), piece[index]? = some cell ∧
      cell.opensBody = true ∧ child.offset = s.length + piece.offset index) ∧
    (added.map (·.offset)).Nodup
  contained : piece.Contained

namespace Extends

variable {aims : Aims} {s t u : Emitter} {piece left right : Piece}

theorem size (extended : Extends aims s t piece) :
    t.code.size = s.code.size + piece.length := by
  have same := congrArg List.length extended.code
  simpa using same

theorem refl (aims : Aims) (s : Emitter) : Extends aims s s [] where
  code := by simp [Piece.realize, Piece.placeFrom]
  length := by simp
  symbols := by simp [Piece.symbolsFrom]
  children := ⟨[], by simp, by simp, .nil⟩
  contained := .nil

theorem append (first : Extends aims s t left) (second : Extends aims t u right) :
    Extends aims s u (left ++ right) where
  code := by
    rw [second.code, first.code, Piece.realize_append first.contained second.contained,
      first.length, List.append_assoc]
  length := by
    rw [second.length, first.length, Piece.size_append, Nat.add_assoc]
  symbols := by
    rw [second.symbols, first.symbols, Piece.symbolsFrom_append, first.size,
      List.append_assoc]
  children := by
    obtain ⟨addedFirst, childrenFirst, startFirst, distinctFirst⟩ := first.children
    obtain ⟨addedSecond, childrenSecond, startSecond, distinctSecond⟩ := second.children
    refine ⟨addedFirst ++ addedSecond,
      by rw [childrenSecond, childrenFirst, List.append_assoc], ?_, ?_⟩
    · intro child member
      rcases List.mem_append.mp member with member | member
      · obtain ⟨index, cell, found, opens, start⟩ := startFirst child member
        have bound : index < left.length := (List.getElem?_eq_some_iff.mp found).1
        refine ⟨index, cell, ?_, opens, ?_⟩
        · rw [List.getElem?_append_left bound, found]
        · rw [Piece.offset_append_left left right (Nat.le_of_lt bound), start]
      · obtain ⟨index, cell, found, opens, start⟩ := startSecond child member
        refine ⟨left.length + index, cell, ?_, opens, ?_⟩
        · rw [List.getElem?_append_right (Nat.le_add_right _ _),
            Nat.add_sub_cancel_left, found]
        · rw [Piece.offset_append_right, start, first.length, Nat.add_assoc]
    · rw [List.map_append, List.nodup_append]
      refine ⟨distinctFirst, distinctSecond, ?_⟩
      intro one oneMember other otherMember same
      obtain ⟨child, member, rfl⟩ := List.mem_map.mp oneMember
      obtain ⟨later, laterMember, rfl⟩ := List.mem_map.mp otherMember
      obtain ⟨index, cell, found, -, start⟩ := startFirst child member
      obtain ⟨laterIndex, -, -, -, laterStart⟩ := startSecond later laterMember
      -- the first piece ends before the second one starts
      have before :=
        Piece.offset_lt_offset (List.getElem?_eq_some_iff.mp found).1 (Nat.le_refl _)
      rw [Piece.offset_length] at before
      have grown := first.length
      omega
  contained := first.contained.append second.contained

variable {aims' : Aims}

theorem congr (extended : Extends aims s t piece)
    (same : ∀ cell ∈ piece, ∀ way, cell.Takes way → aims way = aims' way) :
    Extends aims' s t piece :=
  { extended with
    code := by rw [extended.code, Piece.realize_congr extended.contained same] }

theorem of_same {s' t' : Emitter} (extended : Extends aims s t piece)
    (sourceCode : s'.code = s.code) (sourceLength : s'.length = s.length)
    (sourceSymbols : s'.symbols = s.symbols) (sourceChildren : s'.children = s.children)
    (code : t'.code = t.code) (length : t'.length = t.length)
    (symbols : t'.symbols = t.symbols) (children : t'.children = t.children) :
    Extends aims s' t' piece where
  code := by rw [code, sourceCode, sourceLength, extended.code]
  length := by rw [length, sourceLength, extended.length]
  symbols := by rw [symbols, sourceSymbols, sourceCode, extended.symbols]
  children := by
    rw [children, sourceChildren, sourceLength]
    exact extended.children
  contained := extended.contained

private theorem toList_foldl_modify (change : Instruction → Instruction) (sites : List Nat)
    (code : Code) : (sites.foldl (fun code site => code.modify site change) code).toList =
      Piece.modifyAll change sites code.toList := by
  induction sites generalizing code with
  | nil => rfl
  | cons site rest induction =>
    simpa [Piece.modifyAll] using induction (code.modify site change)

theorem land {way : Way} (extended : Extends aims s t piece) (unknown : aims way = none)
    (noAwait : piece.awaits way s.code.size = []) {sites : List Nat}
    (isLeaves : sites = piece.leaves way s.code.size) :
    Extends (aims.know way t.length) s
      { t with code := ForwardPatch.resolve ⟨sites⟩ t.code t.length } piece :=
  { extended with
    code := by
      subst isLeaves
      refine (toList_foldl_modify (·.aim t.length) _ t.code).trans ?_
      rw [extended.code]
      exact Piece.modifyAll_leaves _ t.length unknown piece
        (Piece.awaits_eq_nil_iff.mp noAwait) _ }

theorem landAddress {way : Way} (extended : Extends aims s t piece)
    (unknown : aims way = none) (noLeave : piece.leaves way s.code.size = [])
    {sites : List Nat} (isAwaits : sites = piece.awaits way s.code.size) :
    Extends (aims.know way t.length) s
      { t with code := AddressPatch.resolve ⟨sites⟩ t.code t.length } piece :=
  { extended with
    code := by
      subst isAwaits
      refine (toList_foldl_modify (·.hold t.length) _ t.code).trans ?_
      rw [extended.code]
      exact Piece.modifyAll_awaits _ t.length unknown piece
        (Piece.leaves_eq_nil_iff.mp noLeave) _ }

/-- Once it is known where the ways of a piece lead, they are distances. -/
theorem close {exits : Exits} (extended : Extends aims s t piece)
    (agree : ∀ cell ∈ piece, ∀ way, cell.Takes way →
      match exits way with
      | some target =>
        target ≤ piece.length ∧ aims way = some (s.length + piece.offset target)
      | none => aims' way = aims way) :
    Extends aims' s t (piece.close exits) where
  code := by
    rw [extended.code, ← Piece.realize_close]
    intro cell member way takes
    have known := agree cell member way takes
    cases exit : exits way with
    | none => simpa only [exit] using known
    | some target =>
      simp only [exit] at known
      exact known.2
  length := by rw [Piece.size_close, extended.length]
  symbols := by rw [Piece.close, Piece.symbolsFrom_closeFrom, extended.symbols]
  children := by
    obtain ⟨added, children, starts, distinct⟩ := extended.children
    refine ⟨added, children, ?_, distinct⟩
    intro child member
    obtain ⟨index, cell, found, opens, start⟩ := starts child member
    exact ⟨index, cell.close exits index, by rw [Piece.getElem?_close, found]; rfl,
      by simp [opens], by rw [Piece.offset_close, start]⟩
  contained := by
    refine extended.contained.close ?_
    intro cell member way takes target exit
    have known := agree cell member way takes
    simp only [exit] at known
    exact known.1

theorem join {exits : Exits} {segments : List Piece}
    (extended : Extends aims s t segments.flatten)
    (known : ∀ cell ∈ segments.flatten, ∀ way, cell.Takes way →
      ∀ index, exits way = some index →
      aims way = some (s.length + Piece.size (segments.take index).flatten))
    (others : ∀ cell ∈ segments.flatten, ∀ way, cell.Takes way → exits way = none →
      aims' way = aims way) :
    Extends aims' s t (Piece.join exits segments) := by
  refine extended.close ?_
  intro cell member way takes
  cases exit : exits way with
  | none => exact others cell member way takes exit
  | some index =>
    refine ⟨Piece.startOf_le segments index, ?_⟩
    rw [known cell member way takes index exit, Piece.offset_startOf]

theorem redirect {rename : Way → Way} (extended : Extends aims s t piece)
    (same : ∀ cell ∈ piece, ∀ way, cell.Takes way → aims' (rename way) = aims way) :
    Extends aims' s t (piece.redirect rename) where
  code := by rw [Piece.realize_redirect same, extended.code]
  length := by rw [Piece.size_redirect, extended.length]
  symbols := by rw [Piece.symbolsFrom_redirect, extended.symbols]
  children := by
    obtain ⟨added, children, starts, distinct⟩ := extended.children
    refine ⟨added, children, ?_, distinct⟩
    intro child member
    obtain ⟨index, cell, found, opens, start⟩ := starts child member
    exact ⟨index, cell.redirect rename, by rw [Piece.getElem?_redirect, found]; rfl,
      by simp [opens], by rw [Piece.offset_redirect, start]⟩
  contained := extended.contained.redirect rename

end Extends

namespace Piece

def opened : Piece → Piece
  | [] => []
  | cell :: rest => { cell with opensBody := true } :: rest

@[simp] theorem length_opened (piece : Piece) : piece.opened.length = piece.length := by
  cases piece <;> rfl

@[simp] theorem size_opened (piece : Piece) : piece.opened.size = piece.size := by
  cases piece <;> rfl

theorem offset_opened (piece : Piece) (index : Nat) :
    piece.opened.offset index = piece.offset index :=
  offset_congr (by cases piece <;> rfl) index

theorem symbolsFrom_opened (index : Nat) (piece : Piece) :
    symbolsFrom index piece.opened = symbolsFrom index piece := by
  cases piece <;> rfl

theorem getElem?_opened {piece : Piece} {index : Nat} {cell : Cell}
    (found : piece.opened[index]? = some cell) :
    ∃ old, piece[index]? = some old ∧ cell = { old with opensBody := cell.opensBody } ∧
      (old.opensBody = true → cell.opensBody = true) := by
  cases piece with
  | nil => simp [opened] at found
  | cons first rest =>
    cases index with
    | zero =>
      simp only [opened, List.getElem?_cons_zero, Option.some.injEq] at found
      subst found
      exact ⟨first, by simp, rfl, fun _ => rfl⟩
    | succ index =>
      simp only [opened, List.getElem?_cons_succ] at found
      exact ⟨cell, by simpa using found, rfl, id⟩

theorem mem_opened {piece : Piece} {cell : Cell} (member : cell ∈ piece.opened) :
    ∃ old ∈ piece, cell = { old with opensBody := cell.opensBody } := by
  obtain ⟨index, found⟩ := List.getElem?_of_mem member
  obtain ⟨old, foundOld, same, -⟩ := getElem?_opened found
  exact ⟨old, List.mem_of_getElem? foundOld, same⟩

theorem realize_opened (aims : Aims) (base : Nat) (piece : Piece) :
    piece.opened.realize aims base = piece.realize aims base := by
  have sameOffset : (fun index => base + piece.opened.offset index) =
      fun index => base + piece.offset index := by
    funext index
    rw [offset_opened]
  rw [realize, sameOffset, realize]
  cases piece <;> rfl

theorem Contained.opened {piece : Piece} (contained : piece.Contained) :
    piece.opened.Contained := by
  intro index cell found distance leads
  obtain ⟨old, foundOld, same, -⟩ := getElem?_opened found
  rw [same] at leads
  rw [length_opened]
  exact contained index old foundOld distance leads

end Piece

namespace Extends

variable {aims : Aims} {s t : Emitter} {piece : Piece}

theorem opened (extended : Extends aims s t piece) : Extends aims s t piece.opened where
  code := by rw [Piece.realize_opened, extended.code]
  length := by rw [Piece.size_opened, extended.length]
  symbols := by rw [Piece.symbolsFrom_opened, extended.symbols]
  children := by
    obtain ⟨added, children, starts, distinct⟩ := extended.children
    refine ⟨added, children, ?_, distinct⟩
    intro child member
    obtain ⟨index, cell, found, opens, start⟩ := starts child member
    have bound : index < piece.opened.length := by
      rw [Piece.length_opened]
      exact (List.getElem?_eq_some_iff.mp found).1
    obtain ⟨old, foundOld, -, keeps⟩ :=
      Piece.getElem?_opened (List.getElem?_eq_some_iff.mpr ⟨bound, rfl⟩)
    rw [found, Option.some.injEq] at foundOld
    subst foundOld
    exact ⟨index, _, List.getElem?_eq_some_iff.mpr ⟨bound, rfl⟩, keeps opens,
      by rw [Piece.offset_opened, start]⟩
  contained := extended.contained.opened

theorem addChild {child : ChildFunction} (extended : Extends aims s t piece)
    (nonempty : piece ≠ []) (start : child.offset = s.length)
    (unopened : ∀ cell ∈ piece.head?, cell.opensBody = false) :
    Extends aims s { t with children := t.children.push child } piece.opened :=
  { extended.opened with
    children := by
      obtain ⟨added, children, starts, distinct⟩ := extended.children
      obtain ⟨sameAdded, sameChildren, openedStarts, -⟩ := extended.opened.children
      obtain rfl : added = sameAdded := by
        rw [children] at sameChildren
        exact List.append_cancel_left sameChildren
      refine ⟨added ++ [child], by simp [children], ?_, ?_⟩
      · intro other member
        rcases List.mem_append.mp member with member | member
        · exact openedStarts other member
        · rw [List.mem_singleton.mp member, start]
          cases piece with
          | nil => exact absurd rfl nonempty
          | cons cell rest => exact ⟨0, { cell with opensBody := true }, rfl, rfl, by simp⟩
      · rw [List.map_append, List.nodup_append]
        refine ⟨distinct, by simp, ?_⟩
        intro one oneMember other otherMember same
        obtain ⟨inner, member, rfl⟩ := List.mem_map.mp oneMember
        obtain rfl : other = child.offset := by simpa using otherMember
        obtain ⟨index, cell, found, opens, innerStart⟩ := starts inner member
        have later : index ≠ 0 := by
          rintro rfl
          have closed := unopened cell (by rw [List.head?_eq_getElem?, found]; rfl)
          rw [opens] at closed
          exact Bool.noConfusion closed
        have bound := (List.getElem?_eq_some_iff.mp found).1
        have after :=
          Piece.offset_lt_offset (Nat.pos_of_ne_zero later) (Nat.le_of_lt bound)
        rw [Piece.offset_zero] at after
        omega }

end Extends

end GameScript.Emission
