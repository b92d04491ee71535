import GameScript.Emission.Code
import Mathlib.Algebra.Ring.Int.Defs
import Mathlib.Algebra.Ring.Nat
import Mathlib.Data.List.Basic

/-! Pieces of code whose branches are told by distances.

A piece is a list of cells: instructions without addresses, each with the name
that it refers to and with where it leads to.  Distances are counted in cells,
so a piece means the same wherever it is placed.  Cells that lead out of a piece
name the way they take; closing a piece turns ways into distances. -/

namespace GameScript.Emission

open Bytecode

inductive Way where
  | breakLoop
  | continueLoop
  /-- A place further on in the construct that is being emitted. -/
  | ahead (label : Nat)
deriving DecidableEq, Repr

inductive Link where
  | none
  | branch (distance : Int)
  /-- The immediate holds the address of the cell so many cells further on. -/
  | held (distance : Int)
  | leave (way : Way)
  /-- The immediate waits for the address to which a way leads. -/
  | await (way : Way)
deriving DecidableEq, Repr

def Link.holds : Link → Bool
  | .held _ | .await _ => true
  | _ => false

structure Cell where
  ins : Instruction
  symbol : Option Symbol := none
  link : Link := .none
  opensBody : Bool := false
deriving DecidableEq, Repr

abbrev Piece := List Cell

/-- Addresses to which ways lead, as far as they are known. -/
abbrev Aims := Way → Option Nat

/-- Cells to which ways lead, counted from the start of a piece. -/
abbrev Exits := Way → Option Nat

end GameScript.Emission

namespace GameScript.Bytecode.Instruction

def aim (target : Nat) (ins : Instruction) : Instruction :=
  { ins with jump := wordDistance ins.address target }

def hold (address : Nat) (ins : Instruction) : Instruction :=
  { ins with
    immediate := some (.int32 (Int32.ofInt (Number.nearestSignedWord 32 address))) }

end GameScript.Bytecode.Instruction

namespace GameScript.Emission

open Bytecode

namespace Cell

/-- The instruction of a cell, given the addresses of all cells of its piece. -/
def place (address : Nat → Nat) (aims : Aims) (index : Nat) (cell : Cell) : Instruction :=
  let ins := { cell.ins with address := address index }
  match cell.link with
  | .none => ins
  | .branch distance => ins.aim (address ((index : Int) + distance).toNat)
  | .held distance => ins.hold (address ((index : Int) + distance).toNat)
  | .leave way => (aims way).elim ins (ins.aim ·)
  | .await way => (aims way).elim ins (ins.hold ·)

def close (exits : Exits) (index : Nat) (cell : Cell) : Cell :=
  match cell.link with
  | .leave way => (exits way).elim cell fun target =>
    { cell with link := .branch ((target : Int) - index) }
  | .await way => (exits way).elim cell fun target =>
    { cell with link := .held ((target : Int) - index) }
  | _ => cell

/-- The cell takes a way, or waits for where it leads. -/
def Takes (way : Way) (cell : Cell) : Prop :=
  cell.link = .leave way ∨ cell.link = .await way

/-- The cell leads to a cell of a piece of the given size, if to any. -/
def LeadsWithin (size index : Nat) (cell : Cell) : Prop :=
  ∀ distance, cell.link = .branch distance ∨ cell.link = .held distance →
    0 ≤ (index : Int) + distance ∧ (index : Int) + distance ≤ size

theorem close_eq (exits : Exits) (index : Nat) (cell : Cell) :
    ∃ link, cell.close exits index = { cell with link } := by
  unfold close
  split
  · cases exits _ <;> exact ⟨_, rfl⟩
  · cases exits _ <;> exact ⟨_, rfl⟩
  · exact ⟨_, rfl⟩

@[simp] theorem close_ins (exits : Exits) (index : Nat) (cell : Cell) :
    (cell.close exits index).ins = cell.ins := by
  obtain ⟨link, same⟩ := close_eq exits index cell
  rw [same]

@[simp] theorem close_symbol (exits : Exits) (index : Nat) (cell : Cell) :
    (cell.close exits index).symbol = cell.symbol := by
  obtain ⟨link, same⟩ := close_eq exits index cell
  rw [same]

@[simp] theorem close_opensBody (exits : Exits) (index : Nat) (cell : Cell) :
    (cell.close exits index).opensBody = cell.opensBody := by
  obtain ⟨link, same⟩ := close_eq exits index cell
  rw [same]

end Cell

namespace Piece

def size (piece : Piece) : Nat := (piece.map (·.ins.length)).sum

def offset (piece : Piece) (index : Nat) : Nat := size (piece.take index)

@[simp] theorem size_nil : size [] = 0 := rfl

@[simp] theorem size_cons (cell : Cell) (rest : Piece) :
    size (cell :: rest) = cell.ins.length + size rest := by
  simp [size]

@[simp] theorem size_append (left right : Piece) :
    size (left ++ right) = size left + size right := by
  simp [size]

@[simp] theorem offset_zero (piece : Piece) : offset piece 0 = 0 := by
  simp [offset]

@[simp] theorem offset_length (piece : Piece) :
    offset piece piece.length = size piece := by
  simp [offset]

theorem offset_append_left (left right : Piece) {index : Nat}
    (bound : index ≤ left.length) : offset (left ++ right) index = offset left index := by
  simp [offset, List.take_append_of_le_length bound]

theorem offset_append_right (left right : Piece) (index : Nat) :
    offset (left ++ right) (left.length + index) = size left + offset right index := by
  have all : left.take (left.length + index) = left := List.take_of_length_le (by omega)
  simp [offset, List.take_append, size_append, all]

theorem offset_le_size (piece : Piece) (index : Nat) :
    piece.offset index ≤ piece.size := by
  have whole : piece.size = size (piece.take index ++ piece.drop index) := by
    rw [List.take_append_drop]
  rw [whole, size_append, offset]
  omega

variable {piece left right : Piece}

theorem offset_succ {index : Nat} {cell : Cell} (found : piece[index]? = some cell) :
    piece.offset (index + 1) = piece.offset index + cell.ins.length := by
  rw [offset, List.take_add_one, found]
  simp [offset]

theorem offset_lt_offset {first second : Nat} (less : first < second)
    (bound : second ≤ piece.length) : piece.offset first < piece.offset second := by
  induction second with
  | zero => omega
  | succ second induction =>
    have inside : second < piece.length := by omega
    have step := offset_succ (List.getElem?_eq_getElem inside)
    have hasLength := piece[second].ins.four_le_length
    rcases Nat.lt_succ_iff_lt_or_eq.mp less with less | rfl
    · have before := induction less (by omega)
      omega
    · omega

theorem offset_inj {first second : Nat} (firstBound : first ≤ piece.length)
    (secondBound : second ≤ piece.length)
    (same : piece.offset first = piece.offset second) :
    first = second := by
  rcases Nat.lt_trichotomy first second with less | equal | less
  · exact absurd same (Nat.ne_of_lt (offset_lt_offset less secondBound))
  · exact equal
  · exact absurd same (Nat.ne_of_gt (offset_lt_offset less firstBound))

theorem size_congr
    (same : left.map (·.ins.length) = right.map (·.ins.length)) :
    size left = size right := by
  rw [size, size, same]

theorem offset_congr (same : left.map (·.ins.length) = right.map (·.ins.length))
    (index : Nat) : offset left index = offset right index := by
  apply size_congr
  rw [List.map_take, List.map_take, same]

def placeFrom (address : Nat → Nat) (aims : Aims) : Nat → Piece → List Instruction
  | _, [] => []
  | index, cell :: rest =>
    cell.place address aims index :: placeFrom address aims (index + 1) rest

def realize (aims : Aims) (base : Nat) (piece : Piece) : List Instruction :=
  placeFrom (fun index => base + piece.offset index) aims 0 piece

@[simp] theorem length_placeFrom (address : Nat → Nat) (aims : Aims) (index : Nat)
    (piece : Piece) : (placeFrom address aims index piece).length = piece.length := by
  induction piece generalizing index with
  | nil => rfl
  | cons cell rest induction => simp [placeFrom, induction]

@[simp] theorem length_realize (aims : Aims) (base : Nat) (piece : Piece) :
    (piece.realize aims base).length = piece.length := by
  simp [realize]

theorem placeFrom_append (address : Nat → Nat) (aims : Aims) (index : Nat)
    (left right : Piece) : placeFrom address aims index (left ++ right) =
      placeFrom address aims index left ++ placeFrom address aims
        (index + left.length) right := by
  induction left generalizing index with
  | nil => simp [placeFrom]
  | cons cell rest induction =>
    simp only [List.cons_append, placeFrom, induction, List.length_cons]
    rw [Nat.add_right_comm, Nat.add_assoc]

theorem getElem?_placeFrom (address : Nat → Nat) (aims : Aims) (start index : Nat)
    (piece : Piece) : (placeFrom address aims start piece)[index]? =
      piece[index]?.map (·.place address aims (start + index)) := by
  induction piece generalizing start index with
  | nil => simp [placeFrom]
  | cons cell rest induction =>
    cases index with
    | zero => simp [placeFrom]
    | succ index =>
      simp only [placeFrom, List.getElem?_cons_succ, induction]
      rw [Nat.add_right_comm, Nat.add_assoc]

theorem getElem?_realize (aims : Aims) (base index : Nat) (piece : Piece) :
    (piece.realize aims base)[index]? =
      piece[index]?.map (·.place (fun index => base + piece.offset index) aims index) := by
  simp [realize, getElem?_placeFrom]

/-- Every cell leads to a cell of the piece or to its end, if to any. -/
def Contained (piece : Piece) : Prop :=
  ∀ (index : Nat) (cell : Cell), piece[index]? = some cell →
    cell.LeadsWithin piece.length index

def TakesOnly (ways : Way → Prop) (piece : Piece) : Prop :=
  ∀ cell ∈ piece, ∀ way, cell.Takes way → ways way

theorem Contained.nil : Contained [] := by
  intro index cell found
  simp at found

theorem Contained.append (containedLeft : left.Contained)
    (containedRight : right.Contained) : (left ++ right).Contained := by
  intro index cell found distance leads
  rw [List.getElem?_append] at found
  split at found
  case isTrue inLeft =>
    have bound := containedLeft index cell found distance leads
    simp only [List.length_append]
    omega
  case isFalse inRight =>
    have bound := containedRight _ cell found distance leads
    simp only [List.length_append]
    omega

theorem TakesOnly.append {ways : Way → Prop} (onlyLeft : left.TakesOnly ways)
    (onlyRight : right.TakesOnly ways) : (left ++ right).TakesOnly ways := by
  intro cell member way takes
  rcases List.mem_append.mp member with member | member
  · exact onlyLeft cell member way takes
  · exact onlyRight cell member way takes

theorem TakesOnly.mono {ways more : Way → Prop} (only : piece.TakesOnly ways)
    (weaker : ∀ way, ways way → more way) : piece.TakesOnly more :=
  fun cell member way takes => weaker way (only cell member way takes)

end Piece

namespace Cell

theorem place_congr {address other : Nat → Nat} {aims aims' : Aims}
    {index index' size : Nat} {cell : Cell} (within : cell.LeadsWithin size index)
    (sameAddress : ∀ k, k ≤ size → address k = other (index' - index + k))
    (le : index ≤ index') (bound : index ≤ size)
    (sameAims : ∀ way, cell.Takes way → aims way = aims' way) :
    cell.place address aims index = cell.place other aims' index' := by
  have here : address index = other index' := by
    rw [sameAddress index bound]
    congr 1
    omega
  unfold place
  cases link : cell.link with
  | none => simp only [here]
  | branch distance =>
    have range := within distance (Or.inl link)
    have there := sameAddress ((index : Int) + distance).toNat (by omega)
    have shift : index' - index + ((index : Int) + distance).toNat =
        ((index' : Int) + distance).toNat := by omega
    rw [shift] at there
    simp only [here, there]
  | held distance =>
    have range := within distance (Or.inr link)
    have there := sameAddress ((index : Int) + distance).toNat (by omega)
    have shift : index' - index + ((index : Int) + distance).toNat =
        ((index' : Int) + distance).toNat := by omega
    rw [shift] at there
    simp only [here, there]
  | leave way => simp only [here, sameAims way (Or.inl link)]
  | await way => simp only [here, sameAims way (Or.inr link)]

end Cell

namespace Piece

variable {piece : Piece} {index : Nat} {way : Way}

theorem realize_congr {aims aims' : Aims} {base : Nat} (contained : piece.Contained)
    (sameAims : ∀ cell ∈ piece, ∀ way, cell.Takes way → aims way = aims' way) :
    piece.realize aims base = piece.realize aims' base := by
  apply List.ext_getElem?
  intro index
  rw [getElem?_realize, getElem?_realize]
  cases found : piece[index]? with
  | none => rfl
  | some cell =>
    have bound : index < piece.length := (List.getElem?_eq_some_iff.mp found).1
    simp only [Option.map_some, Option.some.injEq]
    refine Cell.place_congr (contained index cell found) ?_ (Nat.le_refl _)
      (Nat.le_of_lt bound) ?_
    · intro k _
      rw [Nat.sub_self, Nat.zero_add]
    · exact sameAims cell (List.mem_of_getElem? found)

/-- A contained piece inside a longer one is placed as if it stood alone. -/
theorem placeFrom_eq_realize {address : Nat → Nat} {aims : Aims}
    (contained : piece.Contained)
    (sameAddress : ∀ k, k ≤ piece.length →
      address (index + k) = address index + piece.offset k) :
    placeFrom address aims index piece = piece.realize aims (address index) := by
  apply List.ext_getElem?
  intro k
  rw [getElem?_placeFrom, getElem?_realize]
  cases found : piece[k]? with
  | none => rfl
  | some cell =>
    have bound : k < piece.length := (List.getElem?_eq_some_iff.mp found).1
    simp only [Option.map_some, Option.some.injEq]
    symm
    refine Cell.place_congr (contained k cell found) ?_ (by omega) (Nat.le_of_lt bound)
      (fun _ _ => rfl)
    intro position le
    rw [← sameAddress position le]
    congr 1
    omega

theorem realize_append {aims : Aims} {base : Nat} {left right : Piece}
    (containedLeft : left.Contained) (containedRight : right.Contained) :
    (left ++ right).realize aims base =
      left.realize aims base ++ right.realize aims (base + left.size) := by
  rw [realize, placeFrom_append]
  congr 1
  · rw [placeFrom_eq_realize containedLeft]
    · simp
    · intro k le
      simp [offset_append_left left right le]
  · have start : base + offset (left ++ right) (0 + left.length) = base + left.size := by
      rw [Nat.zero_add, offset_append_left left right (Nat.le_refl _), offset_length]
    rw [placeFrom_eq_realize containedRight]
    · rw [start]
    · intro k _
      rw [start, Nat.zero_add, offset_append_right]
      omega

def leaves (way : Way) : Nat → Piece → List Nat
  | _, [] => []
  | index, cell :: rest =>
    if cell.link = .leave way then index :: leaves way (index + 1) rest
    else leaves way (index + 1) rest

def awaits (way : Way) : Nat → Piece → List Nat
  | _, [] => []
  | index, cell :: rest =>
    if cell.link = .await way then index :: awaits way (index + 1) rest
    else awaits way (index + 1) rest

theorem leaves_eq (way : Way) (index : Nat) (piece : Piece) :
    leaves way index piece = piece.findIdxs (·.link = .leave way) index := by
  induction piece generalizing index with
  | nil => rfl
  | cons cell rest induction => simp [leaves, List.findIdxs_cons, induction]

theorem awaits_eq (way : Way) (index : Nat) (piece : Piece) :
    awaits way index piece = piece.findIdxs (·.link = .await way) index := by
  induction piece generalizing index with
  | nil => rfl
  | cons cell rest induction => simp [awaits, List.findIdxs_cons, induction]

@[simp] theorem leaves_append (way : Way) (index : Nat) (left right : Piece) :
    leaves way index (left ++ right) =
      leaves way index left ++ leaves way (index + left.length) right := by
  simp [leaves_eq, List.findIdxs_append]

@[simp] theorem awaits_append (way : Way) (index : Nat) (left right : Piece) :
    awaits way index (left ++ right) =
      awaits way index left ++ awaits way (index + left.length) right := by
  simp [awaits_eq, List.findIdxs_append]

theorem leaves_eq_nil_iff :
    leaves way index piece = [] ↔ ∀ cell ∈ piece, cell.link ≠ .leave way := by
  simp [leaves_eq, List.findIdxs_eq_nil_iff]

theorem awaits_eq_nil_iff :
    awaits way index piece = [] ↔ ∀ cell ∈ piece, cell.link ≠ .await way := by
  simp [awaits_eq, List.findIdxs_eq_nil_iff]

theorem leaves_eq_nil (absent : ∀ cell ∈ piece, ¬ cell.Takes way)
    (index : Nat) : leaves way index piece = [] :=
  leaves_eq_nil_iff.mpr fun cell member link => absent cell member (Or.inl link)

theorem awaits_eq_nil (absent : ∀ cell ∈ piece, ¬ cell.Takes way)
    (index : Nat) : awaits way index piece = [] :=
  awaits_eq_nil_iff.mpr fun cell member link => absent cell member (Or.inr link)

end Piece

def Aims.know (aims : Aims) (way : Way) (target : Nat) : Aims :=
  fun other => if other = way then some target else aims other

namespace Cell

variable {address : Nat → Nat} {aims : Aims} {cell : Cell} {way : Way}

theorem place_leave_know {index target : Nat} (link : cell.link = .leave way)
    (unknown : aims way = none) : cell.place address (aims.know way target) index =
      (cell.place address aims index).aim target := by
  simp [place, link, unknown, Aims.know]

theorem place_await_know {index target : Nat} (link : cell.link = .await way)
    (unknown : aims way = none) : cell.place address (aims.know way target) index =
      (cell.place address aims index).hold target := by
  simp [place, link, unknown, Aims.know]

theorem place_know_of_not_takes {index target : Nat} (absent : ¬ cell.Takes way) :
    cell.place address (aims.know way target) index = cell.place address aims index := by
  unfold place
  cases link : cell.link with
  | none => rfl
  | branch distance => rfl
  | held distance => rfl
  | leave other =>
    have differs : other ≠ way := fun same => absent (Or.inl (same ▸ link))
    simp [Aims.know, differs]
  | await other =>
    have differs : other ≠ way := fun same => absent (Or.inr (same ▸ link))
    simp [Aims.know, differs]

end Cell

namespace Piece

def modifyAll (change : Instruction → Instruction) (sites : List Nat)
    (code : List Instruction) : List Instruction :=
  sites.foldl (fun code site => code.modify site change) code

theorem modify_append_cons (change : Instruction → Instruction) (ins : Instruction)
    (front back : List Instruction) :
    (front ++ ins :: back).modify front.length change = front ++ change ins :: back := by
  induction front with
  | nil => rfl
  | cons first rest induction => simpa using induction

variable {aims : Aims} {exits : Exits} {piece : Piece}

/-- Changing the instructions that wait for aims makes the aims known. -/
theorem modifyAll_findIdxs {address : Nat → Nat} {known : Aims} {waits : Cell → Bool}
    {change : Instruction → Instruction} (piece : Piece)
    (changes : ∀ cell ∈ piece, ∀ index, cell.place address known index =
      if waits cell then change (cell.place address aims index) else cell.place
        address aims index) :
    ∀ (front : List Instruction) (index : Nat),
      modifyAll change (piece.findIdxs waits front.length)
          (front ++ placeFrom address aims index piece) =
        front ++ placeFrom address known index piece := by
  induction piece with
  | nil => intros; rfl
  | cons cell rest induction =>
    intro front index
    have here := changes cell List.mem_cons_self index
    have step :=
      induction (fun other member => changes other (List.mem_cons_of_mem cell member))
      (front ++ [cell.place address known index]) (index + 1)
    simp only [List.findIdxs_cons, placeFrom]
    by_cases waiting : waits cell = true
    · rw [if_pos waiting] at here
      simpa [waiting, modifyAll, modify_append_cons, here] using step
    · rw [if_neg waiting] at here
      simpa [waiting, here] using step

theorem modifyAll_leaves (address : Nat → Nat) {way : Way} (target : Nat)
    (unknown : aims way = none) (piece : Piece)
    (noAwait : ∀ cell ∈ piece, cell.link ≠ .await way) (front : List Instruction) :
    modifyAll (·.aim target) (leaves way front.length piece)
        (front ++ placeFrom address aims 0 piece) =
      front ++ placeFrom address (aims.know way target) 0 piece := by
  rw [leaves_eq]
  refine modifyAll_findIdxs piece (fun cell member index => ?_) front 0
  by_cases link : cell.link = .leave way
  · simp [link, Cell.place_leave_know link unknown]
  · have absent : ¬ cell.Takes way := fun takes => takes.elim link (noAwait cell member)
    simp [link, Cell.place_know_of_not_takes absent]

theorem modifyAll_awaits (address : Nat → Nat) {way : Way} (target : Nat)
    (unknown : aims way = none) (piece : Piece)
    (noLeave : ∀ cell ∈ piece, cell.link ≠ .leave way) (front : List Instruction) :
    modifyAll (·.hold target) (awaits way front.length piece)
        (front ++ placeFrom address aims 0 piece) =
      front ++ placeFrom address (aims.know way target) 0 piece := by
  rw [awaits_eq]
  refine modifyAll_findIdxs piece (fun cell member index => ?_) front 0
  by_cases link : cell.link = .await way
  · simp [link, Cell.place_await_know link unknown]
  · have absent : ¬ cell.Takes way := fun takes => takes.elim (noLeave cell member) link
    simp [link, Cell.place_know_of_not_takes absent]

/-- A piece whose first cell has the given index, with ways replaced by distances. -/
def closeFrom (exits : Exits) : Nat → Piece → Piece
  | _, [] => []
  | index, cell :: rest => cell.close exits index :: closeFrom exits (index + 1) rest

def close (exits : Exits) (piece : Piece) : Piece := closeFrom exits 0 piece

@[simp] theorem length_closeFrom (exits : Exits) (index : Nat) (piece : Piece) :
    (closeFrom exits index piece).length = piece.length := by
  induction piece generalizing index with
  | nil => rfl
  | cons cell rest induction => simp [closeFrom, induction]

@[simp] theorem length_close (exits : Exits) (piece : Piece) :
    (piece.close exits).length = piece.length := length_closeFrom exits 0 piece

theorem getElem?_closeFrom (exits : Exits) (start index : Nat) (piece : Piece) :
    (closeFrom exits start piece)[index]? =
      piece[index]?.map (·.close exits (start + index)) := by
  induction piece generalizing start index with
  | nil => simp [closeFrom]
  | cons cell rest induction =>
    cases index with
    | zero => simp [closeFrom]
    | succ index =>
      simp only [closeFrom, List.getElem?_cons_succ, induction]
      rw [Nat.add_right_comm, Nat.add_assoc]

theorem getElem?_close (exits : Exits) (index : Nat) (piece : Piece) :
    (piece.close exits)[index]? = piece[index]?.map (·.close exits index) := by
  simp [close, getElem?_closeFrom]

theorem map_closeFrom {α : Type} (field : Cell → α)
    (same : ∀ (exits : Exits) (index : Nat) (cell : Cell),
      field (cell.close exits index) = field cell)
    (exits : Exits) (index : Nat) (piece : Piece) :
    (closeFrom exits index piece).map field = piece.map field := by
  induction piece generalizing index with
  | nil => rfl
  | cons cell rest induction => simp [closeFrom, induction, same]

theorem offset_close (exits : Exits) (piece : Piece) (index : Nat) :
    (piece.close exits).offset index = piece.offset index :=
  offset_congr (map_closeFrom (·.ins.length) (by simp) exits 0 piece) index

@[simp] theorem size_close (exits : Exits) (piece : Piece) :
    (piece.close exits).size = piece.size :=
  size_congr (map_closeFrom (·.ins.length) (by simp) exits 0 piece)

/-- Closing a piece changes nothing once it is known where its ways lead. -/
theorem placeFrom_closeFrom {address : Nat → Nat} {aims' : Aims} (piece : Piece)
    (agree : ∀ cell ∈ piece, ∀ way, cell.Takes way →
      match exits way with
      | some target => aims way = some (address target)
      | none => aims' way = aims way) :
    ∀ index, placeFrom address aims' index (closeFrom exits index piece) =
      placeFrom address aims index piece := by
  induction piece with
  | nil => intro _; rfl
  | cons cell rest induction =>
    intro index
    have restAgree :=
      induction (fun other member => agree other (by simp [member])) (index + 1)
    simp only [closeFrom, placeFrom, restAgree, List.cons.injEq, and_true]
    cases link : cell.link with
    | none => simp [Cell.close, Cell.place, link]
    | branch distance => simp [Cell.close, Cell.place, link]
    | held distance => simp [Cell.close, Cell.place, link]
    | leave way =>
      have known := agree cell (by simp) way (Or.inl link)
      cases exit : exits way with
      | none =>
        rw [exit] at known
        simp [Cell.close, Cell.place, link, exit, known]
      | some target =>
        rw [exit] at known
        simp [Cell.close, Cell.place, link, exit, known]
    | await way =>
      have known := agree cell (by simp) way (Or.inr link)
      cases exit : exits way with
      | none =>
        rw [exit] at known
        simp [Cell.close, Cell.place, link, exit, known]
      | some target =>
        rw [exit] at known
        simp [Cell.close, Cell.place, link, exit, known]

theorem realize_close {aims' : Aims} {base : Nat}
    (agree : ∀ cell ∈ piece, ∀ way, cell.Takes way →
      match exits way with
      | some target => aims way = some (base + piece.offset target)
      | none => aims' way = aims way) :
    (piece.close exits).realize aims' base = piece.realize aims base := by
  have sameOffset : (fun index => base + (piece.close exits).offset index) =
      fun index => base + piece.offset index := by
    funext index
    rw [offset_close]
  rw [realize, sameOffset, close, realize]
  exact placeFrom_closeFrom piece agree 0

theorem Contained.close (contained : piece.Contained)
    (range : ∀ cell ∈ piece, ∀ way, cell.Takes way → ∀ target, exits way = some target →
      target ≤ piece.length) :
    (piece.close exits).Contained := by
  intro index cell found distance leads
  rw [getElem?_close] at found
  obtain ⟨original, foundOriginal, rfl⟩ := Option.map_eq_some_iff.mp found
  have member := List.mem_of_getElem? foundOriginal
  rw [length_close]
  cases link : original.link with
  | none => simp [Cell.close, link] at leads
  | branch _ =>
    rw [Cell.close, link] at leads
    exact contained index original foundOriginal distance leads
  | held _ =>
    rw [Cell.close, link] at leads
    exact contained index original foundOriginal distance leads
  | leave way =>
    cases exit : exits way with
    | none => simp [Cell.close, link, exit] at leads
    | some target =>
      have bound := range original member way (Or.inl link) target exit
      simp only [Cell.close, link, exit, Option.elim_some, Link.branch.injEq, reduceCtorEq,
        or_false] at leads
      omega
  | await way =>
    cases exit : exits way with
    | none => simp [Cell.close, link, exit] at leads
    | some target =>
      have bound := range original member way (Or.inr link) target exit
      simp only [Cell.close, link, exit, Option.elim_some, Link.held.injEq, reduceCtorEq,
        false_or] at leads
      omega

theorem mem_closeFrom {index : Nat} {cell : Cell}
    (member : cell ∈ closeFrom exits index piece) :
    ∃ original ∈ piece, ∃ position, cell = original.close exits position := by
  obtain ⟨k, found⟩ := List.getElem?_of_mem member
  rw [getElem?_closeFrom] at found
  obtain ⟨original, foundOriginal, rfl⟩ := Option.map_eq_some_iff.mp found
  exact ⟨original, List.mem_of_getElem? foundOriginal, _, rfl⟩

end Piece

variable {exits : Exits} {index : Nat} {cell : Cell}

theorem Cell.takes_close {way : Way}
    (takes : (cell.close exits index).Takes way) : cell.Takes way ∧ exits way = none := by
  unfold Cell.Takes Cell.close at takes
  cases link : cell.link with
  | none => simp [link] at takes
  | branch _ => simp [link] at takes
  | held _ => simp [link] at takes
  | leave other =>
    cases exit : exits other with
    | none =>
      simp only [link, exit, Option.elim_none, Link.leave.injEq, reduceCtorEq,
        or_false] at takes
      subst takes
      exact ⟨Or.inl link, exit⟩
    | some target => simp [link, exit] at takes
  | await other =>
    cases exit : exits other with
    | none =>
      simp only [link, exit, Option.elim_none, Link.await.injEq, reduceCtorEq,
        false_or] at takes
      subst takes
      exact ⟨Or.inr link, exit⟩
    | some target => simp [link, exit] at takes

theorem Cell.close_of_takes {way : Way}
    (takes : (cell.close exits index).Takes way) : cell.close exits index = cell := by
  obtain ⟨link | link, stays⟩ := takes_close takes <;> simp [close, link, stays]

theorem Cell.close_eq_self
    (absent : ∀ way, cell.Takes way → exits way = none) :
    cell.close exits index = cell := by
  cases link : cell.link with
  | none => simp [close, link]
  | branch _ => simp [close, link]
  | held _ => simp [close, link]
  | leave way => simp [close, link, absent way (Or.inl link)]
  | await way => simp [close, link, absent way (Or.inr link)]

namespace Piece

theorem closeFrom_eq_self {exits : Exits} {piece : Piece}
    (absent : ∀ cell ∈ piece, ∀ way, cell.Takes way → exits way = none) (index : Nat) :
    closeFrom exits index piece = piece := by
  induction piece generalizing index with
  | nil => rfl
  | cons cell rest induction =>
    rw [Piece.closeFrom, induction fun other member =>
      absent other (List.mem_cons_of_mem cell member),
        Cell.close_eq_self (absent cell List.mem_cons_self)]

def symbolsFrom : Nat → Piece → List (Nat × Symbol)
  | _, [] => []
  | index, cell :: rest =>
    (cell.symbol.map (index, ·)).toList ++ symbolsFrom (index + 1) rest

theorem symbolsFrom_append (index : Nat) (left right : Piece) :
    symbolsFrom index (left ++ right) =
      symbolsFrom index left ++ symbolsFrom (index + left.length) right := by
  induction left generalizing index with
  | nil => simp [symbolsFrom]
  | cons cell rest induction =>
    have shift : index + 1 + rest.length = index + (rest.length + 1) := by omega
    simp only [List.cons_append, symbolsFrom, induction, List.length_cons, shift,
      List.append_assoc]

theorem symbolsFrom_closeFrom (exits : Exits) (index position : Nat) (piece : Piece) :
    symbolsFrom index (closeFrom exits position piece) = symbolsFrom index piece := by
  induction piece generalizing index position with
  | nil => rfl
  | cons cell rest induction => simp [closeFrom, symbolsFrom, induction]

end Piece

end GameScript.Emission
