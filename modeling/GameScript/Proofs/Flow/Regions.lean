import GameScript.Proofs.Flow.Closure

/-! The bodies of functions are sealed.

The code of a function stands in the middle of other code.  A branch jumps over
it, and nothing else leads into it or out of it. -/

namespace GameScript.Emission

open Builtin Bytecode

/-- The cell leads to the one so many cells further on, or holds its address. -/
def Cell.LeadsBy (distance : Int) (cell : Cell) : Prop :=
  cell.link = .branch distance ∨ cell.link = .held distance

namespace Piece

theorem getElem?_opened_succ (piece : Piece) (index : Nat) :
    piece.opened[index + 1]? = piece[index + 1]? := by
  cases piece <;> rfl

/-- The cells behind one of them up to another one are the body of a function, over
which the first one jumps. -/
structure Region (piece : Piece) (skip finish : Nat) : Prop where
  skips : ∃ cell, piece[skip]? = some cell ∧ cell.ins.opcode = .branch ∧
    cell.link = .branch ((finish : Int) - skip)
  ends : ∃ last cell, finish = last + 1 ∧ skip < last ∧ piece[last]? = some cell ∧
    cell.ins.opcode = .exit
  closed : ∀ (index : Nat) (cell : Cell), piece[index]? = some cell → skip < index →
    index < finish → ∀ way, ¬ cell.Takes way
  apart : ∀ (index : Nat) (cell : Cell) (distance : Int), piece[index]? = some cell →
    cell.LeadsBy distance →
    (skip < index ∧ index < finish ↔ (skip : Int) < index + distance ∧
      index + distance < finish)

/-- Wherever a body starts there is its region. -/
def Sealed (piece : Piece) : Prop :=
  ∀ (index : Nat) (cell : Cell), piece[index]? = some cell → cell.opensBody = true →
    ∃ skip finish, index = skip + 1 ∧ piece.Region skip finish

namespace Region

variable {piece left right : Piece} {skip finish : Nat}

theorem bound (region : piece.Region skip finish) : finish ≤ piece.length := by
  obtain ⟨last, cell, rfl, -, found, -⟩ := region.ends
  exact (List.getElem?_eq_some_iff.mp found).1

theorem append_left (region : left.Region skip finish) (contained : right.Contained) :
    (left ++ right).Region skip finish where
  skips := by
    obtain ⟨cell, found, skips⟩ := region.skips
    refine ⟨cell, ?_, skips⟩
    rw [List.getElem?_append_left (List.getElem?_eq_some_iff.mp found).1, found]
  ends := by
    obtain ⟨last, cell, isLast, hasBody, found, exits⟩ := region.ends
    refine ⟨last, cell, isLast, hasBody, ?_, exits⟩
    rw [List.getElem?_append_left (List.getElem?_eq_some_iff.mp found).1, found]
  closed := by
    intro index cell found later before
    rw [List.getElem?_append_left (Nat.lt_of_lt_of_le before region.bound)] at found
    exact region.closed index cell found later before
  apart := by
    intro index cell distance found leads
    rw [List.getElem?_append] at found
    split at found
    case isTrue => exact region.apart index cell distance found leads
    case isFalse outside =>
      have within := contained _ cell found distance leads
      have bound := region.bound
      omega

theorem append_right (region : right.Region skip finish) (contained : left.Contained) :
    (left ++ right).Region (left.length + skip) (left.length + finish) where
  skips := by
    obtain ⟨cell, found, opcode, link⟩ := region.skips
    refine ⟨cell, ?_, opcode, ?_⟩
    · rw [List.getElem?_append_right (Nat.le_add_right _ _),
        Nat.add_sub_cancel_left, found]
    · rw [link]
      congr 1
      omega
  ends := by
    obtain ⟨last, cell, rfl, hasBody, found, exits⟩ := region.ends
    refine ⟨left.length + last, cell, by omega, by omega, ?_, exits⟩
    rw [List.getElem?_append_right (Nat.le_add_right _ _), Nat.add_sub_cancel_left, found]
  closed := by
    intro index cell found later before
    rw [List.getElem?_append_right (by omega)] at found
    exact region.closed _ cell found (by omega) (by omega)
  apart := by
    intro index cell distance found leads
    rw [List.getElem?_append] at found
    split at found
    case isTrue inside =>
      have within := contained index cell found distance leads
      omega
    case isFalse outside =>
      have same := region.apart _ cell distance found leads
      omega

/-- Cells may be changed one by one if those inside stay and the others do not lead
inside. -/
theorem map {changed : Piece} (region : piece.Region skip finish)
    (change : Nat → Cell → Cell)
    (isChanged : ∀ index, changed[index]? = piece[index]?.map (change index))
    (same : ∀ index cell, (change index cell).ins = cell.ins ∧
      ∀ distance, cell.LeadsBy distance → (change index cell).link = cell.link)
    (keeps : ∀ index cell, piece[index]? = some cell → (∀ way, ¬ cell.Takes way) →
      (change index cell).link = cell.link)
    (others : ∀ index cell distance, piece[index]? = some cell →
      (change index cell).LeadsBy distance →
      cell.LeadsBy distance ∨ (∃ way, cell.Takes way) ∧
        ¬ ((skip : Int) < index + distance ∧ index + distance < finish)) :
    changed.Region skip finish where
  skips := by
    obtain ⟨cell, found, opcode, link⟩ := region.skips
    exact ⟨_, by rw [isChanged, found]; rfl, by rw [(same skip cell).1, opcode],
      by rw [(same skip cell).2 _ (Or.inl link), link]⟩
  ends := by
    obtain ⟨last, cell, isLast, hasBody, found, exits⟩ := region.ends
    exact ⟨last, _, isLast, hasBody,
      by rw [isChanged, found]; rfl, by rw [(same last cell).1, exits]⟩
  closed := by
    intro index cell found later before way taken
    rw [isChanged] at found
    obtain ⟨old, foundOld, rfl⟩ := Option.map_eq_some_iff.mp found
    have closed := region.closed index old foundOld later before
    rw [Cell.Takes, keeps index old foundOld closed] at taken
    exact closed way taken
  apart := by
    intro index cell distance found leads
    rw [isChanged] at found
    obtain ⟨old, foundOld, rfl⟩ := Option.map_eq_some_iff.mp found
    rcases others index old distance foundOld leads with leads | ⟨⟨way, taken⟩, outside⟩
    · exact region.apart index old distance foundOld leads
    · have outer : ¬ (skip < index ∧ index < finish) := fun inside =>
        region.closed index old foundOld inside.1 inside.2 way taken
      exact iff_of_false outer outside

theorem close {exits : Exits} (region : piece.Region skip finish)
    (outside : ∀ way target, exits way = some target → target ≤ skip ∨ finish ≤ target) :
    (piece.close exits).Region skip finish := by
  refine region.map (fun index cell => cell.close exits index)
    (fun index => getElem?_close exits index piece) ?_ ?_ ?_
  · intro index cell
    refine ⟨by simp, ?_⟩
    rintro distance (link | link) <;> simp [Cell.close, link]
  · intro index cell _ closed
    cases link : cell.link with
    | leave way => exact absurd (Or.inl link) (closed way)
    | await way => exact absurd (Or.inr link) (closed way)
    | _ => simp [Cell.close, link]
  · intro index cell distance _ leads
    cases link : cell.link with
    | none => simp [Cell.close, Cell.LeadsBy, link] at leads
    | branch old => exact Or.inl (by simpa [Cell.close, Cell.LeadsBy, link] using leads)
    | held old => exact Or.inl (by simpa [Cell.close, Cell.LeadsBy, link] using leads)
    | leave way =>
      cases exit : exits way with
      | none => simp [Cell.close, Cell.LeadsBy, link, exit] at leads
      | some target =>
        have isTarget : (target : Int) - index = distance := by
          simpa [Cell.close, Cell.LeadsBy, link, exit] using leads
        have apart := outside way target exit
        exact Or.inr ⟨⟨way, Or.inl link⟩, by omega⟩
    | await way =>
      cases exit : exits way with
      | none => simp [Cell.close, Cell.LeadsBy, link, exit] at leads
      | some target =>
        have isTarget : (target : Int) - index = distance := by
          simpa [Cell.close, Cell.LeadsBy, link, exit] using leads
        have apart := outside way target exit
        exact Or.inr ⟨⟨way, Or.inr link⟩, by omega⟩

theorem redirect (region : piece.Region skip finish) (rename : Way → Way) :
    (piece.redirect rename).Region skip finish := by
  refine region.map (fun _ cell => cell.redirect rename)
    (getElem?_redirect rename piece) ?_ ?_ ?_
  · intro index cell
    refine ⟨by simp, ?_⟩
    rintro distance (link | link) <;> simp [Cell.redirect, link]
  · intro index cell _ closed
    cases link : cell.link with
    | leave way => exact absurd (Or.inl link) (closed way)
    | await way => exact absurd (Or.inr link) (closed way)
    | _ => simp [Cell.redirect, link]
  · intro index cell distance _ leads
    left
    cases link : cell.link with
    | branch old => simpa [Cell.redirect, Cell.LeadsBy, link] using leads
    | held old => simpa [Cell.redirect, Cell.LeadsBy, link] using leads
    | _ => simp [Cell.redirect, Cell.LeadsBy, link] at leads

theorem cons (region : piece.Region skip finish) {cell : Cell}
    (outside : ∀ distance, cell.LeadsBy distance → (finish : Int) < distance) :
    Region (cell :: piece) (skip + 1) (finish + 1) where
  skips := by
    obtain ⟨found, there, opcode, link⟩ := region.skips
    refine ⟨found, there, opcode, ?_⟩
    rw [link]
    congr 1
    omega
  ends := by
    obtain ⟨last, found, rfl, hasBody, there, exits⟩ := region.ends
    exact ⟨last + 1, found, rfl, by omega, there, exits⟩
  closed := by
    intro index found there later before
    cases index with
    | zero => omega
    | succ index => exact region.closed index found there (by omega) (by omega)
  apart := by
    intro index found distance there leads
    cases index with
    | zero =>
      obtain rfl : cell = found := by simpa using there
      have beyond := outside distance leads
      omega
    | succ index =>
      have same := region.apart index found distance there leads
      omega

theorem opened (region : piece.Region skip finish) : piece.opened.Region skip finish := by
  refine region.map
    (fun index cell => if index = 0 then { cell with opensBody := true } else cell)
    ?_ ?_ ?_ ?_
  · intro index
    cases piece with
    | nil => simp [Piece.opened]
    | cons first rest => cases index <;> simp [Piece.opened]
  · intro index cell
    split <;> exact ⟨rfl, fun _ _ => rfl⟩
  · intro index cell _ _
    split <;> rfl
  · intro index cell distance _ leads
    refine Or.inl ?_
    split at leads <;> exact leads

end Region

namespace Sealed

variable {piece left right : Piece}

theorem nil : Sealed [] := fun index cell found => by simp at found

theorem single {cell : Cell} (unopened : cell.opensBody = false) : Sealed [cell] := by
  intro index other found opens
  obtain rfl := List.mem_singleton.mp (List.mem_of_getElem? found)
  rw [unopened] at opens
  cases opens

theorem append (first : left.Sealed) (second : right.Sealed)
    (containedLeft : left.Contained) (containedRight : right.Contained) :
    (left ++ right).Sealed := by
  intro index cell found opens
  rw [List.getElem?_append] at found
  split at found
  case isTrue =>
    obtain ⟨skip, finish, rfl, region⟩ := first index cell found opens
    exact ⟨skip, finish, rfl, region.append_left containedRight⟩
  case isFalse outside =>
    obtain ⟨skip, finish, place, region⟩ := second _ cell found opens
    exact ⟨left.length + skip, left.length + finish,
      by omega, region.append_right containedLeft⟩

theorem redirect (isSealed : piece.Sealed) (rename : Way → Way) :
    (piece.redirect rename).Sealed := by
  intro index cell found opens
  rw [getElem?_redirect] at found
  obtain ⟨old, foundOld, rfl⟩ := Option.map_eq_some_iff.mp found
  obtain ⟨skip, finish, place, region⟩ :=
    isSealed index old foundOld (by simpa using opens)
  exact ⟨skip, finish, place, region.redirect rename⟩

/-- The regions of segments in a row: no segment starts inside of one. -/
theorem flatten {segments : List Piece} (each : ∀ segment ∈ segments, segment.Sealed)
    (contained : ∀ segment ∈ segments, segment.Contained) {index : Nat} {cell : Cell}
    (found : segments.flatten[index]? = some cell) (opens : cell.opensBody = true) :
    ∃ skip finish, index = skip + 1 ∧ Region segments.flatten skip finish ∧
      ∀ position, startOf segments position ≤ skip ∨
      finish ≤ startOf segments position := by
  induction segments generalizing index with
  | nil => simp at found
  | cons segment rest induction =>
    have containedFirst := contained segment List.mem_cons_self
    have containedRest (other : Piece) (member : other ∈ rest) :=
      contained other (List.mem_cons_of_mem segment member)
    have containedFlat : Contained rest.flatten := .flatten containedRest
    have starts (position : Nat) : startOf (segment :: rest) (position + 1) =
        segment.length + startOf rest position := by simp [startOf]
    have first : startOf (segment :: rest) 0 = 0 := by simp [startOf]
    rw [List.flatten_cons, List.getElem?_append] at found
    split at found
    case isTrue =>
      obtain ⟨skip, finish, rfl, region⟩ :=
        each segment List.mem_cons_self index cell found opens
      refine ⟨skip, finish, rfl, region.append_left containedFlat, fun position => ?_⟩
      cases position with
      | zero => omega
      | succ position =>
        have bound := region.bound
        rw [starts]
        omega
    case isFalse outside =>
      obtain ⟨skip, finish, place, region, apart⟩ := induction
        (fun other member => each other (List.mem_cons_of_mem segment member))
        containedRest found
      refine ⟨segment.length + skip, segment.length + finish, by omega,
        region.append_right containedFirst, fun position => ?_⟩
      cases position with
      | zero => omega
      | succ position =>
        have here := apart position
        rw [starts]
        omega

theorem join {exits : Exits} {segments : List Piece}
    (each : ∀ segment ∈ segments, segment.Sealed)
    (contained : ∀ segment ∈ segments, segment.Contained) :
    (Piece.join exits segments).Sealed := by
  intro index cell found opens
  rw [Piece.join, getElem?_close] at found
  obtain ⟨old, foundOld, rfl⟩ := Option.map_eq_some_iff.mp found
  obtain ⟨skip, finish, place, region, apart⟩ :=
    flatten each contained foundOld (by simpa using opens)
  refine ⟨skip, finish, place, region.close fun way target exit => ?_⟩
  obtain ⟨position, -, rfl⟩ := Option.map_eq_some_iff.mp exit
  exact apart position

end Sealed

end Piece

def skipCell (length : Nat) : Cell :=
  { Cell.leave .branch (.ahead 2) with link := .branch (length + 1) }

theorem functionPiece_eq {body : Piece} (closed : body.Closed) :
    functionPiece body = skipCell (body.length + 1) :: (body ++ endOfBody).opened := by
  have inner := (closed.append endOfBody_closed).opened
  have same (exits : Exits) : Piece.closeFrom exits 1 (body ++ endOfBody).opened =
      (body ++ endOfBody).opened :=
    Piece.closeFrom_eq_self
      (fun cell member way taken => absurd taken (inner.not_takes member)) 1
  have size : endOfBody.length = 1 := rfl
  simp [functionPiece, functionSegments, Piece.join, Piece.close, Piece.closeFrom, same,
    Cell.close, Cell.leave, skipCell, exitsTo, Piece.startOf, size, Int.add_assoc]

namespace Piece

theorem Region.function {body : Piece} (closed : body.Closed)
    (contained : body.Contained) :
    Region (skipCell (body.length + 1) :: (body ++ endOfBody).opened) 0
      (body.length + 2) := by
  have isLast : (body ++ endOfBody)[body.length]? = some (Cell.single .exit .int32) := by
    simp [endOfBody]
  refine ⟨⟨_, rfl, rfl, rfl⟩, ?_, ?_, ?_⟩
  · have bound : body.length < (body ++ endOfBody).opened.length := by simp [endOfBody]
    obtain ⟨old, found, same, -⟩ := getElem?_opened (List.getElem?_eq_getElem bound)
    obtain rfl : Cell.single .exit .int32 = old := by simpa [endOfBody] using found
    refine ⟨body.length + 1, _, rfl, by omega, List.getElem?_eq_getElem bound, ?_⟩
    rw [same]
    rfl
  · intro index cell found later _
    obtain ⟨index, rfl⟩ := Nat.exists_eq_succ_of_ne_zero (Nat.ne_of_gt later)
    exact fun way =>
      (closed.append endOfBody_closed).opened.not_takes (List.mem_of_getElem? found)
  · intro index cell distance found leads
    cases index with
    | zero =>
      obtain rfl : skipCell (body.length + 1) = cell := by simpa using found
      have isDistance : (body.length : Int) + 1 + 1 = distance := by
        simpa [Cell.LeadsBy, skipCell] using leads
      omega
    | succ index =>
      -- The last cell of the region leads nowhere, and the others at most there.
      obtain ⟨old, foundOld, same, -⟩ := getElem?_opened found
      rw [same] at leads
      rcases Nat.lt_trichotomy index body.length with inside | rfl | beyond
      · rw [List.getElem?_append_left inside] at foundOld
        have within := contained index old foundOld distance leads
        omega
      · rw [isLast] at foundOld
        obtain rfl := Option.some.inj foundOld
        simp [Cell.LeadsBy, Cell.single] at leads
      · have bound := (List.getElem?_eq_some_iff.mp foundOld).1
        simp only [endOfBody, List.length_append, List.length_singleton] at bound
        omega

theorem Sealed.function {body : Piece} (isSealed : body.Sealed) (closed : body.Closed)
    (contained : body.Contained) : (functionPiece body).Sealed := by
  have whole : (body ++ endOfBody).Sealed :=
    isSealed.append (.single rfl) contained (.unlinked rfl)
  rw [functionPiece_eq closed]
  intro index cell found opens
  match index with
  | 0 =>
    obtain rfl : skipCell (body.length + 1) = cell := by simpa using found
    cases opens
  | 1 => exact ⟨0, body.length + 2, rfl, .function closed contained⟩
  | index + 2 =>
    have rest : (body ++ endOfBody)[index + 1]? = some cell := by
      rw [← getElem?_opened_succ]
      exact found
    obtain ⟨skip, finish, place, region⟩ := whole _ cell rest opens
    have bound := region.bound
    refine ⟨skip + 1, finish + 1, by omega, region.opened.cons fun distance leads => ?_⟩
    have isDistance : (body.length : Int) + 1 + 1 = distance := by
      simpa [Cell.LeadsBy, skipCell] using leads
    simp only [endOfBody, List.length_append, List.length_singleton] at bound
    omega

theorem Sealed.hook {second : Cell} (isSecond : IsSecondAddress second) :
    (hookPiece second).Sealed := by
  intro index cell found opens
  have unopened : ∀ cell ∈ hookPiece second, cell.opensBody = false := by
    rcases isSecond with rfl | rfl <;> decide
  rw [unopened cell (List.mem_of_getElem? found)] at opens
  cases opens

end Piece

theorem Carries.isSealed {demands : Demands} {ways : Ways} {before after : MarkerStack}
    {piece : Piece} {n : Nat} (carried : Carries demands ways before piece after n) :
    piece.Sealed := by
  induction carried with
  | nil => exact .nil
  | cell plain => exact .single plain.2.1
  | stop => exact .single rfl
  | leave => exact .single rfl
  | hook isSecond => exact .hook isSecond
  | append first second sealedFirst sealedSecond =>
    exact sealedFirst.append sealedSecond first.contained second.contained
  | join _ _ sizes carried _ _ _ each =>
    exact .join (forall_segments sizes each)
      (forall_segments sizes fun index segment count found counted =>
        (carried index segment count found counted).contained)
  | redirect rename _ _ _ isSealed => exact isSealed.redirect rename
  | function carried isSealed => exact isSealed.function carried.closed carried.contained
  | handled _ _ sizes carried _ _ _ _ each =>
    exact .join (forall_segments sizes each)
      (forall_segments sizes fun index segment count found counted =>
        (carried index segment count found counted).contained)

end GameScript.Emission

namespace GameScript.Bytecode

open Builtin

/-! Regions of a finished entry. -/

def Within (start finish : Nat) (address : Int) : Prop :=
  (start : Int) ≤ address ∧ address < finish

namespace CodeEntry

/-- The instruction pushes an address that a hook is told. -/
def TellsHook (entry : CodeEntry) (tables : NameTables) (ins : Instruction)
    (address : Int) : Prop :=
  ins.immediateInt? = some address ∧
    ∃ (index : Nat) (call : Instruction), entry.instructions[index]? = some call ∧
      call.calls tables Internal.tryHook = true ∧ 4 ≤ index ∧
      (entry.instructions[index - 4]? = some ins ∨
        entry.instructions[index - 2]? = some ins ∧ address ≠ -1)

/-- A branch leads from just before the region to its end, an exit is its last
instruction, and no branch leads into the region or out of it. -/
structure IsRegion (entry : CodeEntry) (start finish : Nat) : Prop where
  skipped : ∃ ins ∈ entry.instructions, ins.opcode = .branch ∧
    ins.address + ins.length = start ∧ ins.target = finish
  exits : ∃ ins ∈ entry.instructions, ins.opcode = .exit ∧ start ≤ ins.address ∧
    ins.address + ins.length = finish
  branches : ∀ ins ∈ entry.instructions, ins.mayJump = true →
    (Within start finish ins.address ↔ Within start finish ins.target)

/-- Nothing a hook is told leads into the region or out of it. -/
def HooksApart (entry : CodeEntry) (tables : NameTables) (start finish : Nat) : Prop :=
  ∀ ins address, entry.TellsHook tables ins address →
    (Within start finish ins.address ↔ Within start finish address)

/-- One of two regions lies in the other one, or they have no address in common. -/
def Nested (one other : Nat × Nat) : Prop :=
  (one.1 ≤ other.1 ∧ other.2 ≤ one.2) ∨ (other.1 ≤ one.1 ∧ one.2 ≤ other.2) ∨
    one.2 ≤ other.1 ∨ other.2 ≤ one.1

end CodeEntry

end GameScript.Bytecode

namespace GameScript.Emission

open Builtin Bytecode Syntax

theorem Piece.within_iff {piece : Piece} {skip finish position : Nat}
    (bound : finish ≤ piece.length) (hasBody : skip < finish)
    (inside : position ≤ piece.length) :
    Within (piece.offset (skip + 1)) (piece.offset finish) (piece.offset position) ↔
      skip < position ∧ position < finish := by
  have least (one other : Nat) (oneBound : one ≤ piece.length)
    (otherBound : other ≤ piece.length) :
      piece.offset one < piece.offset other ↔ one < other := by
    refine ⟨fun less => ?_, fun less => Piece.offset_lt_offset less otherBound⟩
    refine Nat.lt_of_not_le fun atMost => ?_
    rcases Nat.lt_or_eq_of_le atMost with more | rfl
    · exact absurd (Piece.offset_lt_offset more oneBound) (Nat.lt_asymm less)
    · exact Nat.lt_irrefl _ less
  have low := least position (skip + 1) inside (by omega)
  have high := least position finish inside bound
  unfold Within
  omega

/-- A cell and the one to which it leads lie on the same side of a region. -/
theorem Piece.Region.within_iff {piece : Piece} {skip finish index position : Nat}
    {cell : Cell} (region : piece.Region skip finish) (found : piece[index]? = some cell)
    (leads : cell.LeadsBy ((position : Int) - index)) (bound : position ≤ piece.length) :
    Within (piece.offset (skip + 1)) (piece.offset finish) (piece.offset index) ↔
      Within (piece.offset (skip + 1)) (piece.offset finish) (piece.offset position) := by
  have inside := (List.getElem?_eq_some_iff.mp found).1
  have same := region.apart index cell _ found leads
  have hasBody : skip < finish := by
    obtain ⟨last, -, rfl, more, -⟩ := region.ends
    omega
  rw [Piece.within_iff region.bound hasBody (Nat.le_of_lt inside), same,
    Piece.within_iff region.bound hasBody bound]
  omega

theorem Cell.Becomes.next {cell : Cell} {piece : Piece} {tables : NameTables} {index : Nat}
    {ins : Instruction} (becomes : cell.Becomes piece tables index ins) :
    ins.address + ins.length = piece.offset (index + 1) := by
  rw [becomes.address, becomes.length, Piece.offset_succ becomes.found]

namespace Piece.IsCodeOf

variable {piece : Piece} {pending : PendingEntry} {tables : NameTables}
  {index skip finish : Nat} {cell : Cell}

theorem instruction (isCode : piece.IsCodeOf pending) (tables : NameTables)
    (found : piece[index]? = some cell) :
    ∃ ins, (pending.resolve tables).1.instructions[index]? = some ins ∧
      cell.Becomes piece (pending.resolve tables).2 index ins := by
  obtain ⟨ins, there, -⟩ := (isCode.resolved tables).2 index cell found
  obtain ⟨other, becomes⟩ := isCode.becomes there
  obtain rfl : other = cell := Option.some.inj (becomes.found.symm.trans found)
  exact ⟨ins, there, becomes⟩

theorem isRegion (isCode : piece.IsCodeOf pending) (short : pending.length < 2 ^ 31)
    (leads : ∀ cell ∈ piece, cell.Leads) (region : piece.Region skip finish)
    (tables : NameTables) :
    (pending.resolve tables).1.IsRegion (piece.offset (skip + 1))
    (piece.offset finish) where
  skipped := by
    obtain ⟨cell, found, opcode, link⟩ := region.skips
    obtain ⟨ins, there, becomes⟩ := isCode.instruction tables found
    refine ⟨ins, Array.mem_of_getElem? there, becomes.opcode.trans opcode,
      becomes.next, ?_⟩
    have place : ((skip : Int) + (finish - skip)).toNat = finish := by omega
    rw [becomes.target, isCode.target_place (by omega) skip link, place]
  exits := by
    obtain ⟨last, cell, rfl, more, found, opcode⟩ := region.ends
    obtain ⟨ins, there, becomes⟩ := isCode.instruction tables found
    refine ⟨ins, Array.mem_of_getElem? there, becomes.opcode.trans opcode,
      ?_, becomes.next⟩
    have inside := (List.getElem?_eq_some_iff.mp found).1
    have within := (within_iff region.bound (by omega) (Nat.le_of_lt inside)).mpr
      ⟨more, Nat.lt_succ_self last⟩
    rw [becomes.address]
    exact Int.ofNat_le.mp within.1
  branches := by
    intro ins member jumps
    obtain ⟨index, there⟩ := Array.getElem?_of_mem member
    obtain ⟨cell, becomes⟩ := isCode.becomes there
    obtain ⟨position, bound, target, link⟩ := isCode.branch_target (by omega) becomes
      (leads cell (List.mem_of_getElem? becomes.found)) jumps
    rw [becomes.address, target]
    exact region.within_iff becomes.found (Or.inl link) bound

theorem hooksApart (isCode : piece.IsCodeOf pending) (short : pending.length < 2 ^ 31)
    (hooked : piece.Hooked) (region : piece.Region skip finish) (tables : NameTables) :
    (pending.resolve tables).1.HooksApart (pending.resolve tables).2
    (piece.offset (skip + 1))
      (piece.offset finish) := by
  have pushed {index : Nat} {ins : Instruction} {address : Int}
      (there : (pending.resolve tables).1.instructions[index]? = some ins)
      (holds : ins.immediateInt? = some address) (pushes : piece.PushesAddress index) :
      Within (piece.offset (skip + 1)) (piece.offset finish) ins.address ↔
        Within (piece.offset (skip + 1)) (piece.offset finish) address := by
    obtain ⟨other, cell, position, thereOther, holdsOther, bound, found, link⟩ :=
      isCode.pushes_address short pushes tables
    obtain rfl : ins = other := Option.some.inj (there.symm.trans thereOther)
    obtain rfl : address = piece.offset position :=
      Option.some.inj (holds.symm.trans holdsOther)
    obtain ⟨_, becomes⟩ := isCode.becomes there
    rw [becomes.address]
    exact region.within_iff found (Or.inr link) (Nat.le_of_lt bound)
  rintro ins address ⟨holds, index, call, foundCall, calls, -, there⟩
  obtain ⟨cell, becomes⟩ := isCode.becomes foundCall
  obtain ⟨start, rfl, hooks⟩ := hooked index cell becomes.found (becomes.callsHook calls)
  rcases there with first | ⟨second, told⟩
  · exact pushed first holds hooks.first
  · rcases hooks.second with pushes | shown
    · exact pushed second holds pushes
    · obtain ⟨other, thereOther, refers⟩ := isCode.shows shown tables
      obtain rfl : ins = other := Option.some.inj (second.symm.trans thereOther)
      obtain rfl : ins = _ := refers
      exact absurd (Option.some.inj holds).symm told

/-- Of two regions, the one that is skipped later lies in the other one or behind it. -/
theorem nested_of_lt (isCode : piece.IsCodeOf pending) {one other : Nat × Nat}
    {first second : Nat} {ins later : Instruction}
    (region : (pending.resolve tables).1.IsRegion one.1 one.2)
    (there : (pending.resolve tables).1.instructions[first]? = some ins)
    (starts : ins.address + ins.length = one.1)
    (thereLater : (pending.resolve tables).1.instructions[second]? = some later)
    (opcode : later.opcode = .branch)
    (startsLater : later.address + later.length = other.1)
    (target : later.target = other.2) (less : first < second) :
    CodeEntry.Nested one other := by
  obtain ⟨_, becomes⟩ := isCode.becomes there
  obtain ⟨_, becomesLater⟩ := isCode.becomes thereLater
  have inside := (List.getElem?_eq_some_iff.mp becomesLater.found).1
  have behind : one.1 ≤ later.address := by
    rw [← starts, becomes.next, becomesLater.address]
    rcases Nat.lt_or_eq_of_le (Nat.succ_le_of_lt less) with more | same
    · exact Nat.le_of_lt (Piece.offset_lt_offset more (Nat.le_of_lt inside))
    · exact Nat.le_of_eq (congrArg piece.offset same)
  have same := region.branches later (Array.mem_of_getElem? thereLater)
    (by simp [Instruction.mayJump, opcode])
  rw [target] at same
  unfold Within at same
  unfold CodeEntry.Nested
  omega

theorem nested (isCode : piece.IsCodeOf pending) {one other : Nat × Nat}
    (region : (pending.resolve tables).1.IsRegion one.1 one.2)
    (regionOther : (pending.resolve tables).1.IsRegion other.1 other.2) :
    CodeEntry.Nested one other := by
  obtain ⟨ins, member, opcode, starts, target⟩ := region.skipped
  obtain ⟨later, memberLater, opcodeLater, startsLater, targetLater⟩ := regionOther.skipped
  obtain ⟨first, there⟩ := Array.getElem?_of_mem member
  obtain ⟨second, thereLater⟩ := Array.getElem?_of_mem memberLater
  rcases Nat.lt_trichotomy first second with less | rfl | more
  · exact isCode.nested_of_lt region there starts thereLater opcodeLater startsLater
      targetLater less
  · obtain rfl : ins = later := Option.some.inj (there.symm.trans thereLater)
    unfold CodeEntry.Nested
    omega
  · have nested :=
      isCode.nested_of_lt regionOther thereLater startsLater there opcode
        starts target more
    unfold CodeEntry.Nested at nested ⊢
    omega

theorem child_region (isCode : piece.IsCodeOf pending) (isSealed : piece.Sealed)
    {child : ChildFunction} (member : child ∈ (pending.resolve tables).1.children) :
    ∃ skip finish, child.offset = piece.offset (skip + 1) ∧ piece.Region skip finish := by
  obtain ⟨index, cell, found, opens, offset⟩ := isCode.children child member
  obtain ⟨skip, finish, rfl, region⟩ := isSealed index cell found opens
  exact ⟨skip, finish, offset, region⟩

end Piece.IsCodeOf

/-- The body of every function is a region of its own, and so are the addresses that
hooks are told if the hook is called by no name in the program. -/
theorem emitted_bodies_sealed {env : Environment} {program : Program}
    {pending : PendingEntry} (emitted : emitProgram env program = .ok pending)
    (short : pending.length < 2 ^ 31) (tables : NameTables) :
    (∀ child ∈ (pending.resolve tables).1.children, ∃ finish,
      (pending.resolve tables).1.IsRegion child.offset finish ∧
      (Internal.tryHook ∉ calleesOfBlock program →
        (pending.resolve tables).1.HooksApart
        (pending.resolve tables).2 child.offset finish)) ∧
    (∀ one other finish finishOther,
      (pending.resolve tables).1.IsRegion one finish →
      (pending.resolve tables).1.IsRegion other finishOther →
      CodeEntry.Nested (one, finish) (other, finishOther)) ∧
    ((pending.resolve tables).1.children.map (·.offset)).Nodup := by
  have met :
    Demands.Met ⟨False, Internal.tryHook ∉ calleesOfBlock program⟩
      (mentionsOfBlock program) (calleesOfBlock program) := ⟨False.elim, id⟩
  obtain ⟨piece, rests, isCode⟩ :=
    emitProgram_isCode (emitStmts_rests program [] [] met) emitted
  refine ⟨fun child member => ?_, ?_, isCode.distinct⟩
  · obtain ⟨skip, finish, offset, region⟩ :=
      isCode.child_region (Carries.isSealed rests) member
    rw [offset]
    exact ⟨piece.offset finish, isCode.isRegion short (Carries.leads rests) region tables,
      fun spare => isCode.hooksApart short (Carries.hooked spare rests) region tables⟩
  · intro one other finish finishOther region regionOther
    exact isCode.nested region regionOther

/-- `function f() { return function () { while (true) break; }; }`. -/
def innerFunction : Program :=
  [.function (.mk 0 (some "f") [] false none (.mk 0 [.returnValue 0
    (some (.function (.mk 0 none [] false none
      (.mk 0 [.whileLoop 0 (.literal 0 (.boolean true)) (.breakLoop 0)]))))]))]

theorem innerFunction_sealed :
    ∃ pending, emitProgram bareEnvironment innerFunction = .ok pending ∧
    pending.children.size = 2 ∧
      (∀ child ∈ (pending.resolve {}).1.children, ∃ finish,
        (pending.resolve {}).1.IsRegion child.offset finish ∧
        (pending.resolve {}).1.HooksApart (pending.resolve {}).2 child.offset finish) ∧
      (∀ one other finish finishOther,
        (pending.resolve {}).1.IsRegion one finish →
        (pending.resolve {}).1.IsRegion other finishOther →
        CodeEntry.Nested (one, finish) (other, finishOther)) ∧
      ((pending.resolve {}).1.children.map (·.offset)).Nodup := by
  have addressable : endsWith isAddressable (emitProgram bareEnvironment innerFunction) =
      true := by
    decide +kernel
  have counted :
      (emitProgram bareEnvironment innerFunction).toOption.map (·.children.size) =
      some 2 := by
    decide +kernel
  obtain ⟨pending, emitted, short⟩ := exists_of_endsWith addressable
  obtain ⟨regions, nested, distinct⟩ :=
    emitted_bodies_sealed emitted (of_decide_eq_true short) {}
  rw [emitted] at counted
  refine ⟨pending, emitted, Option.some.inj counted, fun child member =>
    ?_, nested, distinct⟩
  obtain ⟨finish, region, hooks⟩ := regions child member
  exact ⟨finish, region, hooks (by decide)⟩

/-- `function f() {}`, and a call of the hook with an address of its body. -/
def intrudingHook : Program :=
  [.function (.mk 0 (some "f") [] false none ⟨0, []⟩), namedHook (-1) 4]

theorem intrudingHook_not_apart :
    ∃ pending, emitProgram bareEnvironment intrudingHook = .ok pending ∧
      pending.length < 2 ^ 31 ∧ ∃ child ∈ (pending.resolve {}).1.children, ∀ finish,
        (pending.resolve {}).1.IsRegion child.offset finish →
        ¬ (pending.resolve {}).1.HooksApart (pending.resolve {}).2 child.offset
          finish := by
  have intrudes : endsWith (fun pending : PendingEntry => isAddressable pending &&
      (pending.resolve {}).1.children.any (·.offset == 4) &&
      (pending.resolve {}).1.instructions.all
      (fun ins => ins.opcode != .branch || ins.target == 8) &&
      (pending.resolve {}).1.instructions[8]?.any (fun ins =>
        ins.address == 44 && ins.immediateInt? == some 4) &&
      (pending.resolve {}).1.instructions[12]?.any
        (·.calls (pending.resolve {}).2 Internal.tryHook))
      (emitProgram bareEnvironment intrudingHook) = true := by decide +kernel
  obtain ⟨pending, emitted, test⟩ := exists_of_endsWith intrudes
  simp only [Bool.and_eq_true, Array.all_eq_true', List.any_eq_true, Option.any_eq_true,
    Bool.or_eq_true, bne_iff_ne, beq_iff_eq] at test
  obtain ⟨⟨⟨⟨short, child, member, offset⟩, branches⟩, told, atTold, address, value⟩, call,
    atCall, calls⟩ := test
  refine ⟨pending, emitted, of_decide_eq_true short, child, member,
    fun finish region apart => ?_⟩
  obtain ⟨skip, isSkip, isBranch, -, target⟩ := region.skipped
  have ends : ((8 : Int) = finish) :=
    ((branches skip isSkip).resolve_left fun other => other isBranch).symm.trans target
  have tells : (pending.resolve {}).1.TellsHook (pending.resolve {}).2 told 4 :=
    ⟨value, 12, call, atCall, calls, by decide, .inl atTold⟩
  have inside := (apart told 4 tells).mpr ⟨by omega, by omega⟩
  simp only [Within] at inside
  omega

end GameScript.Emission
