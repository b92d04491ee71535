import GameScript.Proofs.Emission.Carry

/-! One stack of values before each cell.

Whatever code carries the stack, one stack can be assigned to each of its cells,
reachable or not, that every way of control agrees with. -/

namespace GameScript.Emission

open Builtin Bytecode

def stackAt (markers : List MarkerStack) (after : MarkerStack) (index : Nat) :
    Option MarkerStack :=
  (markers ++ [after])[index]?

/-- What a cell before which there is a stack does with it. -/
structure Cell.Keeps (ways : Ways) (at? : Nat → Option MarkerStack) (index : Nat)
    (cell : Cell) (stack : MarkerStack) : Prop where
  frame : ∀ below, MarkerStack.apply cell.resolved (stack ++ below) =
    MarkerStack.apply cell.resolved stack ++ below
  next : cell.ins.isTerminator = false →
    at? (index + 1) = some (MarkerStack.apply cell.resolved stack)
  linked : cell.ins.mayJump = true →
    (∃ distance, cell.link = .branch distance) ∨ ∃ way, cell.link = .leave way
  jump : cell.ins.mayJump = true → ∀ distance, cell.link = .branch distance →
    0 ≤ (index : Int) + distance ∧
      at? ((index : Int) + distance).toNat = some (MarkerStack.apply cell.resolved stack)
  leave : cell.ins.mayJump = true → ∀ way, cell.link = .leave way →
    ways way (MarkerStack.apply cell.resolved stack)
  holds : cell.link.holds = true → cell.ins.opcode = .push
  opens : cell.opensBody = true → stack = []
  exits : cell.ins.opcode = .exit → stack = []
  returns : cell.ins.opcode = .ret → stack.length = 1

/-- A `try` starts at one cell and its `catch` block at another one, where the
exception is on the stack. -/
structure Piece.Handles (piece : Piece) (at? : Nat → Option MarkerStack)
    (start handler : Nat) : Prop where
  held : ∃ cell, piece[start + 2]? = some cell ∧ cell.symbol = none ∧
    cell.link = .held ((handler : Int) - (start + 2))
  called : ∃ cell, piece[start + 4]? = some cell ∧ cell.ins.opcode = .call ∧
    cell.symbol = some (.function Internal.tryHook)
  deeper : ∃ stack, at? start = some stack ∧ at? handler = some (false :: stack)

/-- One stack before each cell; the `catch` blocks are told with the `try` that each
belongs to. -/
structure Levels (ways : Ways) (before : MarkerStack) (piece : Piece) (after : MarkerStack)
    (markers : List MarkerStack) (handlers : List (Nat × Nat)) : Prop where
  size : markers.length = piece.length
  start : stackAt markers after 0 = some before
  keeps : ∀ (index : Nat) (cell : Cell) (stack : MarkerStack), piece[index]? = some cell →
    markers[index]? = some stack → cell.Keeps ways (stackAt markers after) index stack
  handled : ∀ pair ∈ handlers, piece.Handles (stackAt markers after) pair.1 pair.2
  increasing : handlers.Pairwise fun one other => one.1 < other.1

namespace Cell

theorem close_holds (exits : Exits) (index : Nat) (cell : Cell) :
    (cell.close exits index).link.holds = cell.link.holds := by
  cases link : cell.link with
  | leave way => cases exit : exits way <;> simp [close, link, exit, Link.holds]
  | await way => cases exit : exits way <;> simp [close, link, exit, Link.holds]
  | _ => simp [close, link, Link.holds]

theorem redirect_holds (rename : Way → Way) (cell : Cell) :
    (cell.redirect rename).link.holds = cell.link.holds := by
  cases link : cell.link <;> simp [redirect, link, Link.holds]

end Cell

namespace Cell.Keeps

variable {ways inner : Ways} {at? other? : Nat → Option MarkerStack} {index : Nat}
  {cell : Cell} {stack : MarkerStack}

theorem shift (keeps : cell.Keeps ways at? index stack) (offset : Nat)
    (same : ∀ position stack, at? position = some stack →
      other? (offset + position) = some stack) :
    cell.Keeps ways other? (offset + index) stack where
  frame := keeps.frame
  next := fun passes => same (index + 1) _ (keeps.next passes)
  linked := keeps.linked
  jump := fun jumps distance link => by
    have there := keeps.jump jumps distance link
    refine ⟨by omega, ?_⟩
    have position : ((offset + index : Nat) + distance).toNat =
        offset + ((index : Int) + distance).toNat := by omega
    rw [position]
    exact same _ _ there.2
  leave := keeps.leave
  holds := keeps.holds
  opens := keeps.opens
  exits := keeps.exits
  returns := keeps.returns

theorem close {exits : Exits} (keeps : cell.Keeps inner at? index stack)
    (agree : ∀ way target stack, exits way = some target → inner way stack →
      at? target = some stack)
    (others : ∀ way stack, exits way = none → inner way stack → ways way stack) :
    (cell.close exits index).Keeps ways at? index stack := by
  have resolved : (cell.close exits index).resolved = cell.resolved := by
    unfold Cell.resolved
    rw [Cell.close_ins, Cell.close_symbol]
  refine ⟨?_, ?_, ?_, ?_, ?_, ?_, ?_, ?_, ?_⟩
  · rw [resolved]
    exact keeps.frame
  · rw [Cell.close_ins, resolved]
    exact keeps.next
  · rw [Cell.close_ins]
    intro jumps
    rcases keeps.linked jumps with ⟨distance, link⟩ | ⟨way, link⟩
    · exact Or.inl ⟨distance, by simp [Cell.close, link]⟩
    · cases exit : exits way with
      | none => exact Or.inr ⟨way, by simp [Cell.close, link, exit]⟩
      | some target =>
        exact Or.inl ⟨(target : Int) - index, by simp [Cell.close, link, exit]⟩
  · rw [Cell.close_ins, resolved]
    intro jumps distance closed
    rcases keeps.linked jumps with ⟨old, link⟩ | ⟨way, link⟩
    · simp only [Cell.close, link, Link.branch.injEq] at closed
      exact closed ▸ keeps.jump jumps old link
    · cases exit : exits way with
      | none => simp [Cell.close, link, exit] at closed
      | some target =>
        simp only [Cell.close, link, exit, Option.elim_some, Link.branch.injEq] at closed
        refine ⟨by omega, ?_⟩
        have position : ((index : Int) + distance).toNat = target := by omega
        rw [position]
        exact agree way target _ exit (keeps.leave jumps way link)
  · rw [Cell.close_ins, resolved]
    intro jumps way closed
    have kept := Cell.takes_close (Or.inl closed)
    rcases keeps.linked jumps with ⟨old, link⟩ | ⟨old, link⟩
    · simp [Cell.close, link] at closed
    · have same : old = way := by
        rcases kept.1 with taken | taken
        · simpa [link] using taken
        · simp [link] at taken
      subst same
      exact others old _ kept.2 (keeps.leave jumps old link)
  · rw [Cell.close_holds, Cell.close_ins]
    exact keeps.holds
  · rw [Cell.close_opensBody]
    exact keeps.opens
  · rw [Cell.close_ins]
    exact keeps.exits
  · rw [Cell.close_ins]
    exact keeps.returns

theorem redirect {rename : Way → Way} (keeps : cell.Keeps inner at? index stack)
    (implies : ∀ way, cell.Takes way → ∀ stack, inner way stack →
      ways (rename way) stack) :
    (cell.redirect rename).Keeps ways at? index stack := by
  have resolved : (cell.redirect rename).resolved = cell.resolved := by
    unfold Cell.resolved
    rw [Cell.redirect_ins, Cell.redirect_symbol]
  refine ⟨?_, ?_, ?_, ?_, ?_, ?_, ?_, ?_, ?_⟩
  · rw [resolved]
    exact keeps.frame
  · rw [Cell.redirect_ins, resolved]
    exact keeps.next
  · rw [Cell.redirect_ins]
    intro jumps
    rcases keeps.linked jumps with ⟨distance, link⟩ | ⟨way, link⟩
    · exact Or.inl ⟨distance, by simp [Cell.redirect, link]⟩
    · exact Or.inr ⟨rename way, Cell.redirect_link_leave.mpr ⟨way, link, rfl⟩⟩
  · rw [Cell.redirect_ins, resolved]
    intro jumps distance redirected
    rcases keeps.linked jumps with ⟨old, link⟩ | ⟨way, link⟩
    · simp only [Cell.redirect, link, Link.branch.injEq] at redirected
      exact redirected ▸ keeps.jump jumps old link
    · simp [Cell.redirect, link] at redirected
  · rw [Cell.redirect_ins, resolved]
    intro jumps way redirected
    obtain ⟨old, link, rfl⟩ := Cell.redirect_link_leave.mp redirected
    exact implies old (Or.inl link) _ (keeps.leave jumps old link)
  · rw [Cell.redirect_holds, Cell.redirect_ins]
    exact keeps.holds
  · rw [Cell.redirect_opensBody]
    exact keeps.opens
  · rw [Cell.redirect_ins]
    exact keeps.exits
  · rw [Cell.redirect_ins]
    exact keeps.returns

end Cell.Keeps

theorem stackAt_of_get {markers : List MarkerStack} {after stack : MarkerStack}
    {index : Nat} (found : markers[index]? = some stack) :
    stackAt markers after index = some stack := by
  have bound : index < markers.length := (List.getElem?_eq_some_iff.mp found).1
  rw [stackAt, List.getElem?_append_left bound, found]

theorem stackAt_length (markers : List MarkerStack) (after : MarkerStack) :
    stackAt markers after markers.length = some after := by
  simp [stackAt]

theorem stackAt_append_right {front back : List MarkerStack}
    {after : MarkerStack} (index : Nat) :
    stackAt (front ++ back) after (front.length + index) = stackAt back after index := by
  rw [stackAt, List.append_assoc, List.getElem?_append_right (Nat.le_add_right _ _),
    Nat.add_sub_cancel_left]
  rfl

theorem stackAt_append_left {front back : List MarkerStack}
    {middle after stack : MarkerStack} {index : Nat}
    (starts : stackAt back after 0 = some middle)
    (found : stackAt front middle index = some stack) :
    stackAt (front ++ back) after index = some stack := by
  rw [stackAt, List.getElem?_append] at found
  split at found
  case isTrue bound =>
    exact stackAt_of_get (by rw [List.getElem?_append_left bound, found])
  case isFalse bound =>
    have last : index = front.length := by
      have inside := (List.getElem?_eq_some_iff.mp found).1
      simp only [List.length_singleton] at inside
      omega
    subst last
    simp only [Nat.sub_self, List.getElem?_cons_zero, Option.some.injEq] at found
    subst found
    exact (stackAt_append_right 0).trans starts

theorem Piece.Handles.shift {piece other : Piece} {at? other? : Nat → Option MarkerStack}
    {start handler : Nat} (handles : piece.Handles at? start handler) (offset : Nat)
    (sameCell : ∀ index cell, piece[index]? = some cell →
      other[offset + index]? = some cell)
    (same : ∀ index stack, at? index = some stack → other? (offset + index) = some stack) :
    other.Handles other? (offset + start) (offset + handler) where
  held := by
    obtain ⟨cell, found, unnamed, link⟩ := handles.held
    refine ⟨cell, sameCell _ cell found, unnamed, ?_⟩
    rw [link]
    congr 1
    omega
  called := by
    obtain ⟨cell, found, calls⟩ := handles.called
    exact ⟨cell, sameCell _ cell found, calls⟩
  deeper := by
    obtain ⟨stack, before, deeper⟩ := handles.deeper
    exact ⟨stack, same _ _ before, same _ _ deeper⟩

namespace Levels

variable {ways inner : Ways} {before middle after : MarkerStack} {piece left right : Piece}
  {markers front back : List MarkerStack} {handlers one other : List (Nat × Nat)}

theorem nil (ways : Ways) (before : MarkerStack) : Levels ways before [] before [] [] where
  size := rfl
  start := rfl
  keeps := by simp
  handled := by simp
  increasing := .nil

theorem single {cell : Cell} (keeps : cell.Keeps ways (stackAt [before] after) 0 before) :
    Levels ways before [cell] after [before] [] where
  size := rfl
  start := rfl
  keeps := by
    intro index other stack found foundStack
    cases index with
    | zero =>
      simp only [List.getElem?_cons_zero, Option.some.injEq] at found foundStack
      subst found foundStack
      exact keeps
    | succ index => simp at found
  handled := by simp
  increasing := .nil

theorem start_lt (levels : Levels ways before piece after markers handlers)
    {pair : Nat × Nat} (member : pair ∈ handlers) : pair.1 < piece.length := by
  obtain ⟨cell, found, -⟩ := (levels.handled pair member).called
  have bound := (List.getElem?_eq_some_iff.mp found).1
  omega

theorem append (first : Levels ways before left middle front one)
    (second : Levels ways middle right after back other) :
    Levels ways before (left ++ right) after (front ++ back)
      (one ++ other.map fun pair => (left.length + pair.1, left.length + pair.2)) := by
  have sameLeft : ∀ index stack, stackAt front middle index = some stack →
      stackAt (front ++ back) after (0 + index) = some stack := by
    intro index stack found
    rw [Nat.zero_add]
    exact stackAt_append_left second.start found
  have sameRight : ∀ index stack, stackAt back after index = some stack →
      stackAt (front ++ back) after (left.length + index) = some stack := by
    intro index stack found
    rw [← first.size, stackAt_append_right, found]
  refine ⟨by simp [first.size, second.size], ?_, ?_, ?_, ?_⟩
  · exact stackAt_append_left second.start first.start
  · intro index cell stack found foundStack
    rw [List.getElem?_append] at found foundStack
    rw [first.size] at foundStack
    split at found
    case isTrue inLeft =>
      rw [if_pos inLeft] at foundStack
      have shifted := (first.keeps index cell stack found foundStack).shift 0 sameLeft
      rwa [Nat.zero_add] at shifted
    case isFalse inRight =>
      rw [if_neg inRight] at foundStack
      have shifted :=
        (second.keeps _ cell stack found foundStack).shift left.length sameRight
      rwa [Nat.add_sub_of_le (Nat.le_of_not_lt inRight)] at shifted
  · intro pair member
    rcases List.mem_append.mp member with member | member
    · have sameCell : ∀ index cell, left[index]? = some cell →
          (left ++ right)[0 + index]? = some cell := by
        intro index cell found
        rw [Nat.zero_add, List.getElem?_append_left
          (List.getElem?_eq_some_iff.mp found).1, found]
      have shifted := (first.handled pair member).shift 0 sameCell sameLeft
      rwa [Nat.zero_add, Nat.zero_add] at shifted
    · obtain ⟨old, oldMember, rfl⟩ := List.mem_map.mp member
      refine (second.handled old oldMember).shift left.length
        (fun index cell found => ?_) sameRight
      rw [List.getElem?_append_right (Nat.le_add_right _ _),
        Nat.add_sub_cancel_left, found]
  · rw [List.pairwise_append]
    refine ⟨first.increasing, ?_, ?_⟩
    · rw [List.pairwise_map]
      exact second.increasing.imp fun less => Nat.add_lt_add_left less left.length
    · intro pair member later laterMember
      obtain ⟨old, -, rfl⟩ := List.mem_map.mp laterMember
      have inside := first.start_lt member
      show pair.1 < left.length + old.1
      omega

/-- Cells may be changed one by one if they keep the stacks and the hooks. -/
theorem map {changed : Piece} (change : Nat → Cell → Cell)
    (levels : Levels inner before piece after markers handlers)
    (isChanged : ∀ index, changed[index]? = piece[index]?.map (change index))
    (keeps : ∀ index cell stack, piece[index]? = some cell → markers[index]? = some stack →
      cell.Keeps inner (stackAt markers after) index stack →
      (change index cell).Keeps ways (stackAt markers after) index stack)
    (same : ∀ index cell, (change index cell).ins = cell.ins ∧
      (change index cell).symbol = cell.symbol ∧
      ∀ distance, cell.link = .held distance → (change index cell).link = .held distance) :
    Levels ways before changed after markers handlers where
  size := by
    rw [levels.size]
    refine Nat.le_antisymm (Nat.le_of_not_lt fun less => ?_)
      (Nat.le_of_not_lt fun less => ?_)
    · have found := isChanged changed.length
      simp [List.getElem?_eq_getElem less] at found
    · have found := isChanged piece.length
      simp [List.getElem?_eq_getElem less] at found
  start := levels.start
  keeps := by
    intro index cell stack found foundStack
    rw [isChanged] at found
    obtain ⟨old, foundOld, rfl⟩ := Option.map_eq_some_iff.mp found
    exact keeps index old stack foundOld foundStack
      (levels.keeps index old stack foundOld foundStack)
  handled := by
    intro pair member
    have handles := levels.handled pair member
    refine ⟨?_, ?_, handles.deeper⟩
    · obtain ⟨cell, found, unnamed, link⟩ := handles.held
      exact ⟨_, by rw [isChanged, found]; rfl, (same _ cell).2.1 ▸ unnamed,
        (same _ cell).2.2 _ link⟩
    · obtain ⟨cell, found, calls, symbol⟩ := handles.called
      exact ⟨_,
        by rw [isChanged, found]; rfl, (same _ cell).1 ▸ calls, (same _ cell).2.1 ▸ symbol⟩
  increasing := levels.increasing

theorem close {exits : Exits} (levels : Levels inner before piece after markers handlers)
    (agree : ∀ way target stack, exits way = some target → inner way stack →
      stackAt markers after target = some stack)
    (others : ∀ way stack, exits way = none → inner way stack → ways way stack) :
    Levels ways before (piece.close exits) after markers handlers := by
  refine levels.map (fun index cell => cell.close exits index)
    (fun index => Piece.getElem?_close exits index piece)
    (fun _ _ _ _ _ keeps => keeps.close agree others) fun index cell =>
    ⟨by simp, by simp, ?_⟩
  intro distance link
  simp [Cell.close, link]

theorem redirect {rename : Way → Way}
    (levels : Levels inner before piece after markers handlers)
    (implies : ∀ cell ∈ piece, ∀ way, cell.Takes way → ∀ stack, inner way stack →
      ways (rename way) stack) :
    Levels ways before (piece.redirect rename) after markers handlers := by
  refine levels.map (fun _ cell => cell.redirect rename)
    (fun index => Piece.getElem?_redirect rename piece index) ?_
    fun index cell => ⟨by simp, by simp, ?_⟩
  · intro index cell stack found _ keeps
    exact keeps.redirect (implies cell (List.mem_of_getElem? found))
  · intro distance link
    simp [Cell.redirect, link]

theorem opened (levels : Levels ways [] piece after markers handlers) :
    Levels ways [] piece.opened after markers handlers := by
  refine levels.map
    (fun index cell => if index = 0 then { cell with opensBody := true } else cell)
    ?_ ?_ ?_
  · intro index
    cases piece with
    | nil => simp [Piece.opened]
    | cons first rest => cases index <;> simp [Piece.opened]
  · intro index cell stack found foundStack keeps
    split
    case isTrue isFirst =>
      subst isFirst
      have empty := (stackAt_of_get foundStack).symm.trans levels.start
      exact { keeps with opens := fun _ => Option.some.inj empty }
    case isFalse => exact keeps
  · intro index cell
    split <;> exact ⟨rfl, rfl, fun _ link => link⟩

end Levels

/-- One stack can be assigned to each cell, so many `catch` blocks starting among them. -/
def Leveled (ways : Ways) (before : MarkerStack) (piece : Piece)
    (after : MarkerStack) (count : Nat) :
    Prop :=
  ∃ markers handlers, Levels ways before piece after markers handlers ∧
    handlers.length = count

namespace Leveled

variable {ways inner : Ways} {before middle after : MarkerStack}
  {piece left right : Piece} {n m : Nat}

theorem append (first : Leveled ways before left middle n)
    (second : Leveled ways middle right after m) :
    Leveled ways before (left ++ right) after (n + m) := by
  obtain ⟨front, one, levels, count⟩ := first
  obtain ⟨back, other, more, moreCount⟩ := second
  exact ⟨_, _, levels.append more, by simp [count, moreCount]⟩

theorem flatten {segments : List Piece} (levels : Nat → MarkerStack) (counts : List Nat)
    (sizes : segments.length = counts.length)
    (each : ∀ (index : Nat) (segment : Piece) (count : Nat), segments[index]? =
      some segment → counts[index]? = some count →
      Leveled ways (levels index) segment (levels (index + 1)) count) :
    ∃ markers handlers,
      Levels ways (levels 0) segments.flatten (levels segments.length) markers handlers ∧
      handlers.length = counts.sum ∧
      ∀ index, index ≤ segments.length →
        stackAt markers (levels segments.length) (Piece.startOf segments index) =
          some (levels index) := by
  induction segments generalizing levels counts with
  | nil =>
    match counts, sizes with
    | [], _ =>
      refine ⟨[], [], .nil ways _, rfl, ?_⟩
      intro index bound
      obtain rfl : index = 0 := by simpa using bound
      rfl
  | cons segment rest induction =>
    match counts, sizes with
    | count :: counts, sizes =>
      obtain ⟨front, one, first, isCount⟩ := each 0 segment count rfl rfl
      obtain ⟨back, other, second, isSum, starts⟩ :=
        induction (fun index => levels (index + 1)) counts (by simpa using sizes)
          fun index => each (index + 1)
      refine ⟨_, _, first.append second, by simp [isCount, isSum], ?_⟩
      intro index bound
      cases index with
      | zero =>
        have before : Piece.startOf (segment :: rest) 0 = 0 := by simp [Piece.startOf]
        rw [before]
        exact (first.append second).start
      | succ index =>
        have position : Piece.startOf (segment :: rest) (index + 1) =
            front.length + Piece.startOf rest index := by
          simp [Piece.startOf, first.size]
        rw [position, List.length_cons, stackAt_append_right]
        exact starts index (by simpa using bound)

end Leveled

private theorem levels_join {ways inner : Ways} {exits : Exits} {segments : List Piece}
    (levels : List MarkerStack) (counts : List Nat)
    (sizes : segments.length = counts.length)
    (each : ∀ (index : Nat) (segment : Piece) (count : Nat), segments[index]? =
      some segment → counts[index]? = some count →
      Leveled inner (levels.getD index []) segment (levels.getD (index + 1) []) count)
    (agree : ∀ way index level, exits way = some index → inner way level →
      index ≤ segments.length ∧ levels.getD index [] = level)
    (others : ∀ way level, exits way = none → inner way level → ways way level) :
    ∃ markers handlers,
      Levels inner (levels.getD 0 []) segments.flatten
        (levels.getD segments.length []) markers handlers ∧
      Levels ways (levels.getD 0 []) (Piece.join exits segments)
        (levels.getD segments.length []) markers handlers ∧
      handlers.length = counts.sum ∧
      ∀ index, index ≤ segments.length →
        stackAt markers (levels.getD segments.length []) (Piece.startOf segments index) =
          some (levels.getD index []) := by
  obtain ⟨markers, handlers, flat, count, starts⟩ :=
    Leveled.flatten (fun index => levels.getD index []) counts sizes each
  refine ⟨markers, handlers, flat, flat.close ?_ ?_, count, starts⟩
  · intro way target stack exit taken
    obtain ⟨index, leads, rfl⟩ := Option.map_eq_some_iff.mp exit
    obtain ⟨bound, rfl⟩ := agree way index stack leads taken
    exact starts index bound
  · intro way stack exit taken
    exact others way stack (Option.map_eq_none_iff.mp exit) taken

private theorem guardedSegments_hook (name : String) (body handler cleanup : Piece) :
    (guardedSegments name body handler cleanup).flatten[2]? =
      some (Cell.pushAwait (.ahead 3)) ∧
    (guardedSegments name body handler cleanup).flatten[4]? =
      some (Cell.call Internal.tryHook 2) :=
  ⟨rfl, rfl⟩

/-- The `catch` block of a `try` is one more than those inside its blocks. -/
private theorem levels_handled {ways inner : Ways} {name : String}
    {body handler cleanup : Piece} {before after : MarkerStack}
    {markers : List MarkerStack} {handlers : List (Nat × Nat)}
    (flat : Levels inner before (guardedSegments name body handler cleanup).flatten after
      markers handlers)
    (joined : Levels ways before
      (Piece.join (exitsTo guardedTargets) (guardedSegments name body handler cleanup))
      after markers
      handlers)
    (deeper : stackAt markers after
      (Piece.startOf (guardedSegments name body handler cleanup) 4) =
      some (false :: before)) :
    Levels ways before
      (Piece.join (exitsTo guardedTargets) (guardedSegments name body handler cleanup))
      after markers
      ((0, Piece.startOf (guardedSegments name body handler cleanup) 4) :: handlers) := by
  have hook := guardedSegments_hook name body handler cleanup
  refine { joined with handled := ?_, increasing := ?_ }
  · intro pair member
    rcases List.mem_cons.mp member with rfl | member
    · exact ⟨⟨_, by rw [Piece.join, Piece.getElem?_close, hook.1]; rfl, rfl, rfl⟩,
        ⟨_, by rw [Piece.join, Piece.getElem?_close, hook.2]; rfl, rfl, rfl⟩,
        ⟨before, joined.start, deeper⟩⟩
    · exact joined.handled pair member
  · refine List.pairwise_cons.mpr ⟨?_, joined.increasing⟩
    intro pair member
    -- a hook at the very start would hold an address that is still waited for
    refine Nat.pos_of_ne_zero fun atStart => ?_
    obtain ⟨cell, found, -, link⟩ := (flat.handled pair member).held
    rw [atStart, hook.1, Option.some.injEq] at found
    rw [← found] at link
    simp [Cell.pushAwait] at link

section

variable {ways : Ways} {before after : MarkerStack}

private theorem leveled_single {cell : Cell}
    (keeps : cell.Keeps ways (stackAt [before] after) 0 before) :
    Leveled ways before [cell] after 0 :=
  ⟨_, _, .single keeps, rfl⟩

theorem Cell.Effect.apply_eq {cell : Cell} (effect : cell.Effect before after) :
    MarkerStack.apply cell.resolved before = after := by
  have alone := effect []
  rwa [List.append_nil, List.append_nil] at alone

private theorem leveled_cell {cell : Cell} (plain : cell.IsPlain)
    (effect : cell.Effect before after) : Leveled ways before [cell] after 0 := by
  obtain ⟨link, closed, passes, stays, -⟩ := plain
  have continues : cell.ins.opcode ≠ .exit ∧ cell.ins.opcode ≠ .ret := by
    simp only [Instruction.isTerminator, Bool.or_eq_false_iff,
      beq_eq_false_iff_ne] at passes
    exact ⟨passes.1.2, passes.2⟩
  refine leveled_single ⟨?_, ?_, ?_, ?_, ?_, ?_, ?_, ?_, ?_⟩
  · intro below
    rw [effect below, effect.apply_eq]
  · intro _
    rw [effect.apply_eq]
    rfl
  · simp [stays]
  · simp [stays]
  · simp [stays]
  · simp [link, Link.holds]
  · simp [closed]
  · exact fun exits => absurd exits continues.1
  · exact fun returns => absurd returns continues.2

private theorem leveled_stop {opcode : Opcode} {type : DataType}
    (stops : opcode = .exit ∨ opcode = .ret)
    (ends : (Cell.single opcode type).Ends before) :
    Leveled ways before [Cell.single opcode type] after 0 := by
  refine leveled_single ⟨?_, ?_, ?_, ?_, ?_, ?_, ?_, ?_, ?_⟩
  · intro below
    rcases ends with ⟨isExit, rfl⟩ | ⟨isRet, one⟩
    · obtain rfl : opcode = .exit := isExit
      rfl
    · obtain rfl : opcode = .ret := isRet
      obtain ⟨value, rfl⟩ := List.length_eq_one_iff.mp one
      rfl
  · rcases stops with rfl | rfl <;> simp [Cell.single, Instruction.isTerminator]
  · rcases stops with rfl | rfl <;> simp [Cell.single, Instruction.mayJump]
  · rcases stops with rfl | rfl <;> simp [Cell.single, Instruction.mayJump]
  · rcases stops with rfl | rfl <;> simp [Cell.single, Instruction.mayJump]
  · simp [Cell.single, Link.holds]
  · simp [Cell.single]
  · intro isExit
    rcases ends with ⟨-, empty⟩ | ⟨isRet, -⟩
    · exact empty
    · simp [isExit] at isRet
  · intro isRet
    rcases ends with ⟨isExit, -⟩ | ⟨-, one⟩
    · simp [isRet] at isExit
    · exact one

private theorem leveled_leave {opcode : Opcode} {way : Way} {level : MarkerStack}
    (jumps : ({ opcode } : Instruction).mayJump = true)
    (effect : (Cell.leave opcode way).Effect before level) (taken : ways way level)
    (passes : opcode ≠ .branch → after = level) :
    Leveled ways before [Cell.leave opcode way] after 0 := by
  have continues : opcode ≠ .exit ∧ opcode ≠ .ret := by
    constructor <;> rintro rfl <;> simp [Instruction.mayJump] at jumps
  refine leveled_single ⟨?_, ?_, ?_, ?_, ?_, ?_, ?_, ?_, ?_⟩
  · intro below
    rw [effect below, effect.apply_eq]
  · intro next
    have isBranch : opcode ≠ .branch := by
      rintro rfl
      simp [Cell.leave, Instruction.isTerminator] at next
    rw [effect.apply_eq, ← passes isBranch]
    rfl
  · exact fun _ => Or.inr ⟨way, rfl⟩
  · simp [Cell.leave]
  · intro _ other link
    simp only [Cell.leave, Link.leave.injEq] at link
    rw [effect.apply_eq, ← link]
    exact taken
  · simp [Cell.leave, Link.holds]
  · simp [Cell.leave]
  · exact fun exits => absurd exits continues.1
  · exact fun returns => absurd returns continues.2

private theorem leveled_await {way : Way} :
    Leveled ways before [Cell.pushAwait way] (false :: before) 0 := by
  refine leveled_single
    ⟨fun _ => rfl, fun _ => rfl, ?_, ?_, ?_, fun _ => rfl, ?_, ?_, ?_⟩ <;>
    simp [Cell.pushAwait, Instruction.mayJump]

private theorem leveled_hook {second : Cell} (isSecond : IsSecondAddress second) :
    Leveled ways before (hookPiece second) before 0 := by
  have pushed (below : MarkerStack) : Leveled ways below [second] (false :: below) 0 := by
    rcases isSecond with rfl | rfl
    · exact leveled_cell ⟨rfl, rfl, rfl, rfl, rfl⟩ fun _ => rfl
    · exact leveled_await
  have converted (below : MarkerStack) :
      Leveled ways (false :: below) hookConversion (false :: below) 0 :=
    leveled_cell ⟨rfl, rfl, rfl, rfl, rfl⟩ fun _ => rfl
  have called : Leveled ways (false :: false :: before) [Cell.call Internal.tryHook 2]
      (false :: before) 0 :=
    leveled_cell ⟨rfl, rfl, rfl, rfl, by decide, rfl⟩ fun _ => rfl
  have discarded :
      Leveled ways (false :: before) [Cell.single .discard .variant] before 0 :=
    leveled_cell ⟨rfl, rfl, rfl, rfl, rfl⟩ fun _ => rfl
  exact ((leveled_await.append (converted before)).append (pushed _)).append
    ((converted _).append (called.append discarded))

/-- Nothing leaves the body of a function, and it ends with nothing on the stack. -/
private theorem leveled_function {body : Piece} {n : Nat}
    (leveled : Leveled (fun _ _ => False) [] body [] n) :
    Leveled ways before (functionPiece body) before n := by
  let inner : Ways := fun way level => way = .ahead 2 ∧ level = before
  obtain ⟨markers, handlers, levels, count⟩ := leveled
  have ending : Leveled inner [] endOfBody before 0 :=
    leveled_stop (Or.inl rfl) (Or.inl ⟨rfl, rfl⟩)
  have inside : Leveled inner [] body [] n := by
    have same : Levels inner [] (body.redirect fun way => way) [] markers handlers :=
      levels.redirect fun _ _ _ _ _ => False.elim
    rw [Piece.redirect_eq_self fun _ _ _ _ => rfl] at same
    exact ⟨markers, handlers, same, count⟩
  obtain ⟨bodyStacks, bodyHandlers, bodyLevels, bodyCount⟩ := inside.append ending
  have skipping : Leveled inner before [Cell.leave .branch (.ahead 2)] [] 0 :=
    leveled_leave rfl (fun _ => rfl) ⟨rfl, rfl⟩ fun differs => absurd rfl differs
  have each : ∀ (index : Nat) (segment : Piece) (count : Nat),
      (functionSegments body)[index]? = some segment → [0, n][index]? = some count →
      Leveled inner ([before, [], before].getD index []) segment
        ([before, [], before].getD (index + 1) []) count := by
    intro index segment count found counted
    match index with
    | 0 =>
      cases found
      cases counted
      exact skipping
    | 1 =>
      cases found
      cases counted
      exact ⟨bodyStacks, bodyHandlers, bodyLevels.opened, bodyCount⟩
    | _ + 2 => simp [functionSegments] at found
  have agree : ∀ way index level, exitsTo [none, none, some 2] way = some index →
    inner way level →
      index ≤ (functionSegments body).length ∧ [before, [], before].getD index [] =
        level := by
    rintro way index level exit ⟨rfl, rfl⟩
    cases exit
    exact ⟨Nat.le_refl _, rfl⟩
  have others : ∀ way level, exitsTo [none, none, some 2] way = none → inner way level →
      ways way level := by
    rintro way level stays ⟨rfl, rfl⟩
    simp [exitsTo] at stays
  obtain ⟨all, allHandlers, -, joined, total, -⟩ :=
    levels_join [before, [], before] [0, n] rfl each agree others
  exact ⟨all, allHandlers, joined, by simpa using total⟩

end

theorem Carries.leveled {demands : Demands} {ways : Ways} {before after : MarkerStack}
    {piece : Piece} {n : Nat} (holds : demands.stack)
    (carried : Carries demands ways before piece after n) :
    Leveled ways before piece after n := by
  induction carried with
  | nil ways level => exact ⟨[], [], .nil ways level, rfl⟩
  | cell plain _ effect => exact leveled_cell plain (effect holds)
  | stop opcode type stops effect => exact leveled_stop stops (effect holds)
  | leave jumps leads effect =>
    exact leveled_leave jumps (effect holds).1 leads (effect holds).2
  | hook isSecond => exact leveled_hook isSecond
  | append _ _ first second => exact first.append second
  | join levels counts sizes _ agree others _ each =>
    obtain ⟨markers, handlers, -, joined, count, -⟩ :=
      levels_join levels counts sizes each agree others
    exact ⟨markers, handlers, joined, count⟩
  | redirect rename _ _ implies carried =>
    obtain ⟨markers, handlers, levels, count⟩ := carried
    exact ⟨markers, handlers, levels.redirect implies, count⟩
  | function _ leveled => exact leveled_function leveled
  | handled levels counts sizes _ agree others _ deeper each =>
    obtain ⟨markers, handlers, flat, joined, count, starts⟩ :=
      levels_join levels counts sizes each agree others
    refine ⟨markers, (0, Piece.startOf _ 4) :: handlers, levels_handled flat joined ?_, ?_⟩
    · exact (starts 4 (by simp [guardedSegments])).trans (by rw [deeper])
    · rw [List.length_cons, count]

end GameScript.Emission
