import GameScript.Proofs.Emission.Carry

/-! Where the cells of emitted code lead to.

By induction on how the code is built: its branches lead to its cells and not to
themselves, and whoever hooks is told addresses of cells. -/

namespace GameScript.Emission

open Builtin Bytecode

namespace Piece

variable {segments : List Piece} {index other position : Nat}
  {segment : Piece} {cell : Cell}

theorem startOf_succ (found : segments[index]? = some segment) :
    startOf segments (index + 1) = startOf segments index + segment.length := by
  rw [startOf, List.take_add_one, found]
  simp [startOf]

theorem startOf_mono (least : index ≤ other) :
    startOf segments index ≤ startOf segments other := by
  have bound := startOf_le (segments.take other) index
  rwa [startOf, List.take_take, Nat.min_eq_left least] at bound

theorem getElem?_flatten (found : segments.flatten[position]? = some cell) :
    ∃ (index : Nat) (segment : Piece) (inner : Nat), segments[index]? = some segment ∧
      segment[inner]? = some cell ∧ position = startOf segments index + inner := by
  induction segments generalizing position with
  | nil => simp at found
  | cons first rest induction =>
    rw [List.flatten_cons, List.getElem?_append] at found
    split at found
    case isTrue => exact ⟨0, first, position, rfl, found, by simp [startOf]⟩
    case isFalse outside =>
      obtain ⟨index, segment, inner, isSegment, inside, place⟩ := induction found
      refine ⟨index + 1, segment, inner, isSegment, inside, ?_⟩
      have start :
          startOf (first :: rest) (index + 1) = first.length + startOf rest index := by
        simp [startOf]
      omega

theorem Strides.ne {exits : Exits} (strides : Strides exits segments)
    (found : segments.flatten[position]? = some cell) {way : Way} {target : Nat}
    (link : cell.link = .leave way) (exit : exits way = some target)
    (bounded : cell.ins.opcode ≠ .leaveWith) : startOf segments target ≠ position := by
  obtain ⟨index, segment, inner, isSegment, inside, rfl⟩ := getElem?_flatten found
  have bound := (List.getElem?_eq_some_iff.mp inside).1
  rcases (strides index segment isSegment cell (List.mem_of_getElem? inside) way target
    exit).1 link bounded with later | earlier
  · have reached : startOf segments (index + 1) ≤ startOf segments target :=
      startOf_mono later
    have next := startOf_succ isSegment
    omega
  · omega

end Piece

theorem functionSegments_strides {body : Piece} (closed : body.Closed) :
    Piece.Strides (exitsTo [none, none, some 2]) (functionSegments body) :=
  Piece.strides
    ⟨Piece.strides_ahead (by simp), (closed.append endOfBody_closed).opened.strides,
    trivial⟩

namespace Piece.Contained

theorem unlinked {cell : Cell} (link : cell.link = .none) : Piece.Contained [cell] :=
  .single fun _ => by simp [link]

theorem hook {second : Cell} (isSecond : IsSecondAddress second) :
    (hookPiece second).Contained := by
  have await (way : Way) : Piece.Contained [Cell.pushAwait way] :=
    .single fun _ => by simp [Cell.pushAwait]
  have pushed : Piece.Contained [second] := by
    rcases isSecond with rfl | rfl
    · exact unlinked rfl
    · exact await _
  exact (((await _).append (unlinked rfl)).append pushed).append
    ((unlinked rfl).append ((unlinked rfl).append (unlinked rfl)))

theorem flatten {segments : List Piece} (each : ∀ segment ∈ segments, segment.Contained) :
    Piece.Contained segments.flatten := by
  induction segments with
  | nil => exact .nil
  | cons segment rest induction =>
    exact (each segment List.mem_cons_self).append
      (induction fun other member => each other (List.mem_cons_of_mem segment member))

theorem join {exits : Exits} {segments : List Piece}
    (each : ∀ segment ∈ segments, segment.Contained) :
    (Piece.join exits segments).Contained := by
  refine (flatten each).close ?_
  intro cell member way taken target exit
  obtain ⟨index, -, rfl⟩ := Option.map_eq_some_iff.mp exit
  exact Piece.startOf_le segments index

end Piece.Contained

namespace Carries

variable {demands : Demands} {ways : Ways} {before after : MarkerStack}
  {piece : Piece} {n : Nat}

theorem contained (carried : Carries demands ways before piece after n) :
    piece.Contained := by
  induction carried with
  | nil => exact .nil
  | cell plain => exact .unlinked plain.1
  | stop => exact .unlinked rfl
  | leave => exact .single fun _ => by simp [Cell.leave]
  | hook isSecond => exact .hook isSecond
  | append _ _ first second => exact first.append second
  | join _ _ sizes _ _ _ _ each => exact .join (forall_segments sizes each)
  | redirect rename _ _ _ contained => exact contained.redirect rename
  | function _ contained =>
    refine .join fun segment member => ?_
    rcases List.mem_cons.mp member with rfl | member
    · exact .single fun _ => by simp [Cell.leave]
    · obtain rfl := List.mem_singleton.mp member
      exact (contained.append (.unlinked rfl)).opened
  | handled _ _ sizes _ _ _ _ _ each => exact .join (forall_segments sizes each)

end Carries

/-- An instruction that jumps leads somewhere, and not to itself unless it ends a
`with`. -/
structure Cell.Leads (cell : Cell) : Prop where
  linked : cell.ins.mayJump = true →
    (∃ distance, cell.link = .branch distance) ∨ ∃ way, cell.link = .leave way
  moves : cell.link = .branch 0 → cell.ins.opcode = .leaveWith

namespace Cell.Leads

variable {cell : Cell}

theorem unlinked (link : cell.link = .none) (stays : cell.ins.mayJump = false) :
    cell.Leads where
  linked := by simp [stays]
  moves := by simp [link]

theorem leave (opcode : Opcode) (way : Way) : (Cell.leave opcode way).Leads where
  linked := fun _ => Or.inr ⟨way, rfl⟩
  moves := nofun

theorem hook {second : Cell} (isSecond : IsSecondAddress second) :
    ∀ cell ∈ hookPiece second, cell.Leads := by
  have await (way : Way) : (Cell.pushAwait way).Leads := ⟨nofun, nofun⟩
  have pushed : second.Leads := by
    rcases isSecond with rfl | rfl
    · exact unlinked rfl rfl
    · exact await _
  simp only [hookPiece, hookConversion, hookCall, callDiscard, List.forall_mem_singleton,
    List.cons_append, List.nil_append, List.forall_mem_cons]
  exact ⟨await _, unlinked rfl rfl, pushed, unlinked rfl rfl, unlinked rfl rfl,
    unlinked rfl rfl⟩

theorem close {exits : Exits} {index : Nat} (leads : cell.Leads)
    (strides : ∀ way target, cell.link = .leave way → exits way = some target →
      cell.ins.opcode ≠ .leaveWith → target ≠ index) : (cell.close exits index).Leads where
  linked := by
    rw [close_ins]
    intro jumps
    rcases leads.linked jumps with ⟨distance, link⟩ | ⟨way, link⟩
    · exact Or.inl ⟨distance, by simp [Cell.close, link]⟩
    · cases exit : exits way with
      | none => exact Or.inr ⟨way, by simp [Cell.close, link, exit]⟩
      | some target =>
        exact Or.inl ⟨(target : Int) - index, by simp [Cell.close, link, exit]⟩
  moves := by
    rw [close_ins]
    intro closed
    cases link : cell.link with
    | none => simp [Cell.close, link] at closed
    | branch distance =>
      obtain rfl : distance = 0 := by simpa [Cell.close, link] using closed
      exact leads.moves link
    | held distance => simp [Cell.close, link] at closed
    | await way => cases exit : exits way <;> simp [Cell.close, link, exit] at closed
    | leave way =>
      cases exit : exits way with
      | none => simp [Cell.close, link, exit] at closed
      | some target =>
        have same :
            (target : Int) - index = 0 := by simpa [Cell.close, link, exit] using closed
        refine Decidable.byContradiction fun bounded => ?_
        exact strides way target link exit bounded (by omega)

theorem redirect {rename : Way → Way} (leads : cell.Leads) :
    (cell.redirect rename).Leads where
  linked := by
    rw [redirect_ins]
    intro jumps
    rcases leads.linked jumps with ⟨distance, link⟩ | ⟨way, link⟩
    · exact Or.inl ⟨distance, by simp [Cell.redirect, link]⟩
    · exact Or.inr ⟨rename way, Cell.redirect_link_leave.mpr ⟨way, link, rfl⟩⟩
  moves := by
    rw [redirect_ins]
    intro redirected
    refine leads.moves ?_
    cases link : cell.link <;> simp_all [Cell.redirect]

end Cell.Leads

theorem Piece.leads_join {exits : Exits} {segments : List Piece}
    (each : ∀ segment ∈ segments, ∀ cell ∈ segment, cell.Leads)
    (strides : Piece.Strides exits segments) :
    ∀ cell ∈ Piece.join exits segments, cell.Leads := by
  intro cell member
  obtain ⟨position, found⟩ := List.getElem?_of_mem member
  rw [join, getElem?_close] at found
  obtain ⟨old, foundOld, rfl⟩ := Option.map_eq_some_iff.mp found
  obtain ⟨segment, isSegment, inside⟩ :=
    List.mem_flatten.mp (List.mem_of_getElem? foundOld)
  refine (each segment isSegment old inside).close fun way target link exit bounded => ?_
  obtain ⟨index, leads, rfl⟩ := Option.map_eq_some_iff.mp exit
  exact strides.ne foundOld link leads bounded

theorem Carries.leads {demands : Demands} {ways : Ways} {before after : MarkerStack}
    {piece : Piece} {n : Nat} (carried : Carries demands ways before piece after n) :
    ∀ cell ∈ piece, cell.Leads := by
  induction carried with
  | nil => exact List.forall_mem_nil _
  | cell plain => simpa using Cell.Leads.unlinked plain.1 plain.2.2.2.1
  | stop opcode type stops =>
    have stays : (Cell.single opcode type).ins.mayJump = false := by
      rcases stops with rfl | rfl <;> rfl
    simpa using Cell.Leads.unlinked rfl stays
  | leave => simpa using Cell.Leads.leave _ _
  | hook isSecond => exact Cell.Leads.hook isSecond
  | append _ _ first second =>
    exact List.forall_mem_append.mpr ⟨first, second⟩
  | join _ _ sizes _ _ _ strides each =>
    exact Piece.leads_join (forall_segments sizes each) strides
  | redirect rename _ _ _ leads =>
    intro cell member
    obtain ⟨old, oldMember, rfl⟩ := Piece.mem_redirect.mp member
    exact (leads old oldMember).redirect
  | function carried leads =>
    refine Piece.leads_join (fun segment member => ?_)
      (functionSegments_strides carried.closed)
    rcases List.mem_cons.mp member with rfl | member
    · simpa using Cell.Leads.leave _ _
    · obtain rfl := List.mem_singleton.mp member
      intro cell opened
      obtain ⟨old, oldMember, same⟩ := Piece.mem_opened opened
      have old : old.Leads := by
        rcases List.mem_append.mp oldMember with inside | inside
        · exact leads old inside
        · rw [List.mem_singleton.mp inside]
          exact .unlinked rfl rfl
      rw [same]
      exact ⟨old.linked, old.moves⟩
  | handled _ _ sizes _ _ _ strides _ each =>
    exact Piece.leads_join (forall_segments sizes each) strides

/-- The cell holds the address of a cell, or waits for one. -/
def Cell.HoldsCell (size index : Nat) (cell : Cell) : Prop :=
  (∃ way, cell.link = .await way) ∨
    ∃ distance, cell.link = .held distance ∧ 0 ≤ (index : Int) + distance ∧
      (index : Int) + distance < size

namespace Piece

/-- An instruction that leads nowhere stands at an index. -/
def Shows (piece : Piece) (index : Nat) (ins : Instruction) (symbol : Option Symbol) :
    Prop :=
  ∃ cell, piece[index]? = some cell ∧ cell.ins = ins ∧ cell.symbol = symbol ∧
    cell.link = .none

def PushesAddress (piece : Piece) (index : Nat) : Prop :=
  ∃ cell, piece[index]? = some cell ∧ cell.ins = (Cell.pushAwait (.ahead 0)).ins ∧
    cell.symbol = none ∧ cell.HoldsCell piece.length index

/-- From an index on a hook is told an address, and a second one or that there is none. -/
structure HooksFrom (piece : Piece) (start : Nat) : Prop where
  first : piece.PushesAddress start
  converted : piece.Shows (start + 1) (Cell.op .convert .int32 .variant).ins none
  second : piece.PushesAddress (start + 2) ∨
    piece.Shows (start + 2) (Cell.pushInt32 (-1)).ins none
  convertedAgain : piece.Shows (start + 3) (Cell.op .convert .int32 .variant).ins none
  called : piece.Shows (start + 4) (Cell.call Internal.tryHook 2).ins
    (some (.function Internal.tryHook))
  discarded : piece.Shows (start + 5) (Cell.single .discard .variant).ins none

/-- The hook is called nowhere else. -/
def Hooked (piece : Piece) : Prop :=
  ∀ (index : Nat) (cell : Cell), piece[index]? = some cell → cell.callsHook = true →
    ∃ start, index = start + 4 ∧ piece.HooksFrom start

theorem HooksFrom.transfer {piece other : Piece} {start moved : Nat}
    (hooks : piece.HooksFrom start)
    (shows : ∀ offset ins symbol, piece.Shows (start + offset) ins symbol →
      other.Shows (moved + offset) ins symbol)
    (pushes : ∀ offset, piece.PushesAddress (start + offset) →
      other.PushesAddress (moved + offset)) :
    other.HooksFrom moved where
  first := pushes 0 hooks.first
  converted := shows 1 _ _ hooks.converted
  second := hooks.second.imp (pushes 2) (shows 2 _ _)
  convertedAgain := shows 3 _ _ hooks.convertedAgain
  called := shows 4 _ _ hooks.called
  discarded := shows 5 _ _ hooks.discarded

namespace Hooked

variable {piece left right : Piece}

theorem single {cell : Cell} (other : cell.callsHook = false) : Hooked [cell] := by
  intro index found isCell calls
  obtain rfl := List.mem_singleton.mp (List.mem_of_getElem? isCell)
  rw [other] at calls
  exact Bool.noConfusion calls

theorem append (first : left.Hooked) (second : right.Hooked) : (left ++ right).Hooked := by
  intro index cell found calls
  rw [List.getElem?_append] at found
  split at found
  case isTrue =>
    obtain ⟨start, rfl, hooks⟩ := first index cell found calls
    refine ⟨start, rfl, hooks.transfer ?_ ?_⟩
    · rintro offset ins symbol ⟨shown, there, same⟩
      refine ⟨shown, ?_, same⟩
      rw [List.getElem?_append_left (List.getElem?_eq_some_iff.mp there).1, there]
    · rintro offset ⟨pushed, there, same, unnamed, holds⟩
      refine ⟨pushed, ?_, same, unnamed, ?_⟩
      · rw [List.getElem?_append_left (List.getElem?_eq_some_iff.mp there).1, there]
      · refine holds.imp id fun ⟨distance, link, low, high⟩ => ⟨distance, link, low, ?_⟩
        rw [List.length_append]
        omega
  case isFalse outside =>
    obtain ⟨start, place, hooks⟩ := second _ cell found calls
    refine ⟨left.length + start, by omega, hooks.transfer ?_ ?_⟩
    · rintro offset ins symbol ⟨shown, there, same⟩
      refine ⟨shown, ?_, same⟩
      rw [Nat.add_assoc, List.getElem?_append_right (Nat.le_add_right _ _),
        Nat.add_sub_cancel_left, there]
    · rintro offset ⟨pushed, there, same, unnamed, holds⟩
      refine ⟨pushed, ?_, same, unnamed, ?_⟩
      · rw [Nat.add_assoc, List.getElem?_append_right (Nat.le_add_right _ _),
          Nat.add_sub_cancel_left, there]
      · refine holds.imp id fun ⟨distance, link, low, high⟩ => ⟨distance, link, ?_, ?_⟩
        · omega
        · rw [List.length_append]
          omega

/-- Cells may be changed one by one if they keep what they show and hold. -/
theorem map {changed : Piece} (hooked : piece.Hooked) (change : Nat → Cell → Cell)
    (isChanged : ∀ index, changed[index]? = piece[index]?.map (change index))
    (length : changed.length = piece.length)
    (same : ∀ index cell, (change index cell).ins = cell.ins ∧
      (change index cell).symbol = cell.symbol ∧
      (cell.link = .none → (change index cell).link = .none))
    (holds : ∀ index cell, piece[index]? = some cell → cell.HoldsCell piece.length index →
      (change index cell).HoldsCell piece.length index) : changed.Hooked := by
  intro index cell found calls
  rw [isChanged] at found
  obtain ⟨old, foundOld, rfl⟩ := Option.map_eq_some_iff.mp found
  have sameCall : (change index old).callsHook = old.callsHook := by
    simp only [Cell.callsHook, (same index old).1, (same index old).2.1]
  obtain ⟨start, rfl, hooks⟩ := hooked index old foundOld (sameCall ▸ calls)
  refine ⟨start, rfl, hooks.transfer ?_ ?_⟩
  · rintro offset ins symbol ⟨shown, there, sameIns, sameSymbol, link⟩
    have kept := same (start + offset) shown
    exact ⟨_, by rw [isChanged, there]; rfl, kept.1.trans sameIns,
      kept.2.1.trans sameSymbol, kept.2.2 link⟩
  · rintro offset ⟨pushed, there, sameIns, unnamed, held⟩
    have kept := same (start + offset) pushed
    refine ⟨_, by rw [isChanged, there]; rfl, kept.1.trans sameIns,
      kept.2.1.trans unnamed, ?_⟩
    rw [length]
    exact holds _ pushed there held

theorem redirect (hooked : piece.Hooked) (rename : Way → Way) :
    (piece.redirect rename).Hooked := by
  refine hooked.map (fun _ cell => cell.redirect rename) (getElem?_redirect rename piece)
    (length_redirect rename piece) (fun _ cell => ⟨by simp, by simp, ?_⟩)
    fun _ cell _ holds => ?_
  · intro link
    simp [Cell.redirect, link]
  · rcases holds with ⟨way, link⟩ | ⟨distance, link, inside⟩
    · exact Or.inl ⟨rename way, Cell.redirect_link_await.mpr ⟨way, link, rfl⟩⟩
    · exact Or.inr ⟨distance, by simp [Cell.redirect, link], inside⟩

theorem close {exits : Exits} (hooked : piece.Hooked)
    (inside : ∀ cell ∈ piece, ∀ way target, cell.link = .await way →
      exits way = some target → target < piece.length) : (piece.close exits).Hooked := by
  refine hooked.map (fun index cell => cell.close exits index)
    (fun index => getElem?_close exits index piece) (length_close exits piece)
    (fun _ cell => ⟨by simp, by simp, fun link => by simp [Cell.close, link]⟩) ?_
  rintro index cell found (⟨way, link⟩ | ⟨distance, link, within⟩)
  · cases exit : exits way with
    | none => exact Or.inl ⟨way, by simp [Cell.close, link, exit]⟩
    | some target =>
      have bound := inside cell (List.mem_of_getElem? found) way target link exit
      exact Or.inr
        ⟨(target : Int) - index, by simp [Cell.close, link, exit], by omega, by omega⟩
  · exact Or.inr ⟨distance, by simp [Cell.close, link], within⟩

theorem opened (hooked : piece.Hooked) : piece.opened.Hooked := by
  refine hooked.map
    (fun index cell => if index = 0 then { cell with opensBody := true } else cell)
    ?_ (length_opened piece) ?_ ?_
  · intro index
    cases piece with
    | nil => simp [Piece.opened]
    | cons first rest => cases index <;> simp [Piece.opened]
  · intro index cell
    split <;> exact ⟨rfl, rfl, id⟩
  · intro index cell _ holds
    split <;> exact holds

theorem join {exits : Exits} {segments : List Piece}
    (each : ∀ segment ∈ segments, segment.Hooked) (strides : Strides exits segments) :
    (Piece.join exits segments).Hooked := by
  have flat : Hooked segments.flatten := by
    clear strides
    induction segments with
    | nil => exact fun index cell found => by simp at found
    | cons segment rest induction =>
      exact (each segment List.mem_cons_self).append
        (induction fun other member => each other (List.mem_cons_of_mem segment member))
  refine flat.close ?_
  intro cell member way target link exit
  obtain ⟨label, leads, rfl⟩ := Option.map_eq_some_iff.mp exit
  obtain ⟨segment, isSegment, inside⟩ := List.mem_flatten.mp member
  obtain ⟨index, found⟩ := List.getElem?_of_mem isSegment
  exact (strides index segment found cell inside way label leads).2 link

theorem hook {second : Cell} (isSecond : IsSecondAddress second) :
    (hookPiece second).Hooked := by
  have other : second.callsHook = false := by rcases isSecond with rfl | rfl <;> rfl
  intro index cell found calls
  have isFourth : index = 4 := by
    match index with
    | 0 | 1 | 3 | 5 =>
      cases found
      cases calls
    | 2 =>
      obtain rfl : second = cell := Option.some.inj found
      rw [other] at calls
      cases calls
    | 4 => rfl
    | _ + 6 => cases found
  subst isFourth
  refine ⟨0, rfl, ⟨_, rfl, rfl, rfl, Or.inl ⟨_, rfl⟩⟩, ⟨_, rfl, rfl, rfl, rfl⟩, ?_,
    ⟨_, rfl, rfl, rfl, rfl⟩, ⟨_, rfl, rfl, rfl, rfl⟩, ⟨_, rfl, rfl, rfl, rfl⟩⟩
  rcases isSecond with rfl | rfl
  · exact Or.inr ⟨_, rfl, rfl, rfl, rfl⟩
  · exact Or.inl ⟨_, rfl, rfl, rfl, Or.inl ⟨_, rfl⟩⟩

end Hooked

end Piece

theorem Carries.hooked {demands : Demands} {ways : Ways} {before after : MarkerStack}
    {piece : Piece} {n : Nat} (holds : demands.hooks)
    (carried : Carries demands ways before piece after n) :
    piece.Hooked := by
  induction carried with
  | nil => exact fun index cell found => by simp at found
  | cell _ spare => exact .single (spare holds)
  | stop opcode type stops => exact .single (by rcases stops with rfl | rfl <;> rfl)
  | @leave _ _ _ _ opcode _ jumps =>
    have other : opcode ≠ .call := by
      rintro rfl
      cases jumps
    exact .single (by simp [Cell.callsHook, Cell.leave, other])
  | hook isSecond => exact .hook isSecond
  | append _ _ first second => exact first.append second
  | join _ _ sizes _ _ _ strides each => exact .join (forall_segments sizes each) strides
  | redirect rename _ _ _ hooked => exact hooked.redirect rename
  | function carried hooked =>
    refine .join (fun segment member => ?_) (functionSegments_strides carried.closed)
    rcases List.mem_cons.mp member with rfl | member
    · exact .single rfl
    · obtain rfl := List.mem_singleton.mp member
      exact (hooked.append (.single rfl)).opened
  | handled _ _ sizes _ _ _ strides _ each =>
    exact .join (forall_segments sizes each) strides

end GameScript.Emission
