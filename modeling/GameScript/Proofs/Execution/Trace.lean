import GameScript.Proofs.Emission.Balance
import GameScript.Proofs.Execution.Simulation

/-! Emitted code with the stretches of its computations.

Code is traced if its stretches are known before it lies anywhere: they are in
order, they are what their computations emit, and wherever the code lies with
them, something is told of it. -/

namespace GameScript.Execution

open Bytecode Emission Syntax

/-- What is told of code from one position up to another. -/
abbrev Told := (I : Interpretation) → Site I → Nat → Nat → Exits → Prop

def Traced (env : Environment) (computations : List Computation) (told : Told)
    (spot : Spot) (piece : Piece) : Prop :=
  ∃ own, Ordered spot.index (spot.after piece).index own ∧
    own.map (·.computation) = computations ∧
    ∀ (I : Interpretation) (site : Site I) (exits : Exits),
    site.Lies spot piece exits own →
      told I site spot.index (spot.after piece).index exits ∧
        ∀ stretch ∈ own, stretch.IsEmitted env site.pending

def EmittedAt (env : Environment) (computation : Computation) (spot : Spot)
    (piece : Piece) : Prop :=
  ∃ s t types, ((computation.emit).run env).run s = .ok ((), t) ∧ s.spot = spot ∧
    Adds s t piece types

theorem emit_emits (env : Environment) (computation : Computation) :
    EmitsValue env computation.emit fun spot _ piece =>
      piece ≠ [] ∧ EmittedAt env computation spot piece := by
  have pushes : ∃ catching, EmitsPush ⟨False, False⟩ env computation.emit catching := by
    cases computation with
    | value expr => exact ⟨_, emitExpr_pushes expr .ofNothing⟩
    | update v op expr =>
      exact ⟨_, emitOperation_pushes v op (emitExpr_pushes expr .ofNothing)⟩
  obtain ⟨_, pushes⟩ := pushes
  intro s
  refine (pushes s).ran.mono fun _ t emitted => ?_
  obtain ⟨⟨type, piece, adds, pushing⟩, ran⟩ := emitted
  exact ⟨type, piece, adds, pushing.ne_nil, s, t, _, ran, rfl, adds⟩

/-- A cell that leads nowhere outside means the same wherever its piece lies. -/
theorem place_shift {whole piece : Piece} {spot : Spot} {index : Nat} {cell : Cell}
    (found : piece[index]? = some cell) (closed : piece.Closed)
    (contained : piece.Contained)
    (offset : ∀ count ≤ piece.length,
      whole.offset (spot.index + count) = spot.address + piece.offset count) :
    cell.place (fun position => 0 + whole.offset position) noAims (spot.index + index) =
      cell.place (fun position => spot.address + piece.offset position) noAims index := by
  have inside := (List.getElem?_eq_some_iff.mp found).1
  have here := offset index (Nat.le_of_lt inside)
  have leads {distance : Int}
    (link : cell.link = .branch distance ∨ cell.link = .held distance) :
      whole.offset (((spot.index + index : Nat) : Int) + distance).toNat =
        spot.address + piece.offset ((index : Int) + distance).toNat := by
    have within := contained index cell found distance link
    rw [← offset _ (by omega)]
    congr 1
    omega
  cases link : cell.link with
  | none => simp only [Cell.place, link, Nat.zero_add, here]
  | branch distance =>
    simp only [Cell.place, link, Nat.zero_add, here, leads (Or.inl link)]
  | held distance => simp only [Cell.place, link, Nat.zero_add, here, leads (Or.inr link)]
  | leave way => exact absurd (Or.inl link) (closed.not_takes (List.mem_of_getElem? found))
  | await way => exact absurd (Or.inr link) (closed.not_takes (List.mem_of_getElem? found))

def stretchOf (spot : Spot) (piece : Piece) (computation : Computation) : Stretch :=
  ⟨spot.index, (spot.after piece).index, computation⟩

variable {env : Environment} {spot : Spot} {piece left right : Piece}
  {computation : Computation}
  {computations others : List Computation} {told further : Told}

theorem EmittedAt.isEmitted (emitted : EmittedAt env computation spot piece)
    {I : Interpretation} {site : Site I} {exits : Exits} {own : List Stretch}
    (lies : site.Lies spot piece exits own) :
    (stretchOf spot piece computation).IsEmitted env site.pending := by
  obtain ⟨s, t, types, ran, rfl, adds⟩ := emitted
  have growth := adds.growth noAims
  refine ⟨s, t, ran, rfl, growth.size, fun index starts ends => ?_⟩
  obtain ⟨count, rfl⟩ : ∃ count, index = s.code.size + count :=
    Nat.exists_eq_add_of_le starts
  have inside : count < piece.length := Nat.lt_of_add_lt_add_left ends
  have found := List.getElem?_eq_getElem inside
  have there := lies.cells count _ found
  rw [Cell.close_eq_self fun way taken =>
    absurd taken (adds.closed.not_takes (List.mem_of_getElem? found))] at there
  have same :=
    place_shift found adds.closed growth.contained fun _ bound => lies.offset bound
  calc site.pending.code[s.code.size + count]?
      = site.whole[s.code.size + count]?.map
          (·.place (fun position => 0 + site.whole.offset position) noAims
            (s.code.size + count)) := by
        rw [← Array.getElem?_toList, site.isCode.code, Piece.getElem?_realize]
    _ = some (piece[count].place (fun position => s.length + piece.offset position)
          noAims count) :=
        (congrArg (Option.map _) there).trans (congrArg some same)
    _ = t.code[s.code.size + count]? := by
        rw [← Array.getElem?_toList, growth.code, List.getElem?_append_right (by simp),
          Array.length_toList, Nat.add_sub_cancel_left, Piece.getElem?_realize, found]
        rfl

namespace Traced

theorem mono (traced : Traced env computations told spot piece)
    (implies : ∀ I site exits, told I site spot.index (spot.after piece).index exits →
      further I site spot.index (spot.after piece).index exits) :
    Traced env computations further spot piece := by
  obtain ⟨own, ordered, same, tells⟩ := traced
  refine ⟨own, ordered, same, fun I site exits lies => ?_⟩
  obtain ⟨holds, emitted⟩ := tells I site exits lies
  exact ⟨implies I site exits holds, emitted⟩

theorem stretch (nonempty : piece ≠ []) (emitted : EmittedAt env computation spot piece) :
    Traced env [computation]
      (fun I site start stop _ => site.Computes start stop (I.evaluate computation)) spot
      piece := by
  have starts : 0 < piece.length := List.length_pos_iff.mpr nonempty
  refine ⟨[stretchOf spot piece computation], ⟨Nat.le_refl _, ?_, Nat.le_refl _⟩, rfl,
    fun I site exits lies => ⟨?_, ?_⟩⟩
  · show spot.index < spot.index + piece.length
    omega
  · intro stack s
    apply Reaches.single
    have known := lies.known _ (List.mem_singleton_self (stretchOf spot piece computation))
    have found : site.stretches.find? (·.start == spot.index) =
        Option.some (stretchOf spot piece computation) := by
      cases search : site.stretches.find? (·.start == spot.index) with
      | none =>
        rw [List.find?_eq_none] at search
        have missed := search _ known
        simp [stretchOf] at missed
      | some stretch =>
        have start : stretch.start = spot.index := by simpa using List.find?_some search
        have inside :=
          lies.only stretch (List.mem_of_find?_eq_some search) (by omega) (by omega)
        rw [List.mem_singleton.mp inside]
    simp [Interpretation.step, found, stretchOf]
  · intro stretch member
    obtain rfl := List.mem_singleton.mp member
    exact emitted.isEmitted lies

theorem cells (unlinked : ∀ cell ∈ piece, cell.link = .none) :
    Traced env [] (fun _ site start stop _ => stop = start + piece.length ∧
      site.HasAll start piece) spot piece := by
  refine ⟨[], Nat.le_add_right _ _, rfl, fun I site exits lies => ⟨⟨rfl, ?_⟩, by simp⟩⟩
  intro index cell found
  exact lies.cell found (unlinked cell (List.mem_of_getElem? found))

theorem leave (opcode : Opcode) (way : Way) :
    Traced env [] (fun _ site start stop exits =>
      ∃ target, exits way = some target ∧ site.Jumps start stop opcode target)
      spot [Cell.leave opcode way] := by
  refine ⟨[], Nat.le_add_right _ _, rfl, fun I site exits lies => ⟨?_, by simp⟩⟩
  have found : [Cell.leave opcode way][0]? = some (Cell.leave opcode way) := rfl
  obtain ⟨target, exit⟩ := lies.leads found (Or.inl rfl)
  refine ⟨target, exit, rfl, ?_, ?_⟩
  · have there := lies.cells 0 _ found
    simpa [Cell.close, Cell.leave, Cell.branch, exit] using there
  · intro stretch member starts
    have inside := lies.only stretch member (by omega) (by
      rw [List.length_singleton]
      omega)
    simp at inside

theorem redirect (traced : Traced env computations told spot piece) (rename : Way → Way) :
    Traced env computations (fun I site start stop exits =>
      told I site start stop fun way => exits (rename way)) spot
        (piece.redirect rename) := by
  obtain ⟨own, ordered, same, tells⟩ := traced
  have size : (spot.after (piece.redirect rename)).index = (spot.after piece).index := by
    simp [Spot.after]
  rw [Traced, size]
  exact ⟨own, ordered, same, fun I site exits lies => tells I site _ lies.redirect⟩

theorem append (first : Traced env computations told spot left)
    (second : Traced env others further (spot.after left) right) {both : Told}
    (tells : ∀ I site exits, told I site spot.index (spot.after left).index exits →
      further I site (spot.after left).index (spot.after (left ++ right)).index exits →
      both I site spot.index (spot.after (left ++ right)).index exits) :
    Traced env (computations ++ others) both spot (left ++ right) := by
  obtain ⟨one, orderedOne, sameOne, tellsOne⟩ := first
  obtain ⟨two, orderedTwo, sameTwo, tellsTwo⟩ := second
  rw [← Spot.after_append] at orderedTwo tellsTwo
  refine ⟨one ++ two, orderedOne.append orderedTwo,
    by rw [List.map_append, sameOne, sameTwo], fun I site exits lies => ?_⟩
  obtain ⟨holdsOne, emittedOne⟩ := tellsOne I site exits (lies.left orderedTwo)
  obtain ⟨holdsTwo, emittedTwo⟩ := tellsTwo I site exits (lies.right orderedOne)
  exact ⟨tells I site exits holdsOne holdsTwo, List.forall_mem_append.mpr
    ⟨emittedOne, emittedTwo⟩⟩

end Traced

structure Part where
  computations : List Computation
  told : Told

def TracedFrom (env : Environment) (spot : Spot) :
    List Piece → List Piece → List Part → Prop
  | _, [], [] => True
  | front, segment :: rest, part :: parts =>
    Traced env part.computations part.told (spot.after front.flatten) segment ∧
      TracedFrom env spot (front ++ [segment]) rest parts
  | _, _, _ => False

def ToldFrom {I : Interpretation} (site : Site I) (exits : Exits) (spot : Spot) :
    List Piece → List Piece → List Part → Prop
  | _, [], [] => True
  | front, segment :: rest, part :: parts =>
    part.told I site (spot.after front.flatten).index
      (spot.after (front ++ [segment]).flatten).index
        exits ∧
      ToldFrom site exits spot (front ++ [segment]) rest parts
  | _, _, _ => False

variable {segments : List Piece} {parts : List Part}

theorem TracedFrom.flatten {front : List Piece}
    (traced : TracedFrom env spot front segments parts) :
    Traced env (parts.flatMap (·.computations))
      (fun _ site _ _ exits => ToldFrom site exits spot front segments parts)
      (spot.after front.flatten) segments.flatten := by
  induction segments generalizing front parts with
  | nil =>
    cases parts with
    | nil => exact (Traced.cells (by simp)).mono fun _ _ _ _ => trivial
    | cons _ _ => exact False.elim traced
  | cons segment rest induction =>
    cases parts with
    | nil => exact False.elim traced
    | cons part parts =>
      have later := induction traced.2
      have place : spot.after (front ++ [segment]).flatten =
          (spot.after front.flatten).after segment := by
        rw [Piece.flatten_snoc, Spot.after_append]
      rw [place] at later
      refine traced.1.append later fun I site exits holds holdsLater => ⟨?_, holdsLater⟩
      rw [place]
      exact holds

theorem TracedFrom.append {front more : List Piece} {moreParts : List Part}
    (traced : TracedFrom env spot front segments parts)
    (tracedMore : TracedFrom env spot (front ++ segments) more moreParts) :
    TracedFrom env spot front (segments ++ more) (parts ++ moreParts) := by
  induction segments generalizing front parts with
  | nil =>
    cases parts with
    | nil => rwa [List.append_nil] at tracedMore
    | cons _ _ => exact False.elim traced
  | cons segment rest induction =>
    cases parts with
    | nil => exact False.elim traced
    | cons part parts =>
      refine ⟨traced.1, induction traced.2 ?_⟩
      rwa [List.append_assoc]

theorem ToldFrom.get {I : Interpretation} {site : Site I} {exits : Exits}
    {front : List Piece} (holds : ToldFrom site exits spot front segments parts)
    {index : Nat} {part : Part} (found : parts[index]? = some part) :
    part.told I site (spot.after (front ++ segments.take index).flatten).index
      (spot.after (front ++ segments.take (index + 1)).flatten).index exits := by
  induction segments generalizing front parts index with
  | nil =>
    cases parts with
    | nil => simp at found
    | cons _ _ => exact False.elim holds
  | cons segment rest induction =>
    cases parts with
    | nil => simp at found
    | cons first parts =>
      cases index with
      | zero =>
        obtain rfl : first = part := by simpa using found
        rw [List.take_zero, List.append_nil]
        exact holds.1
      | succ index =>
        have later := induction holds.2 (by simpa using found)
        rwa [List.append_assoc, List.append_assoc] at later

/-- Joined segments, given what follows from what is told of them. -/
theorem Traced.join {targets : List (Option Nat)}
    (traced : TracedFrom env spot [] segments parts)
    (tells : ∀ (I : Interpretation) (site : Site I) (exits : Exits),
      ToldFrom site (joined spot targets segments exits) spot [] segments parts →
      told I site spot.index (spot.index + Piece.startOf segments segments.length) exits) :
    Traced env (parts.flatMap (·.computations)) told spot
      (Piece.join (exitsTo targets) segments) := by
  obtain ⟨own, ordered, same, tellsFlat⟩ := traced.flatten
  have size : (spot.after (Piece.join (exitsTo targets) segments)).index =
      spot.index + Piece.startOf segments segments.length := by
    simp [Spot.after, Piece.startOf]
  have flat : (spot.after segments.flatten).index =
      spot.index + Piece.startOf segments segments.length := by
    simp [Spot.after, Piece.startOf]
  rw [Traced, size]
  refine ⟨own, flat ▸ ordered, same, fun I site exits lies => ?_⟩
  obtain ⟨holds, emitted⟩ := tellsFlat I site _ lies.close
  exact ⟨tells I site exits holds, emitted⟩

end GameScript.Execution
