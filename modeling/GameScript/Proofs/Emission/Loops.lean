import GameScript.Proofs.Emission.Operands

/-! Statements inside loops.

A statement may leave the innermost `break` target and the innermost loop; its
branches wait in the contexts of the open loops. -/

namespace GameScript.Emission

open Bytecode Number Syntax

def continueAim (loops : List LoopContext) : Option Nat :=
  (continueLoop? loops).bind (·.2.continueTarget)

def aimsOf (loops : List LoopContext) : Aims
  | .continueLoop => continueAim loops
  | _ => none

def noteBreaks (sites : List Nat) : List LoopContext → List LoopContext
  | [] => []
  | context :: outer =>
    { context with
      breaks := ⟨context.breaks.sites ++ sites⟩
      breakUsed := context.breakUsed || !sites.isEmpty } :: outer

def LoopContext.noteContinues (context : LoopContext) (sites : List Nat) : LoopContext :=
  match context.continueTarget with
  | some _ => context
  | none => { context with continues := ⟨context.continues.sites ++ sites⟩ }

def noteContinues (sites : List Nat) : List LoopContext → List LoopContext
  | [] => []
  | context :: outer =>
    match context.kind with
    | .switch _ => context :: noteContinues sites outer
    | _ => context.noteContinues sites :: outer

/-- The open loops after a piece has been emitted from an index on. -/
def note (start : Nat) (piece : Piece) (loops : List LoopContext) : List LoopContext :=
  noteContinues (piece.leaves .continueLoop start)
    (noteBreaks (piece.leaves .breakLoop start) loops)

def Emitter.kinds (s : Emitter) : List LoopKind := s.loops.map (·.kind)

/-- The open loops from the innermost one on that `continue` can refer to. -/
def beyondSwitches : List LoopKind → List LoopKind
  | .switch _ :: outer => beyondSwitches outer
  | kinds => kinds

section Notes

variable (loops : List LoopContext)

@[simp] theorem noteBreaks_none : noteBreaks [] loops = loops := by
  cases loops <;> simp [noteBreaks]

@[simp] theorem LoopContext.noteContinues_none (context : LoopContext) :
    context.noteContinues [] = context := by
  unfold LoopContext.noteContinues
  split <;> simp

@[simp] theorem noteContinues_none : noteContinues [] loops = loops := by
  induction loops with
  | nil => rfl
  | cons context outer induction =>
    rw [noteContinues]
    split
    · rw [induction]
    · rw [LoopContext.noteContinues_none]

theorem noteBreaks_append (first second : List Nat) :
    noteBreaks second (noteBreaks first loops) = noteBreaks (first ++ second) loops := by
  cases loops with
  | nil => rfl
  | cons context outer => cases first <;> simp [noteBreaks]

theorem LoopContext.noteContinues_append (context : LoopContext)
    (first second : List Nat) :
    (context.noteContinues first).noteContinues second =
      context.noteContinues (first ++ second) := by
  cases target : context.continueTarget with
  | some _ => simp [LoopContext.noteContinues, target]
  | none => simp [LoopContext.noteContinues, target]

@[simp] theorem LoopContext.noteContinues_kind (context : LoopContext) (sites : List Nat) :
    (context.noteContinues sites).kind = context.kind := by
  unfold LoopContext.noteContinues
  split <;> rfl

theorem noteContinues_append (first second : List Nat) :
    noteContinues second (noteContinues first loops) =
      noteContinues (first ++ second) loops := by
  induction loops with
  | nil => rfl
  | cons context outer induction =>
    cases kind : context.kind <;>
      simp [noteContinues, kind, induction, LoopContext.noteContinues_append]

theorem noteBreaks_noteContinues (breaks continues : List Nat) :
    noteBreaks breaks (noteContinues continues loops) =
      noteContinues continues (noteBreaks breaks loops) := by
  cases loops with
  | nil => rfl
  | cons context outer =>
    cases kind : context.kind <;> cases target : context.continueTarget <;>
      simp [noteContinues, noteBreaks, LoopContext.noteContinues, kind, target]

theorem note_append (start : Nat) (left right : Piece) :
    note (start + left.length) right (note start left loops) =
      note start (left ++ right) loops := by
  simp only [note, Piece.leaves_append]
  rw [noteBreaks_noteContinues, noteBreaks_append, noteContinues_append]

theorem note_of_not_takes {start : Nat} {piece : Piece}
    (breaks : ∀ cell ∈ piece, ¬ cell.Takes .breakLoop)
    (continues : ∀ cell ∈ piece, ¬ cell.Takes .continueLoop) :
    note start piece loops = loops := by
  rw [note, Piece.leaves_eq_nil breaks, Piece.leaves_eq_nil continues, noteBreaks_none,
    noteContinues_none]

theorem note_append_of_not_takes {start : Nat} {left right : Piece}
    (breaks : ∀ cell ∈ right, ¬ cell.Takes .breakLoop)
    (continues : ∀ cell ∈ right, ¬ cell.Takes .continueLoop) :
    note start (left ++ right) loops = note start left loops := by
  rw [← note_append, note_of_not_takes _ breaks continues]

theorem kinds_noteBreaks (sites : List Nat) :
    (noteBreaks sites loops).map (·.kind) = loops.map (·.kind) := by
  cases loops <;> rfl

theorem kinds_noteContinues (sites : List Nat) :
    (noteContinues sites loops).map (·.kind) = loops.map (·.kind) := by
  induction loops with
  | nil => rfl
  | cons context outer induction =>
    rw [noteContinues]
    split
    · simp [induction]
    · simp

theorem kinds_note (start : Nat) (piece : Piece) :
    (note start piece loops).map (·.kind) = loops.map (·.kind) := by
  rw [note, kinds_noteContinues, kinds_noteBreaks]

theorem continueAim_noteBreaks (sites : List Nat) :
    continueAim (noteBreaks sites loops) = continueAim loops := by
  cases loops with
  | nil => rfl
  | cons context outer =>
    cases kind : context.kind <;> simp [noteBreaks, continueAim, continueLoop?, kind]

theorem LoopContext.noteContinues_continueTarget (context : LoopContext)
    (sites : List Nat) :
    (context.noteContinues sites).continueTarget = context.continueTarget := by
  cases target : context.continueTarget <;> simp [LoopContext.noteContinues, target]

theorem continueAim_noteContinues (sites : List Nat) :
    continueAim (noteContinues sites loops) = continueAim loops := by
  unfold continueAim
  induction loops with
  | nil => rfl
  | cons context outer induction =>
    cases kind : context.kind with
    | switch type =>
      simp only [noteContinues, kind, continueLoop?, Option.bind_map]
      simpa [Function.comp_def] using induction
    | plain | withLoop | repeatLoop =>
      simp [noteContinues, kind, continueLoop?, LoopContext.noteContinues_continueTarget]

theorem continueAim_note (start : Nat) (piece : Piece) :
    continueAim (note start piece loops) = continueAim loops := by
  rw [note, continueAim_noteContinues, continueAim_noteBreaks]

end Notes

/-- The ways that a statement inside loops of the given kinds can take. -/
def Offers (kinds : List LoopKind) : Way → Prop
  | .breakLoop => kinds ≠ []
  | .continueLoop => beyondSwitches kinds ≠ []
  | .ahead _ => False

/-- All branches that lead out of the piece leave loops. -/
def Piece.Settled (kinds : List LoopKind) (piece : Piece) : Prop :=
  ∀ cell ∈ piece, ∀ way, cell.Takes way → cell.link = .leave way ∧ Offers kinds way

structure Lays (s t : Emitter) (piece : Piece) : Prop where
  growth : Extends (aimsOf s.loops) s t piece
  settled : piece.Settled s.kinds
  types : t.types = s.types
  loops : t.loops = note s.code.size piece s.loops
  frames : t.frames = s.frames

namespace Piece

theorem Closed.settled {piece : Piece} (closed : piece.Closed) (kinds : List LoopKind) :
    piece.Settled kinds :=
  fun _ member _ takes => absurd takes (closed.not_takes member)

variable {kinds : List LoopKind}

theorem Settled.append {left right : Piece} (settledLeft : left.Settled kinds)
    (settledRight : right.Settled kinds) : (left ++ right).Settled kinds := by
  intro cell member
  rcases List.mem_append.mp member with member | member
  · exact settledLeft cell member
  · exact settledRight cell member

theorem Settled.closed {piece : Piece} (settled : piece.Settled []) : piece.Closed := by
  intro cell member way takes
  have offered := (settled cell member way takes).2
  cases way with
  | breakLoop => exact offered rfl
  | continueLoop => exact offered rfl
  | ahead _ => exact offered

theorem Settled.not_ahead {piece : Piece} (settled : piece.Settled kinds)
    {cell : Cell} (member : cell ∈ piece) {label : Nat} : ¬ cell.Takes (.ahead label) :=
  fun takes => (settled cell member _ takes).2

theorem Settled.leaves_ahead {piece : Piece} (settled : piece.Settled kinds)
    (label index : Nat) : leaves (.ahead label) index piece = [] :=
  leaves_eq_nil (fun _ member => settled.not_ahead member) index

theorem Closed.leaves {piece : Piece} (closed : piece.Closed) (way : Way) (index : Nat) :
    leaves way index piece = [] :=
  leaves_eq_nil (fun _ member => closed.not_takes member) index

theorem Closed.awaits {piece : Piece} (closed : piece.Closed) (way : Way) (index : Nat) :
    awaits way index piece = [] :=
  awaits_eq_nil (fun _ member => closed.not_takes member) index

theorem Settled.awaits {piece : Piece} (settled : piece.Settled kinds)
    (way : Way) (index : Nat) : awaits way index piece = [] := by
  rw [awaits_eq_nil_iff]
  intro cell member link
  have leave := (settled cell member way (Or.inr link)).1
  rw [link] at leave
  exact Link.noConfusion leave

end Piece

namespace Lays

variable {s t u : Emitter} {left right piece : Piece} {types : List DataType}

theorem ofAdds (adds : Adds s t piece s.types) : Lays s t piece where
  growth := adds.growth _
  settled := adds.closed.settled _
  types := adds.types
  loops := by
    rw [note_of_not_takes, adds.loops]
    · exact fun _ member => adds.closed.not_takes member
    · exact fun _ member => adds.closed.not_takes member
  frames := adds.frames

theorem kinds (lays : Lays s t piece) : t.kinds = s.kinds := by
  rw [Emitter.kinds, lays.loops, kinds_note, Emitter.kinds]

theorem params (lays : Lays s t piece) : t.params = s.params :=
  Emitter.params_eq_of_frames lays.frames

theorem refl (s : Emitter) : Lays s s [] := ofAdds (Adds.refl s)

theorem aims (lays : Lays s t piece) : aimsOf t.loops = aimsOf s.loops := by
  funext way
  cases way with
  | continueLoop => rw [aimsOf, aimsOf, lays.loops, continueAim_note]
  | breakLoop => rfl
  | ahead _ => rfl

theorem append (first : Lays s t left) (second : Lays t u right) :
    Lays s u (left ++ right) where
  growth := by
    have later := second.growth
    rw [first.aims] at later
    exact first.growth.append later
  settled := by
    have later := second.settled
    rw [first.kinds] at later
    exact first.settled.append later
  types := second.types.trans first.types
  loops := by
    rw [second.loops, first.loops, first.growth.size, note_append]
  frames := second.frames.trans first.frames

theorem adds (lays : Lays s t piece) (outside : s.loops = []) :
    Adds s t piece s.types := by
  have closed : piece.Closed := by
    have settled := lays.settled
    rw [Emitter.kinds, outside] at settled
    exact settled.closed
  refine { growth := ?_, closed, types := lays.types, loops := ?_, frames := lays.frames }
  · exact fun aims => lays.growth.congr fun cell member way takes =>
      absurd takes (closed.not_takes member)
  · rw [lays.loops, outside]
    rfl

end Lays

end GameScript.Emission
