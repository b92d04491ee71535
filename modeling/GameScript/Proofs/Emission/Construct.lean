import GameScript.Proofs.Emission.Loops

/-! Constructs under way.

While a construct is being emitted, its branches take labelled ways.  Landing a
label makes its aim known; a finished construct joins its segments. -/

namespace GameScript.Emission

open Bytecode Number Syntax

/-- A place in the code: the index and the address of its next instruction. -/
structure Spot where
  index : Nat
  address : Nat

def Emitter.spot (s : Emitter) : Spot := ⟨s.code.size, s.length⟩

def Spot.after (spot : Spot) (piece : Piece) : Spot :=
  ⟨spot.index + piece.length, spot.address + piece.size⟩

theorem Spot.after_append (spot : Spot) (left right : Piece) :
    spot.after (left ++ right) = (spot.after left).after right := by
  simp [Spot.after, Nat.add_assoc]

theorem Extends.spot {aims : Aims} {s t : Emitter} {piece : Piece}
    (extended : Extends aims s t piece) : t.spot = s.spot.after piece := by
  rw [Emitter.spot, extended.size, extended.length]
  rfl

def EmitsValue (env : Environment) (action : EmitM Unit)
    (holds : Spot → DataType → Piece → Prop) :
    Prop :=
  ∀ s, Ensures env s action fun _ t =>
    ∃ type piece, Adds s t piece (type :: s.types) ∧ holds s.spot type piece

def EmitsClosed (env : Environment) (action : EmitM Unit) (holds : Spot → Piece → Prop) :
    Prop :=
  ∀ s, Ensures env s action fun _ t => ∃ piece, Adds s t piece s.types ∧ holds s.spot piece

/-- Inside loops of the given kinds and a function of the given parameters, the
action emits a statement whose code is as told. -/
def EmitsStatement (env : Environment) (kinds : List LoopKind) (params : List String)
    (action : EmitM Unit) (holds : Spot → Piece → Prop) : Prop :=
  ∀ s, s.kinds = kinds → s.params = params → Ensures env s action fun _ t =>
    ∃ piece, Lays s t piece ∧ holds s.spot piece

section

variable {env : Environment} {kinds : List LoopKind} {params : List String}
  {action : EmitM Unit}

theorem EmitsValue.mono {holds weaker : Spot → DataType → Piece → Prop}
    (emits : EmitsValue env action holds)
    (implies : ∀ spot type piece, holds spot type piece → weaker spot type piece) :
    EmitsValue env action weaker :=
  fun s => (emits s).mono fun _ _ ⟨type, piece, adds, held⟩ =>
    ⟨type, piece, adds, implies _ type piece held⟩

theorem EmitsStatement.mono {holds weaker : Spot → Piece → Prop}
    (emits : EmitsStatement env kinds params action holds)
    (implies : ∀ spot piece, piece.Settled kinds → holds spot piece → weaker spot piece) :
    EmitsStatement env kinds params action weaker :=
  fun s sameKinds sameParams => (emits s sameKinds sameParams).mono
    fun _ _ ⟨piece, lays, held⟩ =>
      ⟨piece, lays, implies _ piece (sameKinds ▸ lays.settled) held⟩

theorem EmitsStatement.bind {next : EmitM Unit} {isFirst isNext : Spot → Piece → Prop}
    (first : EmitsStatement env kinds params action isFirst)
    (second : EmitsStatement env kinds params next isNext) :
    EmitsStatement env kinds params (do action; next) fun spot piece =>
      ∃ left right, isFirst spot left ∧ isNext (spot.after left) right ∧
        piece = left ++ right := by
  intro s sameKinds sameParams
  refine (first s sameKinds sameParams).bind fun _ t ⟨left, lays, held⟩ => ?_
  refine (second t (lays.kinds.trans sameKinds) (lays.params.trans sameParams)).mono
    fun _ u ⟨right, laying, heldNext⟩ => ?_
  rw [lays.growth.spot] at heldNext
  exact ⟨_, lays.append laying, left, right, held, heldNext, rfl⟩

end

/-- The code has grown by the segments of a construct that have been emitted so far. -/
structure Builds (aims : Aims) (s t : Emitter) (segments : List Piece)
    (types : List DataType) : Prop where
  growth : Extends aims s t segments.flatten
  breaks : aims .breakLoop = none
  continues : aims .continueLoop = continueAim s.loops
  types : t.types = types
  loops : t.loops = note s.code.size segments.flatten s.loops
  frames : t.frames = s.frames

/-- Aims inside a construct: labels with known aims, and what the loops around it know. -/
def labelled (loops : List LoopContext) (labels : Nat → Option Nat) : Aims
  | .breakLoop => none
  | .continueLoop => continueAim loops
  | .ahead label => labels label

def Way.IsLabel : Way → Prop
  | .ahead _ => True
  | _ => False

theorem Piece.flatten_snoc (segments : List Piece) (piece : Piece) :
    (segments ++ [piece]).flatten = segments.flatten ++ piece := by
  simp

namespace Builds

variable {aims aims' : Aims} {s t u : Emitter} {segments : List Piece} {added : Piece}
  {types types' : List DataType}

theorem size (builds : Builds aims s t segments types) :
    t.code.size = s.code.size + segments.flatten.length := builds.growth.size

theorem length (builds : Builds aims s t segments types) :
    t.length = s.length + Piece.size segments.flatten := builds.growth.length

theorem spot (builds : Builds aims s t segments types) :
    t.spot = s.spot.after segments.flatten :=
  builds.growth.spot

theorem kinds (builds : Builds aims s t segments types) : t.kinds = s.kinds := by
  rw [Emitter.kinds, builds.loops, kinds_note, Emitter.kinds]

theorem params (builds : Builds aims s t segments types) : t.params = s.params :=
  Emitter.params_eq_of_frames builds.frames

theorem start (s : Emitter) (labels : Nat → Option Nat) :
    Builds (labelled s.loops labels) s s [] s.types where
  growth := .refl _ s
  breaks := rfl
  continues := rfl
  types := rfl
  loops := (Lays.refl s).loops
  frames := rfl

theorem adds (builds : Builds aims s t segments types) (adding : Adds t u added types') :
    Builds aims s u (segments ++ [added]) types' where
  growth := by
    rw [Piece.flatten_snoc]
    exact builds.growth.append (adding.growth aims)
  breaks := builds.breaks
  continues := builds.continues
  types := adding.types
  loops := by
    rw [Piece.flatten_snoc, adding.loops, builds.loops, note_append_of_not_takes]
    · exact fun _ member => adding.closed.not_takes member
    · exact fun _ member => adding.closed.not_takes member
  frames := adding.frames.trans builds.frames

theorem lays (builds : Builds aims s t segments types) (laying : Lays t u added) :
    Builds aims s u (segments ++ [added]) types where
  growth := by
    rw [Piece.flatten_snoc]
    refine builds.growth.append (laying.growth.congr ?_)
    intro cell member way takes
    cases way with
    | breakLoop => exact builds.breaks.symm
    | continueLoop => rw [aimsOf, builds.loops, continueAim_note, builds.continues]
    | ahead label => exact absurd takes (laying.settled.not_ahead member)
  breaks := builds.breaks
  continues := builds.continues
  types := laying.types.trans builds.types
  loops := by rw [Piece.flatten_snoc, laying.loops, builds.loops, builds.size, note_append]
  frames := laying.frames.trans builds.frames

theorem cell {cell : Cell} {label : Nat} (builds : Builds aims s t segments types)
    (takes : ∀ way, cell.Takes way → way = .ahead label)
    (growing : Extends aims t u [cell])
    (sameTypes : u.types = t.types) (sameLoops : u.loops = t.loops)
    (sameFrames : u.frames = t.frames) : Builds aims s u (segments ++ [[cell]]) types where
  growth := by
    rw [Piece.flatten_snoc]
    exact builds.growth.append growing
  breaks := builds.breaks
  continues := builds.continues
  types := sameTypes.trans builds.types
  loops := by
    have taken : ∀ other ∈ [cell], ∀ way, other.Takes way → way = .ahead label := by
      simpa using takes
    rw [Piece.flatten_snoc, sameLoops, builds.loops, note_append_of_not_takes]
    · exact fun other member takes => Way.noConfusion (taken other member _ takes)
    · exact fun other member takes => Way.noConfusion (taken other member _ takes)
  frames := sameFrames.trans builds.frames

private theorem takes_leave {opcode : Opcode} {label : Nat} {way : Way}
    (takes : (Cell.leave opcode (.ahead label)).Takes way) : way = .ahead label := by
  simpa [Cell.Takes, Cell.leave, eq_comm] using takes

theorem branch (builds : Builds aims s t segments types) (opcode : Opcode) (label : Nat)
    (unknown : aims (.ahead label) = none) :
    Builds aims s (t.appended { opcode })
      (segments ++ [[Cell.leave opcode (.ahead label)]]) types :=
  builds.cell (fun _ => takes_leave) (extends_leave t opcode unknown) rfl rfl rfl

theorem branchTo {target : Nat} (builds : Builds aims s t segments types) (opcode : Opcode)
    (label : Nat) (known : aims (.ahead label) = some target) :
    Builds aims s (t.branched opcode target)
      (segments ++ [[Cell.leave opcode (.ahead label)]])
      types :=
  builds.cell (fun _ => takes_leave) (extends_branched t opcode known) rfl rfl rfl

end Builds

def Emitter.landed (s : Emitter) (patch : ForwardPatch) : Emitter :=
  { s with code := patch.resolve s.code s.length }

def Emitter.landedAddress (s : Emitter) (patch : AddressPatch) : Emitter :=
  { s with code := patch.resolve s.code s.length }

theorem ensures_land {env : Environment} {s : Emitter} {patch : ForwardPatch}
    {post : Unit → Emitter → Prop} :
    Ensures env s (land patch) post ↔ post () (s.landed patch) := Iff.rfl

theorem ensures_landAddress {env : Environment} {s : Emitter} {patch : AddressPatch}
    {post : Unit → Emitter → Prop} :
    Ensures env s (landAddress patch) post ↔ post () (s.landedAddress patch) := Iff.rfl

namespace Builds

variable {aims aims' : Aims} {s t u : Emitter} {segments : List Piece} {added : Piece}
  {types types' : List DataType}

private theorem patched {code : Code} {label target : Nat}
    (builds : Builds aims s t segments types)
    (growth : Extends (aims.know (.ahead label) target) s
      { t with code } segments.flatten) :
    Builds (aims.know (.ahead label) target) s { t with code } segments types :=
  { builds with growth }

theorem land (builds : Builds aims s t segments types) (patch : ForwardPatch) (label : Nat)
    (unknown : aims (.ahead label) = none)
    (noAwait : Piece.awaits (.ahead label) s.code.size segments.flatten = [])
    (isLeaves : patch.sites = Piece.leaves (.ahead label) s.code.size segments.flatten) :
    Builds (aims.know (.ahead label) t.length) s (t.landed patch) segments types :=
  builds.patched (builds.growth.land unknown noAwait isLeaves)

theorem landAddress (builds : Builds aims s t segments types) (patch : AddressPatch)
    (label : Nat) (unknown : aims (.ahead label) = none)
    (noLeave : Piece.leaves (.ahead label) s.code.size segments.flatten = [])
    (isAwaits : patch.sites = Piece.awaits (.ahead label) s.code.size segments.flatten) :
    Builds (aims.know (.ahead label) t.length) s (t.landedAddress patch) segments types :=
  builds.patched (builds.growth.landAddress unknown noLeave isAwaits)

end Builds

/-- The ways out of a loop's body as labels of the construct around it. -/
def enclose : Way → Way
  | .breakLoop => .ahead 0
  | .continueLoop => .ahead 1
  | way => way

/-- The labels of a construct, apart from those of an enclosed body. -/
def Way.IsOwnLabel : Way → Prop
  | .ahead label => 2 ≤ label
  | _ => False

theorem Way.IsOwnLabel.isLabel {way : Way} (own : way.IsOwnLabel) : way.IsLabel := by
  cases way with
  | ahead _ => trivial
  | breakLoop => exact own
  | continueLoop => exact own

theorem ensures_popLoop {env : Environment} {s : Emitter} {context : LoopContext}
    {outer : List LoopContext} {post : LoopContext → Emitter → Prop}
    (loops : s.loops = context :: outer) :
    Ensures env s popLoop post ↔ post context { s with loops := outer } := by
  unfold popLoop
  rw [ensures_bind, ensures_get]
  simp only [loops]
  exact Iff.rfl

/-- What the context of a finished loop holds: the branches of its body. -/
structure LoopContext.Holds (context : LoopContext) (start : Nat) (piece : Piece) :
    Prop where
  breaks : context.breaks.sites = piece.leaves (.ahead 0) start
  continues : context.continueTarget = none →
    context.continues.sites = piece.leaves (.ahead 1) start
  breakUsed : context.breakUsed = !(piece.leaves (.ahead 0) start).isEmpty

/-- Of the ways out of a loop's body only labels are left. -/
theorem Piece.Settled.enclosed {kinds : List LoopKind} {body : Piece}
    (settled : body.Settled kinds) :
    (body.redirect enclose).TakesOnly fun way => way = .ahead 0 ∨ way = .ahead 1 := by
  intro cell member way takes
  obtain ⟨old, oldMember, rfl⟩ := Piece.mem_redirect.mp member
  obtain ⟨oldWay, oldTakes, rfl⟩ := Cell.takes_redirect.mp takes
  cases oldWay with
  | breakLoop => exact Or.inl rfl
  | continueLoop => exact Or.inr rfl
  | ahead label => exact absurd oldTakes (settled.not_ahead oldMember)

theorem Piece.Settled.leaves_enclosed {kinds : List LoopKind} {body : Piece}
    (settled : body.Settled kinds) (index : Nat) :
    (body.redirect enclose).leaves (.ahead 0) index = body.leaves .breakLoop index ∧
      (body.redirect enclose).leaves (.ahead 1) index =
      body.leaves .continueLoop index := by
  constructor
  · refine Piece.leaves_redirect enclose .breakLoop ?_ index
    intro cell member other takes
    cases other with
    | breakLoop => simp
    | continueLoop => simp [enclose]
    | ahead label => exact absurd takes (settled.not_ahead member)
  · refine Piece.leaves_redirect enclose .continueLoop ?_ index
    intro cell member other takes
    cases other with
    | breakLoop => simp [enclose]
    | continueLoop => simp
    | ahead label => exact absurd takes (settled.not_ahead member)

theorem Piece.Settled.leaves_own {kinds : List LoopKind} {body : Piece}
    (settled : body.Settled kinds) (label index : Nat) :
    (body.redirect enclose).leaves (.ahead (label + 2)) index = [] := by
  refine Piece.leaves_eq_nil (fun cell member takes => ?_) index
  rcases settled.enclosed cell member _ takes with same | same
  · simp at same
  · simp at same

theorem Piece.Settled.awaits_enclosed {kinds : List LoopKind} {body : Piece}
    (settled : body.Settled kinds) (way : Way) (index : Nat) :
    (body.redirect enclose).awaits way index = [] := by
  rw [Piece.awaits_eq_nil_iff]
  intro cell member link
  obtain ⟨old, oldMember, rfl⟩ := Piece.mem_redirect.mp member
  obtain ⟨oldWay, oldLink, -⟩ := Cell.redirect_link_await.mp link
  have leave := (settled old oldMember oldWay (Or.inr oldLink)).1
  rw [oldLink] at leave
  exact Link.noConfusion leave

namespace Piece.TakesOnly

variable {piece : Piece}

theorem nil {ways : Way → Prop} : Piece.TakesOnly ways [] :=
  fun cell member => absurd member (by simp)

theorem leave {ways : Way → Prop} {opcode : Opcode} {way : Way} (holds : ways way) :
    Piece.TakesOnly ways [Cell.leave opcode way] := by
  intro cell member other takes
  rw [List.mem_singleton.mp member] at takes
  simp only [Cell.Takes, Cell.leave, Link.leave.injEq, reduceCtorEq, or_false] at takes
  exact takes ▸ holds

theorem not_takes {ways : Way → Prop} (only : piece.TakesOnly ways) {way : Way}
    (not : ¬ ways way) : ∀ cell ∈ piece, ¬ cell.Takes way :=
  fun cell member takes => not (only cell member way takes)

end Piece.TakesOnly

namespace Builds

variable {env : Environment} {aims : Aims} {s t : Emitter} {head : List Piece}
  {types : List DataType} {kind : LoopKind} {target : Option Nat}

theorem loops_eq (builds : Builds aims s t head types)
    (own : Piece.TakesOnly Way.IsOwnLabel head.flatten) : t.loops = s.loops := by
  rw [builds.loops, note_of_not_takes]
  · exact own.not_takes id
  · exact own.not_takes id

private theorem leaveLoop {u : Emitter} {body : Piece}
    (builds : Builds aims s t head types) (notSwitch : ∀ type, kind ≠ .switch type)
    (own : Piece.TakesOnly Way.IsOwnLabel head.flatten)
    (breaks : aims (.ahead 0) = none) (continues : aims (.ahead 1) = target)
    (laying : Lays
      { t with loops := { kind, continueTarget := target } :: t.loops } u body) :
    ∃ context, u.loops = context :: s.loops ∧ context.continueTarget = target ∧
      context.Holds s.code.size (head ++ [body.redirect enclose]).flatten ∧
      Builds aims s { u with loops := s.loops } (head ++ [body.redirect enclose])
        types := by
  have sameLoops := builds.loops_eq own
  have enclosed := laying.settled.enclosed
  have leaves := laying.settled.leaves_enclosed (s.code.size + head.flatten.length)
  have headLeaves :
      ∀ label index, label < 2 → Piece.leaves (.ahead label) index head.flatten = [] :=
    fun label index small => Piece.leaves_eq_nil
      (fun cell member takes =>
        Nat.not_le.mpr small (own cell member (.ahead label) takes)) index
  have breakSites :
    Piece.leaves (.ahead 0) s.code.size (head ++ [body.redirect enclose]).flatten =
      body.leaves .breakLoop t.code.size := by
    rw [Piece.flatten_snoc, Piece.leaves_append, headLeaves 0 _ (by omega), leaves.1,
      builds.size, List.nil_append]
  have continueSites :
      Piece.leaves (.ahead 1) s.code.size (head ++ [body.redirect enclose]).flatten =
        body.leaves .continueLoop t.code.size := by
    rw [Piece.flatten_snoc, Piece.leaves_append, headLeaves 1 _ (by omega), leaves.2,
      builds.size, List.nil_append]
  have onlyLabels :
      Piece.TakesOnly Way.IsLabel (head ++ [body.redirect enclose]).flatten := by
    rw [Piece.flatten_snoc]
    exact (own.mono fun _ => Way.IsOwnLabel.isLabel).append
      (enclosed.mono fun _ isBody => by rcases isBody with rfl | rfl <;> trivial)
  have noted := laying.loops
  simp only [note, noteBreaks, noteContinues] at noted
  rw [← breakSites, ← continueSites, sameLoops, List.nil_append, Bool.false_or] at noted
  have growth : Extends aims t { u with loops := s.loops } (body.redirect enclose) := by
    refine (laying.growth.redirect ?_).of_same rfl rfl rfl rfl rfl rfl rfl rfl
    intro cell member way takes
    cases way with
    | breakLoop => exact breaks
    | continueLoop =>
      rw [enclose, continues]
      cases kind with
      | switch type => exact absurd rfl (notSwitch type)
      | plain | withLoop | repeatLoop => rfl
    | ahead label => exact absurd takes (laying.settled.not_ahead member)
  refine ⟨_, noted, LoopContext.noteContinues_continueTarget _ _, ⟨?_, ?_, ?_⟩, ?_⟩
  · cases target <;> rfl
  · intro unknown
    rw [LoopContext.noteContinues_continueTarget] at unknown
    simp only at unknown
    subst unknown
    rfl
  · cases target <;> rfl
  · exact {
      growth := by
        rw [Piece.flatten_snoc]
        exact builds.growth.append growth
      breaks := builds.breaks
      continues := builds.continues
      types := laying.types.trans builds.types
      loops := by
        rw [note_of_not_takes]
        · exact onlyLabels.not_takes id
        · exact onlyLabels.not_takes id
      frames := laying.frames.trans builds.frames }

theorem statement {kinds : List LoopKind} {params : List String} {action : EmitM Unit}
    {next : EmitM β} {post : β → Emitter → Prop} {holds : Spot → Piece → Prop}
    (builds : Builds aims s t head types) (sameKinds : s.kinds = kinds)
    (sameParams : s.params = params)
    (laying : EmitsStatement env kinds params action holds)
    (after : ∀ (u : Emitter) (piece : Piece), holds (s.spot.after head.flatten) piece →
      piece.Settled s.kinds → Builds aims s u (head ++ [piece]) types →
      Ensures env u next post) :
    Ensures env t (do action; next) post := by
  refine (laying t (builds.kinds.trans sameKinds) (builds.params.trans sameParams)).bind
    fun _ u ⟨piece, lays, held⟩ => ?_
  exact after u piece (builds.spot ▸ held) (builds.kinds ▸ lays.settled) (builds.lays lays)

theorem body {bodyAction : EmitM Unit} {next : LoopContext → EmitM β}
    {post : β → Emitter → Prop} {params : List String} {isBody : Spot → Piece → Prop}
    (builds : Builds aims s t head types) (notSwitch : ∀ type, kind ≠ .switch type)
    (own : Piece.TakesOnly Way.IsOwnLabel head.flatten)
    (breaks : aims (.ahead 0) = none) (continues : aims (.ahead 1) = target)
    (sameParams : s.params = params)
    (laying : EmitsStatement env (kind :: s.kinds) params bodyAction isBody)
    (after : ∀ (u : Emitter) (piece : Piece) (context : LoopContext),
      isBody (s.spot.after head.flatten) piece → piece.Settled (kind :: s.kinds) →
      context.continueTarget = target →
      context.Holds s.code.size (head ++ [piece.redirect enclose]).flatten →
      Builds aims s { u with loops := s.loops } (head ++ [piece.redirect enclose]) types →
      Ensures env { u with loops := s.loops } (next context) post) :
    Ensures env t (do
      pushLoop { kind, continueTarget := target }
      bodyAction
      let context ← popLoop
      next context) post := by
  refine ensures_bind.mpr (ensures_modify.mpr ?_)
  refine (laying _ ?_ ?_).bind fun _ u ⟨piece, lays, held⟩ => ?_
  · exact congrArg (kind :: ·) builds.kinds
  · exact builds.params.trans sameParams
  obtain ⟨context, loops, sameTarget, holds, built⟩ :=
    builds.leaveLoop notSwitch own breaks continues lays
  refine ensures_bind.mpr ((ensures_popLoop loops).mpr ?_)
  refine after u piece context ?_ ?_ sameTarget holds built
  · rw [← builds.spot]
    exact held
  · have settled := lays.settled
    rw [Emitter.kinds, List.map_cons, builds.loops_eq own] at settled
    exact settled

end Builds

def exitsTo (targets : List (Option Nat)) : Exits
  | .ahead label => targets.getD label none
  | _ => none

def Piece.Fits (kinds : List LoopKind) (targets : List (Option Nat)) (piece : Piece) :
    Prop :=
  ∀ cell ∈ piece, ∀ way, cell.Takes way →
    match way with
    | .ahead label => (targets.getD label none).isSome
    | way => cell.link = .leave way ∧ Offers kinds way

namespace Piece

variable {kinds : List LoopKind} {targets : List (Option Nat)} {piece left right : Piece}
  {segments : List Piece}

def FitAll (kinds : List LoopKind) (targets : List (Option Nat)) : List Piece → Prop
  | [] => True
  | segment :: rest => segment.Fits kinds targets ∧ FitAll kinds targets rest

theorem fitAll_append {front back : List Piece} :
    FitAll kinds targets (front ++ back) ↔
      FitAll kinds targets front ∧ FitAll kinds targets back := by
  induction front with
  | nil => simp [FitAll]
  | cons segment rest induction => simp [FitAll, induction, and_assoc]

theorem Closed.fits (closed : piece.Closed) : piece.Fits kinds targets :=
  fun _ member _ takes => absurd takes (closed.not_takes member)

theorem Settled.fits (settled : piece.Settled kinds) : piece.Fits kinds targets := by
  intro cell member way takes
  have taken := settled cell member way takes
  cases way with
  | breakLoop => exact taken
  | continueLoop => exact taken
  | ahead label => exact False.elim taken.2

theorem Settled.fits_enclosed {inner : List LoopKind} (settled : piece.Settled inner)
    (breaks : (targets.getD 0 none).isSome) (continues : (targets.getD 1 none).isSome) :
    (piece.redirect enclose).Fits kinds targets := by
  intro cell member way takes
  rcases settled.enclosed cell member way takes with rfl | rfl
  · exact breaks
  · exact continues

theorem Settled.fits_unbroken {inner : List LoopKind} (settled : piece.Settled inner)
    (unbroken : ∀ cell ∈ piece, cell.link ≠ .leave .breakLoop)
    (continues : (targets.getD 1 none).isSome) :
    (piece.redirect enclose).Fits kinds targets := by
  intro cell member way takes
  rcases settled.enclosed cell member way takes with rfl | rfl
  · obtain ⟨old, oldMember, rfl⟩ := mem_redirect.mp member
    obtain ⟨oldWay, oldTakes, renamed⟩ := Cell.takes_redirect.mp takes
    have link := (settled old oldMember oldWay oldTakes).1
    cases oldWay with
    | breakLoop => exact absurd link (unbroken old oldMember)
    | continueLoop => simp [enclose] at renamed
    | ahead label => exact absurd oldTakes (settled.not_ahead oldMember)
  · exact continues

theorem fits_leave {opcode : Opcode} {label : Nat}
    (target : (targets.getD label none).isSome) :
    Fits kinds targets [Cell.leave opcode (.ahead label)] := by
  intro cell member way takes
  rw [List.mem_singleton.mp member] at takes
  simp only [Cell.Takes, Cell.leave, Link.leave.injEq, reduceCtorEq, or_false] at takes
  rw [← takes]
  exact target

theorem Fits.append (fitsLeft : left.Fits kinds targets)
    (fitsRight : right.Fits kinds targets) : (left ++ right).Fits kinds targets := by
  intro cell member
  rcases List.mem_append.mp member with member | member
  · exact fitsLeft cell member
  · exact fitsRight cell member

theorem FitAll.flatten (fits : FitAll kinds targets segments) :
    Fits kinds targets segments.flatten := by
  induction segments with
  | nil => exact fun cell member => absurd member (by simp)
  | cons segment rest induction => exact Fits.append fits.1 (induction fits.2)

theorem Fits.settled_close {exits : Exits} (fits : piece.Fits kinds targets)
    (exited : ∀ label, (targets.getD label none).isSome → (exits (.ahead label)).isSome)
    (stays : ∀ way, ¬ way.IsLabel → exits way = none) :
    (piece.close exits).Settled kinds := by
  intro cell member way takes
  obtain ⟨old, oldMember, position, rfl⟩ := mem_closeFrom member
  have kept := Cell.takes_close takes
  have fit := fits old oldMember way kept.1
  cases way with
  | ahead label =>
    have exit := exited label fit
    simp [kept.2] at exit
  | breakLoop =>
    refine ⟨?_, fit.2⟩
    simp [Cell.close, fit.1, stays .breakLoop id]
  | continueLoop =>
    refine ⟨?_, fit.2⟩
    simp [Cell.close, fit.1, stays .continueLoop id]

end Piece

/-- Each label, from the given one on, has the aim of the segment listed for it. -/
def Aims.LeadTo (aims : Aims) (base : Nat) (segments : List Piece) :
    Nat → List (Option Nat) → Prop
  | _, [] => True
  | label, none :: rest => aims.LeadTo base segments (label + 1) rest
  | label, some index :: rest =>
    aims (.ahead label) = some (base + Piece.size (segments.take index).flatten) ∧
      aims.LeadTo base segments (label + 1) rest

theorem Aims.LeadTo.known {aims : Aims} {base label offset index : Nat}
    {segments : List Piece} {targets : List (Option Nat)}
    (leadTo : aims.LeadTo base segments label targets)
    (found : targets.getD offset none = some index) :
    aims (.ahead (label + offset)) =
      some (base + Piece.size (segments.take index).flatten) := by
  induction targets generalizing label offset with
  | nil => simp at found
  | cons target rest induction =>
    have tail : aims.LeadTo base segments (label + 1) rest := by
      cases target with
      | none => exact leadTo
      | some _ => exact leadTo.2
    cases offset with
    | zero =>
      rw [List.getD_cons_zero] at found
      subst found
      exact leadTo.1
    | succ offset =>
      rw [List.getD_cons_succ] at found
      have later := induction tail found
      rwa [Nat.add_right_comm] at later

namespace Builds

variable {aims : Aims} {s t : Emitter} {types : List DataType} {segments : List Piece}
  {targets : List (Option Nat)}

private theorem joined {kinds : List LoopKind} (builds : Builds aims s t segments types)
    (fits : Piece.FitAll kinds targets segments)
    (leads : aims.LeadTo s.length segments 0 targets) :
    Extends aims s t (Piece.join (exitsTo targets) segments) ∧
      (Piece.join (exitsTo targets) segments).Settled kinds := by
  constructor
  · refine builds.growth.join ?_ (fun _ _ _ _ _ => rfl)
    intro cell member way takes index exit
    cases way with
    | breakLoop => simp [exitsTo] at exit
    | continueLoop => simp [exitsTo] at exit
    | ahead label =>
      have known := leads.known exit
      rwa [Nat.zero_add] at known
  · refine fits.flatten.settled_close ?_ ?_
    · intro label isSome
      simpa [exitsTo] using isSome
    · intro way notLabel
      cases way with
      | breakLoop => rfl
      | continueLoop => rfl
      | ahead label => exact absurd trivial notLabel

theorem finish (builds : Builds aims s t segments s.types)
    (fits : Piece.FitAll s.kinds targets segments)
    (leads : aims.LeadTo s.length segments 0 targets) :
    Lays s t (Piece.join (exitsTo targets) segments) where
  growth := by
    refine (builds.joined fits leads).1.congr ?_
    intro cell member way takes
    cases way with
    | breakLoop => exact builds.breaks
    | continueLoop => exact builds.continues
    | ahead label => exact absurd takes ((builds.joined fits leads).2.not_ahead member)
  settled := (builds.joined fits leads).2
  types := builds.types
  loops := by rw [builds.loops, note, note, Piece.leaves_join rfl, Piece.leaves_join rfl]
  frames := builds.frames

theorem finishValue (builds : Builds aims s t segments types)
    (fits : Piece.FitAll [] targets segments)
    (leads : aims.LeadTo s.length segments 0 targets) :
    Adds s t (Piece.join (exitsTo targets) segments) types := by
  obtain ⟨growth, settled⟩ := builds.joined fits leads
  have closed := settled.closed
  refine { growth := ?_, closed, types := builds.types, loops := ?_,
           frames := builds.frames }
  · exact fun other => growth.congr fun cell member way takes =>
      absurd takes (closed.not_takes member)
  · have noLeaves : ∀ way, exitsTo targets way = none →
        Piece.leaves way s.code.size segments.flatten = [] := by
      intro way stays
      rw [← Piece.leaves_join stays, closed.leaves]
    rw [builds.loops, note, noLeaves .breakLoop rfl, noLeaves .continueLoop rfl,
      noteBreaks_none, noteContinues_none]

end Builds

end GameScript.Emission
