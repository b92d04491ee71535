import GameScript.Proofs.Recasting.Loops

/-! Loops in two forms.

The contexts that the two forms of a loop open are not the same: a `while` knows where
`continue` leads, a `for` does not, and an `else` that is left out makes one branch more
wait for the end of the body. -/

namespace GameScript.Emission

open Bytecode Number Syntax

variable {env : Environment} {loops : LoopRelation}

/-- A loop whose start `continue` knows and one that has no `continue`. -/
def Unwaited (head : Nat) (loops : LoopRelation) : LoopRelation := fun opened other =>
  ∃ (context : LoopContext) (outer outer' : List LoopContext),
    opened = { context with continueTarget := some head } :: outer ∧
    other = context :: outer' ∧ context.kind = .plain ∧ context.continues = {} ∧
    loops outer outer'

theorem Unwaited.leftAlike (alike : LeftAlike loops) (head : Nat) :
    LeftAlike (Unwaited head loops) where
  kinds := by
    rintro _ _ ⟨context, outer, outer', rfl, rfl, -, -, related⟩
    rw [List.map_cons, List.map_cons, alike.kinds related]
  breaks := by
    rintro _ _ site ⟨context, outer, outer', rfl, rfl, isPlain, noContinue, related⟩
    exact ⟨{ context with breaks := context.breaks.add site, breakUsed := true }, outer,
      outer', rfl, rfl, isPlain, noContinue, related⟩

/-- The open loops of one state are those around the innermost loop of the other, from
which the given branches wait to leave. -/
def Outside (breaks : ForwardPatch) (loops : LoopRelation) : LoopRelation :=
  fun opened other =>
  ∃ context outer, opened = context :: outer ∧ context.breaks = breaks ∧ loops outer other

theorem popLoop_right {left : EmitM α} {following : LoopContext → EmitM β} {head : Nat}
    {post : α → β → Emitter → Emitter → Prop}
    (relates : ∀ context : LoopContext, context.continues = {} →
      Relates env (Twin (Outside context.breaks loops)) left (following context) post) :
    Relates env (Twin (Unwaited head loops)) left (popLoop >>= following) post := by
  refine Relates.right
    (fun s t twins => (?_ : ∃ (context : LoopContext) (t' : Emitter), _ ∧
      context.continues = {} ∧ Twin (Outside context.breaks loops) s t'))
    fun context s t ⟨noContinue, twins⟩ => relates context noContinue s t twins
  obtain ⟨opened, pos, rfl, context, outer, outer', isOpened, rfl, -, noContinue,
      related⟩ := twins
  exact ⟨context, _, rfl, noContinue, outer', pos, rfl, _, outer, isOpened, rfl, related⟩

theorem popLoop_left {next : LoopContext → EmitM α} {right : EmitM β}
    {breaks : ForwardPatch} {post : α → β → Emitter → Emitter → Prop}
    (relates : ∀ context : LoopContext, context.breaks = breaks →
      Relates env (Twin loops) (next context) right post) :
    Relates env (Twin (Outside breaks loops)) (popLoop >>= next) right post := by
  refine Relates.left (fun s t twins => (?_ : ∃ (context : LoopContext) (s' : Emitter), _ ∧
      context.breaks = breaks ∧ Twin loops s' t))
    fun context s t ⟨sameBreaks, twins⟩ => relates context sameBreaks s t twins
  obtain ⟨opened, pos, rfl, context, outer, isOpened, sameBreaks, related⟩ := twins
  obtain ⟨code, length, types, symbols, scopes, globals, inner, rest⟩ := s
  cases isOpened
  exact ⟨context, _, rfl, sameBreaks, opened, pos, rfl, related⟩

theorem land_nothing : land {} = pure () := rfl

/-- The step of a `for` is emitted once its loop is closed, as the last statement of a
`while` before that. -/
theorem emitWhile_matches_emitFor {condition condition' body body' step step' : EmitM Unit}
    (sameCondition : Matches env loops loops condition condition')
    (sameBody : ∀ head, Matches env (Unwaited head loops) (Unwaited head loops) body body')
    (sameStep : ∀ loops, Matches env loops loops step step') :
    Matches env loops loops (emitWhile condition (do body; step))
      (emitFor (emitForCondition (some condition')) step' body') := by
  simp only [emitWhile, emitFor, emitForCondition, bind_assoc]
  refine get_matches fun s opened pos _ => sameCondition.bind fun _ => ?_
  refine (convertTo_matches _).discard.bind fun _ =>
    (emitBranch_matches _).bind fun finish => ?_
  refine (show Matches env loops (Unwaited s.length loops) _ _ from
    modify_matches fun u inner pos related =>
      ⟨_, pos, rfl, { kind := .plain }, u.loops, inner, rfl, rfl, rfl, rfl, related⟩).bind
        fun _ => ?_
  refine (sameBody _).bind fun _ => popLoop_right fun context noContinue => ?_
  rw [noContinue, land_nothing, pure_bind]
  refine (sameStep _).bind fun _ => popLoop_left fun context' sameBreaks => ?_
  rw [sameBreaks]
  exact (emitBranchTo_matches _ _).bind fun _ =>
    (land_matches _).bind fun _ => land_matches _

/-! An `else` and a `continue`. -/

/-- A loop where one branch more waits for the end of the body. -/
def Waited (kind : LoopKind) (site : Nat) (loops : LoopRelation) : LoopRelation :=
  fun opened other => ∃ (context : LoopContext) (outer outer' : List LoopContext)
      (before after : List Nat), opened =
      { context with continues := ⟨before ++ after⟩ } :: outer ∧
      other = { context with continues := ⟨before ++ site :: after⟩ } :: outer' ∧
      context.kind = kind ∧ context.continueTarget = none ∧ loops outer outer'

theorem Waited.leftAlike (alike : LeftAlike loops) (kind : LoopKind) (site : Nat) :
    LeftAlike (Waited kind site loops) where
  kinds := by
    rintro _ _ ⟨context, outer, outer', before, after, rfl, rfl, -, -, related⟩
    rw [List.map_cons, List.map_cons, alike.kinds related]
  breaks := by
    rintro _ _ next ⟨context, outer, outer', before, after, rfl, rfl, isKind,
      unknown, related⟩
    exact ⟨{ context with breaks := context.breaks.add next, breakUsed := true }, outer,
      outer', before, after, rfl, rfl, isKind, unknown, related⟩

theorem addContinue_loop {context : LoopContext}
    (isLoop : ∀ type, context.kind ≠ .switch type) (next : Nat) (sites : List Nat)
    (outer : List LoopContext) :
    addContinue next ({ context with continues := ⟨sites⟩ } :: outer) =
      { context with continues := ⟨sites ++ [next]⟩ } :: outer := by
  cases isKind : context.kind with
  | switch type => exact absurd isKind (isLoop type)
  | _ => simp only [addContinue, ForwardPatch.add]

theorem Waited.continuedAlike {kind : LoopKind} (isLoop : ∀ type, kind ≠ .switch type)
    (site : Nat) : ContinuedAlike (Waited kind site loops) where
  route := by
    rintro _ _ ⟨context, outer, outer', before, after, rfl, rfl, rfl, unknown, -⟩
    cases isKind : context.kind with
    | switch type => exact absurd isKind (isLoop type)
    | _ => simp only [continueRoute?, continueLoop?, Option.map_some]
  continues := by
    rintro _ _ next ⟨context, outer, outer', before, after, rfl, rfl, rfl,
      unknown, related⟩
    rw [addContinue_loop isLoop, addContinue_loop isLoop]
    exact ⟨context, outer, outer', before, after ++ [next], by rw [List.append_assoc],
      by rw [List.append_assoc, List.cons_append], rfl, unknown, related⟩

theorem emitBranch_relates_emitContinue {kind : LoopKind}
    (isLoop : ∀ type, kind ≠ .switch type) :
    Relates env (Twin (Inside kind none loops)) (emitBranch .branch) emitContinue
      fun site _ => Twin (Waited kind site loops) := by
  rintro ⟨code, length, types, symbols, scopes, globals, inner, rest⟩ t
    ⟨_, pos, rfl, context, outer, outer', isOpened, rfl, isKind, unknown, related⟩
  cases isOpened
  obtain ⟨kind', breaks, continues, target, breakUsed⟩ := context
  obtain rfl : kind' = kind := isKind
  obtain rfl : target = none := unknown
  cases kind' with
  | switch type => exact absurd rfl (isLoop type)
  | _ =>
    exact ⟨_, pos, rfl, ⟨_, breaks, continues, none, breakUsed⟩, outer, outer',
      continues.sites, [], by rw [List.append_nil], rfl, rfl, rfl, related⟩

theorem aimAt_comm (target : Nat) (code : Code) (site other : Nat) :
    aimAt target (aimAt target code site) other =
      aimAt target (aimAt target code other) site := by
  unfold aimAt
  apply Array.ext
  · simp
  · intro index before after
    simp only [Array.getElem_modify]
    split <;> split <;> rfl

/-- Branches to one address may be aimed in any order. -/
theorem resolve_insert (before after : List Nat) (site : Nat) (code : Code)
    (target : Nat) : ForwardPatch.resolve ⟨before ++ site :: after⟩ code target =
      ForwardPatch.resolve ⟨before ++ after⟩
        (ForwardPatch.resolve (.ofSite site) code target)
        target := by
  unfold ForwardPatch.resolve ForwardPatch.ofSite
  simp only [List.foldl_append, List.foldl_cons, List.foldl_nil]
  congr 1
  induction before generalizing code with
  | nil => rfl
  | cons first rest induction =>
    rw [List.foldl_cons, List.foldl_cons, aimAt_comm, induction]

/-- At the end of the body both forms have aimed the same branches. -/
theorem land_popLoop_relates {kind : LoopKind} {site : Nat} :
    Relates env (Twin (Waited kind site loops))
      (do
        land (.ofSite site)
        let context ← popLoop
        land context.continues
        return context.breaks)
      (do
        let context ← popLoop
        land context.continues
        return context.breaks)
      fun breaks other s t => breaks = other ∧ Twin loops s t := by
  rintro ⟨code, length, types, symbols, scopes, globals, inner, rest⟩ t
    ⟨_, pos, rfl, context, outer, outer', before, after, isOpened, rfl, -, -, related⟩
  cases isOpened
  refine ⟨rfl, outer', pos, ?_, related⟩
  dsimp only
  rw [resolve_insert]

/-- The rest of a body as an `else` behind an empty branch, and behind a `continue`. -/
theorem emitEnclosed_skip_matches {kind : LoopKind} (isLoop : ∀ type, kind ≠ .switch type)
    {front front' condition condition' rest rest' : EmitM Unit}
    (p p' q q' r r' t t' : Position)
    (sameFront : Matches env (Inside kind none loops)
      (Inside kind none loops) front front')
    (sameCondition : Matches env (Inside kind none loops)
      (Inside kind none loops) condition condition')
    (sameRest : ∀ site, Matches env (Waited kind site loops)
      (Waited kind site loops) rest rest') :
    Matches env loops loops
      (emitEnclosed kind do
        goTo p
        front
        goTo q
        emitIfElse condition (goTo r) (do goTo t; rest))
      (emitEnclosed kind do
        goTo p'
        front'
        goTo q'
        emitIf condition' (do goTo r'; goTo t'; emitContinue)
        rest') := by
  simp only [emitEnclosed, emitIfElse, emitIf, bind_assoc]
  refine (pushLoop_matches _).bind fun _ => (goTo_matches p p').bind fun _ => ?_
  refine sameFront.bind fun _ => (goTo_matches q q').bind fun _ =>
    sameCondition.bind fun _ => ?_
  refine (convertTo_matches _).discard.bind fun _ =>
    (emitBranch_matches _).bind fun toElse => ?_
  refine (goTo_matches r r').bind fun _ => goTo_right t' ?_
  refine Relates.bind (emitBranch_relates_emitContinue isLoop) fun site _ => ?_
  refine (land_matches _).bind fun _ => goTo_left t ?_
  exact (sameRest site).bind fun _ => land_popLoop_relates

end GameScript.Emission
