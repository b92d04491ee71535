import GameScript.Emission.Code

/-! Two emitting actions side by side.

`Relates` compares runs from two related states: both fail, or both end.  The states
that matter here are twins: they agree on all but the position, which only errors
tell, and the open loops, which some relation ties to each other. -/

namespace GameScript.Emission

open Builtin Bytecode Number Syntax

/-- How the open loops of two states correspond. -/
abbrev LoopRelation := List LoopContext → List LoopContext → Prop

/-- States that agree on all but the position and the open loops, which are related. -/
def Twin (loops : LoopRelation) (s t : Emitter) : Prop :=
  ∃ opened pos, t = { s with loops := opened, pos } ∧ loops s.loops opened

/-- Runs from related states both fail, or both end with values and states as told. -/
def Relates (env : Environment) (pre : Emitter → Emitter → Prop) (left : EmitM α)
    (right : EmitM β) (post : α → β → Emitter → Emitter → Prop) : Prop :=
  ∀ s t, pre s t →
    match (left.run env).run s, (right.run env).run t with
    | .ok (value, s'), .ok (other, t') => post value other s' t'
    | .error _, .error _ => True
    | _, _ => False

/-- From twins the actions run to the same value and to twins again. -/
def Matches (env : Environment) (before after : LoopRelation) (left right : EmitM α) :
    Prop :=
  Relates env (Twin before) left right fun value other s t =>
    value = other ∧ Twin after s t

section Rules

variable {env : Environment} {α β γ δ : Type}

variable {pre : Emitter → Emitter → Prop}

theorem Relates.bind {left : EmitM α} {right : EmitM β}
    {middle : α → β → Emitter → Emitter → Prop} {next : α → EmitM γ}
    {following : β → EmitM δ}
    {post : γ → δ → Emitter → Emitter → Prop} (first : Relates env pre left right middle)
    (second : ∀ value other, Relates env (middle value other) (next value)
      (following other) post) :
    Relates env pre (left >>= next) (right >>= following) post := by
  intro s t related
  have ran := first s t related
  have unfolded : ((left >>= next).run env).run s =
      ((left.run env).run s).bind fun result => ((next result.1).run env).run result.2 :=
    rfl
  have unfoldedRight : ((right >>= following).run env).run t =
      ((right.run env).run t).bind fun result =>
      ((following result.1).run env).run result.2 := rfl
  rw [unfolded, unfoldedRight]
  cases leftRan : (left.run env).run s with
  | error _ =>
    cases rightRan : (right.run env).run t with
    | error _ => trivial
    | ok _ => simp [leftRan, rightRan] at ran
  | ok result =>
    cases rightRan : (right.run env).run t with
    | error _ => simp [leftRan, rightRan] at ran
    | ok other =>
      simp only [leftRan, rightRan] at ran
      exact second result.1 other.1 result.2 other.2 ran

theorem Relates.right {left : EmitM α} {right : EmitM β}
    {middle : β → Emitter → Emitter → Prop} {following : β → EmitM δ}
    {post : α → δ → Emitter → Emitter → Prop}
    (ends : ∀ s t, pre s t → ∃ value t', (right.run env).run t = .ok (value, t') ∧
      middle value s t')
    (relates : ∀ value, Relates env (middle value) left (following value) post) :
    Relates env pre left (right >>= following) post := by
  intro s t related
  obtain ⟨value, t', ran, held⟩ := ends s t related
  have unfolded : ((right >>= following).run env).run t =
      ((right.run env).run t).bind fun result =>
      ((following result.1).run env).run result.2 := rfl
  rw [unfolded, ran]
  exact relates value s t' held

theorem Relates.left {left : EmitM α} {right : EmitM β}
    {middle : α → Emitter → Emitter → Prop} {next : α → EmitM γ}
    {post : γ → β → Emitter → Emitter → Prop}
    (ends : ∀ s t, pre s t → ∃ value s', (left.run env).run s = .ok (value, s') ∧
      middle value s' t)
    (relates : ∀ value, Relates env (middle value) (next value) right post) :
    Relates env pre (left >>= next) right post := by
  intro s t related
  obtain ⟨value, s', ran, held⟩ := ends s t related
  have unfolded : ((left >>= next).run env).run s =
      ((left.run env).run s).bind fun result => ((next result.1).run env).run result.2 :=
    rfl
  rw [unfolded, ran]
  exact relates value s' t held

theorem Relates.read_left {next : Environment → EmitM α}
    {right : EmitM β} {post : α → β → Emitter → Emitter → Prop}
    (relates : Relates env pre (next env) right post) :
    Relates env pre (MonadReader.read >>= next) right post :=
  relates

variable {before middle after : LoopRelation}

namespace Matches

theorem bind {left right : EmitM α} {next following : α → EmitM β}
    (first : Matches env before middle left right)
    (second : ∀ value, Matches env middle after (next value) (following value)) :
    Matches env before after (left >>= next) (right >>= following) :=
  Relates.bind first fun value other s t ⟨same, twins⟩ => by
    subst same
    exact second value s t twins

theorem pure (value : α) : Matches env before before (pure value) (pure value) :=
  fun _ _ twins => ⟨rfl, twins⟩

theorem map {left right : EmitM α} (f : α → β)
    (first : Matches env before after left right) :
    Matches env before after (f <$> left) (f <$> right) :=
  Matches.bind first fun value => Matches.pure (f value)

theorem discard {left right : EmitM α} (first : Matches env before after left right) :
    Matches env before after (Functor.discard left) (Functor.discard right) :=
  first.map _

theorem fail (fault other : EmitFault) :
    Matches env before after (Emission.fail fault : EmitM α) (Emission.fail other) :=
  fun _ _ _ => trivial

theorem unsupported (feature other : Feature) :
    Matches env before after (Emission.unsupported feature : EmitM α)
      (Emission.unsupported other) :=
  fun _ _ _ => trivial

theorem read {next following : Environment → EmitM α}
    (second : Matches env before after (next env) (following env)) :
    Matches env before after (MonadReader.read >>= next)
      (MonadReader.read >>= following) :=
  second

theorem ite {condition : Prop} [Decidable condition] {yes yes' no no' : EmitM α}
    (whenTrue : Matches env before after yes yes')
    (whenFalse : Matches env before after no no') :
    Matches env before after (if condition then yes else no)
      (if condition then yes' else no') := by
  split
  · exact whenTrue
  · exact whenFalse

theorem guarded {condition : Prop} [Decidable condition] {fault other : EmitFault}
    {next following : Unit → EmitM α}
    (passes : Matches env before after (next ()) (following ())) :
    Matches env before after (if condition then Emission.fail fault >>= next else next ())
      (if condition then Emission.fail other >>= following else following ()) :=
  ite (fun _ _ _ => trivial) passes

end Matches

end Rules

/-! Steps that neither read nor change the open loops. -/

section Steps

variable {env : Environment} {loops : LoopRelation}

theorem goTo_matches (pos other : Position) :
    Matches env loops loops (goTo pos) (goTo other) := by
  rintro s t ⟨opened, place, rfl, related⟩
  exact ⟨rfl, opened, other, rfl, related⟩

theorem goTo_left (pos : Position) {left : EmitM α} {right : EmitM β}
    {post : α → β → Emitter → Emitter → Prop}
    (relates : Relates env (Twin loops) left right post) :
    Relates env (Twin loops) (do goTo pos; left) right post := by
  rintro s t ⟨opened, place, rfl, related⟩
  exact relates { s with pos } _ ⟨opened, place, rfl, related⟩

theorem goTo_right (pos : Position) {left : EmitM α} {right : EmitM β}
    {post : α → β → Emitter → Emitter → Prop}
    (relates : Relates env (Twin loops) left right post) :
    Relates env (Twin loops) left (do goTo pos; right) post := by
  rintro s t ⟨opened, place, rfl, related⟩
  exact relates s { s with loops := opened, pos } ⟨opened, pos, rfl, related⟩

theorem modify_matches {after : LoopRelation} {change other : Emitter → Emitter}
    (twins : ∀ s opened pos, loops s.loops opened →
      Twin after (change s) (other { s with loops := opened, pos })) :
    Matches env loops after (modify change : EmitM PUnit) (modify other) := by
  rintro s t ⟨opened, place, rfl, related⟩
  exact ⟨rfl, twins s opened place related⟩

theorem get_matches {after : LoopRelation} {next following : Emitter → EmitM β}
    (second : ∀ s opened pos, loops s.loops opened →
      Matches env loops after (next s) (following { s with loops := opened, pos })) :
    Matches env loops after (get >>= next) (get >>= following) := by
  rintro s t ⟨opened, place, rfl, related⟩
  exact second s opened place related s _ ⟨opened, place, rfl, related⟩

theorem pushType_matches (type : DataType) :
    Matches env loops loops (pushType type) (pushType type) :=
  modify_matches fun _ opened pos related => ⟨opened, pos, rfl, related⟩

theorem popType_matches : Matches env loops loops popType popType := by
  rintro ⟨code, length, types, symbols, scopes, globals, open', children, declared,
    structs, anonymous, pos⟩ t ⟨opened, place, rfl, related⟩
  cases types with
  | nil => trivial
  | cons type rest => exact ⟨rfl, opened, place, rfl, related⟩

theorem peekType_matches : Matches env loops loops peekType peekType := by
  rintro ⟨code, length, types, symbols, scopes, globals, open', children, declared,
    structs, anonymous, pos⟩ t ⟨opened, place, rfl, related⟩
  cases types with
  | nil => trivial
  | cons type rest => exact ⟨rfl, opened, place, rfl, related⟩

theorem emit_matches (ins : Instruction) :
    Matches env loops loops (emit ins) (emit ins) := by
  rintro s t ⟨opened, place, rfl, related⟩
  exact ⟨rfl, opened, place, rfl, related⟩

theorem emitSymbol_matches (ins : Instruction) (symbol : Symbol) :
    Matches env loops loops (emitSymbol ins symbol) (emitSymbol ins symbol) := by
  rintro s t ⟨opened, place, rfl, related⟩
  exact ⟨rfl, opened, place, rfl, related⟩

theorem emitBranchTo_matches (opcode : Opcode) (target : Nat) :
    Matches env loops loops (emitBranchTo opcode target) (emitBranchTo opcode target) := by
  rintro s t ⟨opened, place, rfl, related⟩
  exact ⟨rfl, opened, place, rfl, related⟩

theorem land_matches (patch : ForwardPatch) :
    Matches env loops loops (land patch) (land patch) :=
  modify_matches fun _ opened pos related => ⟨opened, pos, rfl, related⟩

theorem landAddress_matches (patch : AddressPatch) :
    Matches env loops loops (landAddress patch) (landAddress patch) :=
  modify_matches fun _ opened pos related => ⟨opened, pos, rfl, related⟩

theorem modifyScope_matches (change : FunctionScope → FunctionScope) :
    Matches env loops loops (modifyScope change) (modifyScope change) := by
  refine modify_matches fun s opened pos related => ?_
  obtain ⟨code, length, types, symbols, scopes, rest⟩ := s
  cases scopes <;> exact ⟨opened, pos, rfl, related⟩

theorem declareLocal_matches (name : String) :
    Matches env loops loops (declareLocal name) (declareLocal name) :=
  modifyScope_matches _

theorem declareStatic_matches (name : String) :
    Matches env loops loops (declareStatic name) (declareStatic name) :=
  modifyScope_matches _

theorem addChild_matches (child : ChildFunction) :
    Matches env loops loops (addChild child) (addChild child) :=
  modify_matches fun _ opened pos related => ⟨opened, pos, rfl, related⟩

theorem nextAnonymousName_matches :
    Matches env loops loops nextAnonymousName nextAnonymousName := by
  rintro s t ⟨opened, place, rfl, related⟩
  exact ⟨rfl, opened, place, rfl, related⟩

theorem nextStructName_matches :
    Matches env loops loops nextStructName nextStructName := by
  rintro s t ⟨opened, place, rfl, related⟩
  exact ⟨rfl, opened, place, rfl, related⟩

theorem currentScope_matches : Matches env loops loops currentScope currentScope := by
  rintro s t ⟨opened, place, rfl, related⟩
  exact ⟨rfl, opened, place, rfl, related⟩

theorem knowsFunction_matches (name : String) :
    Matches env loops loops (knowsFunction name) (knowsFunction name) := by
  rintro s t ⟨opened, place, rfl, related⟩
  exact ⟨rfl, opened, place, rfl, related⟩

theorem ownsName_matches (name : String) :
    Matches env loops loops (ownsName name) (ownsName name) := by
  rintro s t ⟨opened, place, rfl, related⟩
  exact ⟨rfl, opened, place, rfl, related⟩

theorem resolveVariable_matches (v : Variable) (pos : Position) :
    Matches env loops loops (resolveVariable v) (resolveVariable { v with pos }) := by
  rintro s t ⟨opened, place, rfl, related⟩
  exact ⟨rfl, opened, place, rfl, related⟩

end Steps

end GameScript.Emission
