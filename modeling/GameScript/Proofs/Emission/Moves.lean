import GameScript.Proofs.Emission.Resting

/-! Actions that move values between the stack and variables: elements, members,
calls and assignments to them. -/

namespace GameScript.Emission

open Builtin Bytecode Number Syntax

/-- The code of the action takes one row of values off the stack and puts another
one there; the types stay as they were. -/
def Moves (demands : Demands) (env : Environment) (action : EmitM α)
    (before after : MarkerStack) (n : Nat) : Prop :=
  ∀ s, Ensures env s action fun _ t => ∃ piece, Adds s t piece s.types ∧
    ∀ ways base, Carries demands ways (before ++ base) piece (after ++ base) n

/-- The same for an action that also puts the type of the top value there. -/
def Gives (demands : Demands) (env : Environment) (action : EmitM Unit)
    (before after : MarkerStack) (n : Nat) : Prop :=
  ∀ s, Ensures env s action fun _ t => ∃ type piece, Adds s t piece (type :: s.types) ∧
    ∀ ways base, Carries demands ways (before ++ base) piece (after ++ base) n

def EmitsPush (demands : Demands) (env : Environment) (action : EmitM Unit) (n : Nat) :
    Prop :=
  EmitsValue env action fun _ _ piece => Pushes demands n piece

section

variable {demands : Demands} {env : Environment} {n m k : Nat}
  {before middle after : MarkerStack}

namespace Moves

variable {α : Type}

theorem nothing {action : EmitM α}
    (adds : ∀ s, Ensures env s action fun _ t => Adds s t [] s.types) :
    Moves demands env action before before 0 :=
  fun s => (adds s).mono fun _ _ adding => ⟨[], adding, fun ways _ => .nil ways _⟩

theorem step {action : EmitM α} {piece : Piece}
    (adds : ∀ s, Ensures env s action fun _ t => Adds s t piece s.types)
    (carried : ∀ ways base, Carries demands ways (before ++ base) piece
      (after ++ base) n) :
    Moves demands env action before after n :=
  fun s => (adds s).mono fun _ _ adding => ⟨piece, adding, carried⟩

theorem bind {β : Type} {action : EmitM α} {next : α → EmitM β}
    (first : Moves demands env action before middle n)
    (second : ∀ value, Moves demands env (next value) middle after m) :
    Moves demands env (action >>= next) before after (n + m) := by
  intro s
  refine (first s).bind fun value t ⟨piece, adds, carried⟩ => ?_
  refine (second value t).mono fun _ u ⟨more, adding, carriedMore⟩ => ?_
  rw [adds.types] at adding
  exact ⟨_, adds.append adding, fun ways base =>
    (carried ways base).append (carriedMore ways base)⟩

theorem frame {action : EmitM α} (moves : Moves demands env action before after n)
    (below : MarkerStack) :
    Moves demands env action (before ++ below) (after ++ below) n := by
  intro s
  refine (moves s).mono fun _ t ⟨piece, adds, carried⟩ =>
    ⟨piece, adds, fun ways base => ?_⟩
  have deeper := carried ways (below ++ base)
  rwa [← List.append_assoc, ← List.append_assoc] at deeper

theorem recount {action : EmitM α} (moves : Moves demands env action before after n)
    (same : n = m) : Moves demands env action before after m := same ▸ moves

theorem typed {action : EmitM Unit} (moves : Moves demands env action before after n)
    (type : DataType) : Gives demands env (do action; pushType type) before after n := by
  intro s
  refine (moves s).bind fun _ t ⟨piece, adds, carried⟩ => ?_
  refine (pushType_adds type).mono fun _ u typing => ?_
  rw [adds.types] at typing
  exact ⟨type, piece, by simpa using adds.append typing, carried⟩

theorem gives {action : EmitM α} {next : α → EmitM Unit}
    (first : Moves demands env action before middle n)
    (second : ∀ value, Gives demands env (next value) middle after m) :
    Gives demands env (action >>= next) before after (n + m) := by
  intro s
  refine (first s).bind fun value t ⟨piece, adds, carried⟩ => ?_
  refine (second value t).mono fun _ u ⟨type, more, adding, carriedMore⟩ => ?_
  rw [adds.types] at adding
  exact ⟨type, _, adds.append adding,
    fun ways base => (carried ways base).append (carriedMore ways base)⟩

end Moves

theorem Gives.recount {action : EmitM Unit}
    (gives : Gives demands env action before after n) (same : n = m) :
    Gives demands env action before after m := same ▸ gives

namespace EmitsPush

variable {action : EmitM Unit}

theorem ofGives (gives : Gives demands env action [] [false] n) :
    EmitsPush demands env action n := gives

theorem converted (emits : EmitsPush demands env action n) (wanted : DataType) :
    Moves demands env (do action; discard (convertTo wanted)) [] [false] n := by
  intro s
  refine (emits s).bind fun _ t ⟨type, piece, adds, pushes⟩ => ?_
  refine (convert_adds wanted adds.types).mono fun _ u converting => ?_
  exact ⟨_, adds.append converting, fun ways base =>
    pushes.converted type wanted ways base⟩

theorem convertedThen {β : Type} {next : EmitM β} {below : MarkerStack}
    (emits : EmitsPush demands env action n) (wanted : DataType)
    (moves : Moves demands env next (false :: below) after m) :
    Moves demands env (do action; discard (convertTo wanted); next) below after
      (n + m) := by
  intro s
  refine (emits s).bind fun _ t ⟨type, piece, adds, pushes⟩ => ?_
  refine (convert_adds wanted adds.types).bind fun _ u converting => ?_
  refine (moves u).mono fun _ v ⟨more, adding, carried⟩ => ?_
  rw [converting.types] at adding
  exact ⟨_, (adds.append converting).append adding, fun ways base =>
    (pushes.converted type wanted ways (below ++ base)).append (carried ways base)⟩

theorem goTo (pos : Position) (emits : EmitsPush demands env action n) :
    EmitsPush demands env (do Emission.goTo pos; action) n :=
  goTo_emitsValue pos emits

theorem recount (emits : EmitsPush demands env action n) (same : n = m) :
    EmitsPush demands env action m := same ▸ emits

end EmitsPush

theorem goTo_moves (pos : Position) : Moves demands env (goTo pos) before before 0 :=
  .nothing fun _ => goTo_adds pos

theorem emitRead_moves (v : Variable) : Moves demands env (emitRead v) [] [false] 0 :=
  fun _ => (emitRead_adds v).mono fun _ _ reading =>
    ⟨_, reading, fun _ _ => .read v _⟩

theorem emitName_pushes (v : Variable) : EmitsPush demands env (emitName v) 0 := by
  refine EmitsPush.goTo v.pos fun s => ?_
  have named : Ensures env s (namesFunction v) fun _ t => t = s := by
    unfold namesFunction
    refine ensures_ite (fun _ => rfl) fun _ => ?_
    exact rfl
  refine named.bind fun isFunction t same => ?_
  subst same
  refine ensures_ite (fun _ => ?_) fun _ => ?_
  · have pushing : Moves demands env (emitPushFunction v.name) [] [false] 0 :=
      .step (fun _ => emitPushFunction_adds v.name) fun _ _ => .pushFunction v.name
    exact EmitsPush.ofGives (pushing.typed .int32) t
  · exact EmitsPush.ofGives ((emitRead_moves v).typed .variant) t

theorem emitStepValue_pushes (v : Variable) (isBefore increment : Bool) :
    EmitsPush demands env (emitStepValue v isBefore increment) 0 := by
  intro s
  refine ensures_bind.mpr (ensures_resolveVariable.mpr ?_)
  obtain ⟨name, owner⟩ := s.resolve env v
  have reading :
    Moves demands env (emitPushVariable (pushOpcode v owner) (.plain name owner))
      [] [false] 0 :=
    .step (fun _ => emitPushVariable_adds _ _) fun _ _ => .read v (name, owner)
  have one : Moves demands env (emitPushShort 1) [] [false] 0 :=
    .step (fun _ => emitPushShort_adds 1) fun _ _ => .pushShort 1
  have adding :
    Moves demands env (emitOp (arithmeticOpcode (stepOp increment)) .int32 .variant)
      [false, false] [false] 0 :=
    .step (fun _ => emitOp_adds _ _ _) fun _ _ =>
      .arithmetic _ (by cases increment <;> rfl) _ _
  have copying : Moves demands env (emitDuplicate .variant 0) [false] [false, false] 0 :=
    .step (fun _ => emitDuplicate_adds _ _) fun _ _ => .duplicate _
  have storing : Moves demands env (emitPopVariable .variant .variant (.plain name owner))
      [false] [] 0 :=
    .step (fun _ => emitPopVariable_adds _ _ _) fun _ _ => .popPlain _ _ _
  have ending := (storing.frame [false]).typed .variant
  cases isBefore with
  | true =>
    exact EmitsPush.ofGives (reading.gives fun _ => (one.frame [false]).gives fun _ =>
      adding.gives fun _ => copying.gives fun _ => ending) s
  | false =>
    exact EmitsPush.ofGives (reading.gives fun _ => copying.gives fun _ =>
      (one.frame [false, false]).gives fun _ =>
        (adding.frame [false]).gives fun _ => ending) s

def IsInstance (inst : MarkerStack) : Prop :=
  ∀ below, MarkerStack.dropInstance (inst ++ below) = below

theorem isInstance_single : IsInstance [false] := fun _ => rfl

theorem isInstance_marked (value : Bool) : IsInstance [true, value] := fun _ => rfl

theorem isInstance_withInstance (on : Target) (type : DataType) :
    IsInstance (withInstance on type []) := by
  intro below
  rw [withInstance_append]
  exact dropInstance_withInstance on type below

section Accesses

variable {ways : Ways} {inst base : MarkerStack} {x y : Bool} (name : String)
  (scope : Instance) (isInstance : IsInstance inst)

include isInstance

theorem Carries.readMember :
    Carries demands ways (inst ++ base)
      [Cell.pushVariable .push (.onStack name scope .stackTop)] (false :: base) 0 := by
  refine .cell ⟨rfl, rfl, rfl, rfl, rfl⟩ (fun _ => rfl) fun _ below => ?_
  change false :: MarkerStack.dropInstance (inst ++ base ++ below) = _
  rw [List.append_assoc, isInstance]
  rfl

theorem Carries.readElement {access : Access}
    (isElement : access = .array ∨ access = .nested ∨ access = .nestedStore) :
    Carries demands ways (x :: inst ++ base)
      [Cell.pushVariable .push (.onStack name scope access)] (false :: base) 0 := by
  have isDraft : (Cell.pushVariable .push (.onStack name scope access)).IsDraft := by
    rcases isElement with rfl | rfl | rfl <;> rfl
  refine .cell ⟨rfl, rfl, rfl, rfl, isDraft⟩ (fun _ => rfl) fun _ below => ?_
  have dropped : MarkerStack.dropInstance (inst ++ base ++ below) = base ++ below := by
    rw [List.append_assoc, isInstance]
  rcases isElement with rfl | rfl | rfl <;> exact congrArg (false :: ·) dropped

theorem Carries.storeMember (type : DataType) :
    Carries demands ways (inst ++ x :: base)
      [Cell.popVariable .variant type (.onStack name scope .stackTop)] base 0 := by
  refine .cell ⟨rfl, rfl, rfl, rfl, rfl⟩ (fun _ => rfl) fun _ below => ?_
  change (MarkerStack.dropInstance (inst ++ x :: base ++ below)).drop 1 = _
  rw [List.append_assoc, isInstance]
  rfl

theorem Carries.storeElement (type : DataType) :
    Carries demands ways (y :: inst ++ x :: base)
      [Cell.popVariable .variant type (.onStack name scope .array)] base 0 := by
  refine .cell ⟨rfl, rfl, rfl, rfl, rfl⟩ (fun _ => rfl) fun _ below => ?_
  change (MarkerStack.dropInstance (inst ++ x :: base ++ below)).drop 1 = _
  rw [List.append_assoc, isInstance]
  rfl

theorem Carries.updateMember (type : DataType) :
    Carries demands ways (x :: inst ++ base)
      [Cell.popVariable .int32 type (.onStack name scope .stackTop)] base 0 := by
  refine .cell ⟨rfl, rfl, rfl, rfl, rfl⟩ (fun _ => rfl) fun _ below => ?_
  change MarkerStack.dropInstance (inst ++ base ++ below) = _
  rw [List.append_assoc, isInstance]

theorem Carries.updateElement (type : DataType) :
    Carries demands ways (x :: y :: inst ++ base)
      [Cell.popVariable .int32 type (.onStack name scope .array)] base 0 := by
  refine .cell ⟨rfl, rfl, rfl, rfl, rfl⟩ (fun _ => rfl) fun _ below => ?_
  change MarkerStack.dropInstance (inst ++ base ++ below) = _
  rw [List.append_assoc, isInstance]

end Accesses

section Elements

variable {first others object : EmitM Unit} {inst : MarkerStack} {isNested : Bool}
  (name : String) (scope : Instance)

theorem emitElementRead_gives (isInstance : IsInstance inst)
    (indexing : Moves demands env first [] [false] n)
    (descending : isNested = true → Moves demands env others [false] [false] m) :
    Gives demands env (emitElementRead name scope isNested first others) inst [false]
      (n + if isNested then m else 0) := by
  refine (indexing.frame inst).gives fun _ => ?_
  have reading (access : Access) (isElement : access = .array ∨ access = .nested ∨
      access = .nestedStore) : Moves demands env
      (emitPushVariable .push (.onStack name scope access)) (false :: inst) [false] 0 :=
    .step (fun _ => emitPushVariable_adds _ _)
      fun _ _ => Carries.readElement name scope isInstance isElement
  cases isNested with
  | true =>
    refine Gives.recount ((reading .nested (by simp)).gives fun _ =>
      (descending rfl).typed .variant) (by simp)
  | false => exact (reading .array (by simp)).typed .variant

theorem emitElementStore_moves (isInstance : IsInstance inst)
    (indexing : Moves demands env first [] [false] n)
    (descending : isNested = true → Moves demands env others [false, false] [] m) :
    Moves demands env (emitElementStore name scope isNested first others) (inst ++ [false])
      [] (n + if isNested then m else 0) := by
  have indexed := indexing.frame (inst ++ [false])
  refine indexed.bind fun _ => ?_
  cases isNested with
  | true =>
    have reading :
      Moves demands env (emitPushVariable .push (.onStack name scope .nestedStore))
        (false :: inst ++ [false]) [false, false] 0 :=
      .step (fun _ => emitPushVariable_adds _ _) fun ways base => by
        rw [List.append_assoc]
        exact Carries.readElement name scope isInstance (Or.inr (Or.inr rfl))
    exact Moves.recount (reading.bind fun _ => descending rfl) (by simp)
  | false =>
    refine .step (fun _ => emitPopVariable_adds _ _ _) fun ways base => ?_
    have storing : Carries demands ways (false :: inst ++ false :: base)
        [Cell.popVariable .variant .variant (.onStack name scope .array)] base 0 :=
      Carries.storeElement name scope isInstance .variant
    simpa using storing

variable {v : Variable} {indices : List Expr}

/-- The instance of a variable is not the marker of the stack if no marker is written. -/
theorem emitOwner_moves (plain : demands.stack → v.owner ≠ some .stackTop) (s : Emitter) :
    Moves demands env (emitPushImmediate (s.resolve env v).2.code) [] [false] 0 := by
  refine .step (fun _ => emitPushImmediate_adds _) fun _ _ =>
    .pushImmediate fun holds same => ?_
  have owner : (s.resolve env v).2 ≠ .stackTop := s.resolve_ne_stackTop env (plain holds)
  apply owner
  cases resolved : (s.resolve env v).2
  rw [resolved] at same
  exact congrArg Instance.mk same

theorem emitElement_pushes
    (plain : demands.stack → v.owner ≠ some .stackTop)
    (indexing : Moves demands env first [] [false] n)
    (descending : env.isNested indices = true →
      Moves demands env others [false] [false] m) :
    EmitsPush demands env (emitElement v indices first others)
      (n + if env.isNested indices then m else 0) := by
  refine EmitsPush.goTo v.pos fun s => ?_
  refine ensures_bind.mpr (ensures_resolveVariable.mpr ?_)
  have reading : Gives demands env _ [false] [false] _ :=
    emitElementRead_gives (s.resolve env v).1 (s.resolve env v).2 isInstance_single
      indexing descending
  have whole := (emitOwner_moves plain s).gives fun _ => reading
  exact EmitsPush.ofGives (whole.recount (Nat.zero_add _)) s

theorem EmitsPush.instanceGives {next : EmitM Unit}
    (pushes : EmitsPush demands env object k)
    (accessing : ∀ inst, IsInstance inst → Gives demands env next inst [false] m) :
    EmitsPush demands env (do
      object
      convertToInstance
      next) (k + m) := by
  intro s
  refine (pushes s).bind fun _ t ⟨type, piece, adds, pushing⟩ => ?_
  refine (convertToInstance_adds adds.types).bind fun _ u converting => ?_
  have isInstance := isInstance_withInstance env.target type
  refine (accessing _ isInstance u).mono fun _ v ⟨resultType, more, adding, carried⟩ => ?_
  rw [converting.types] at adding
  refine ⟨resultType, _, (adds.append converting).append adding, fun ways base => ?_⟩
  have accessed := carried ways base
  rw [withInstance_append] at accessed
  exact ((pushing ways base).append (.instanceConversion env.target type)).append accessed

theorem EmitsPush.instanceMoves {next : EmitM Unit} {below : MarkerStack}
    (pushes : EmitsPush demands env object k)
    (accessing : ∀ inst, IsInstance inst →
      Moves demands env next (inst ++ below) after m) :
    Moves demands env (do
      object
      convertToInstance
      next) below after (k + m) := by
  intro s
  refine (pushes s).bind fun _ t ⟨type, piece, adds, pushing⟩ => ?_
  refine (convertToInstance_adds adds.types).bind fun _ u converting => ?_
  have isInstance := isInstance_withInstance env.target type
  refine (accessing _ isInstance u).mono fun _ v ⟨more, adding, carried⟩ => ?_
  rw [converting.types] at adding
  refine ⟨_, (adds.append converting).append adding, fun ways base => ?_⟩
  have accessed := carried ways base
  rw [List.append_assoc, withInstance_append] at accessed
  exact ((pushing ways (below ++ base)).append
    (.instanceConversion env.target type)).append accessed

theorem emitMember_pushes {pos : Position} {field : Variable}
    (pushes : EmitsPush demands env object k)
    (indexing : Moves demands env first [] [false] n)
    (descending : env.isNested indices = true →
      Moves demands env others [false] [false] m) :
    EmitsPush demands env (emitMember pos field indices object first others)
      (k + if indices.isEmpty then 0 else n + if env.isNested indices then m else 0) := by
  refine EmitsPush.goTo pos (pushes.instanceGives fun inst isInstance => ?_)
  refine Gives.recount ((goTo_moves field.pos).gives fun _ => ?_) (Nat.zero_add _)
  intro s
  split
  · have reading : Moves demands env
        (emitPushVariable .push (.onStack field.name .self .stackTop)) inst [false] 0 :=
      .step (fun _ => emitPushVariable_adds _ _)
        fun _ _ => Carries.readMember field.name .self isInstance
    exact reading.typed .variant s
  · refine ensures_bind.mpr (ensures_read.mpr ?_)
    exact emitElementRead_gives field.name .self isInstance indexing descending s

theorem emitElementPlaceStore_moves
    (plain : demands.stack → v.owner ≠ some .stackTop)
    (indexing : Moves demands env first [] [false] n)
    (descending : env.isNested indices = true →
      Moves demands env others [false, false] [] m) :
    Moves demands env (emitElementPlaceStore v indices first others) [false] []
      (n + if env.isNested indices then m else 0) := by
  intro s
  refine ensures_bind.mpr (ensures_resolveVariable.mpr ?_)
  have storing :=
    emitElementStore_moves (s.resolve env v).1 (s.resolve env v).2 isInstance_single
    indexing descending
  have whole := ((emitOwner_moves plain s).frame [false]).bind fun _ => storing
  exact whole.recount (Nat.zero_add _) s

theorem emitMemberStore_moves {field : Variable}
    (pushes : EmitsPush demands env object k)
    (indexing : Moves demands env first [] [false] n)
    (descending : env.isNested indices = true →
      Moves demands env others [false, false] [] m) :
    Moves demands env (emitMemberStore field indices object first others) [false] []
      (k + if indices.isEmpty then 0 else n + if env.isNested indices then m else 0) := by
  refine pushes.instanceMoves fun inst isInstance => ?_
  intro s
  split
  · have storing : Moves demands env
        (emitPopVariable .variant .variant (.onStack field.name .self .stackTop))
        (inst ++ [false]) []
        0 :=
      .step (fun _ => emitPopVariable_adds _ _ _) fun ways base => by
        rw [List.append_assoc]
        exact Carries.storeMember field.name .self isInstance .variant
    exact storing s
  · refine ensures_bind.mpr (ensures_read.mpr ?_)
    exact emitElementStore_moves field.name .self isInstance indexing descending s

end Elements

section Calls

variable {args object : EmitM Unit} {count : Nat}

theorem emitCall_moves {name : String} (count : Nat)
    (spare : demands.hooks → name ≠ Internal.tryHook) :
    Moves demands env (emitCall name count) (List.replicate count false) [false] 0 :=
  fun _ => (emitCall_adds name count).mono fun _ _ ⟨few, calling⟩ =>
    ⟨_, calling, fun _ _ => .call _ few List.length_replicate spare⟩

theorem emitCallValue_moves (count : Nat) :
    Moves demands env (emitCallValue count) (false :: false :: List.replicate count false)
      [false] 0 :=
  fun _ => (emitCallValue_adds count).mono fun _ _ ⟨few, calling⟩ =>
    ⟨_, calling, fun _ _ => .callValue _ few List.length_replicate⟩

theorem emitCallDiscard_moves {name : String} (count : Nat)
    (spare : demands.hooks → name ≠ Internal.tryHook) :
    Moves demands env (emitCallDiscard name count) (List.replicate count false) [] 0 :=
  (emitCall_moves count spare).bind fun _ =>
    .step (fun _ => emitSingle_adds .discard .variant) fun _ _ => .discard .variant

theorem checkArity_moves (callee : Callee) (supplied : Nat) :
    Moves demands env (checkArity callee supplied) before before 0 := by
  refine .nothing fun s => ?_
  unfold checkArity
  split
  · refine ensures_ite (fun _ => trivial) fun _ => ?_
    exact Adds.refl s
  · exact Adds.refl s

theorem emitCallee_moves {callee : Callee} (count : Nat)
    (spare : demands.hooks → callee.name ≠ Internal.tryHook) :
    Moves demands env (emitCallee callee count) (List.replicate count false)
      [false] 0 := by
  intro s
  refine ensures_bind.mpr (ensures_knowsFunction.mpr ?_)
  refine ensures_bind.mpr (ensures_ownsName.mpr ?_)
  refine ensures_ite (fun _ => emitCall_moves count spare s) fun _ => ?_
  refine ensures_bind.mpr (ensures_read.mpr ?_)
  refine ensures_ite (fun _ => ?_) fun _ => ?_
  · have owner : Moves demands env (emitCall Internal.this 0) (List.replicate count false)
        (false :: List.replicate count false) 0 :=
      Moves.frame (emitCall_moves 0 fun _ => by decide) (List.replicate count false)
    have function : Moves demands env (emitRead { pos := callee.pos, name := callee.name })
        (false :: List.replicate count false)
        (false :: false :: List.replicate count false) 0 :=
      Moves.frame (emitRead_moves _) (false :: List.replicate count false)
    exact (owner.bind fun _ => function.bind fun _ => emitCallValue_moves count) s
  · refine ensures_ite (fun _ => emitCall_moves count spare s) fun _ => ?_
    exact trivial

theorem emitFunctionCall_pushes {callee : Callee}
    (spare : demands.hooks → callee.name ≠ Internal.tryHook)
    (arguments : Moves demands env args [] (List.replicate count false) n) :
    EmitsPush demands env (emitFunctionCall callee count args) n := by
  refine EmitsPush.goTo callee.pos (EmitsPush.ofGives ?_)
  refine Gives.recount
    ((checkArity_moves callee count).gives fun _ => arguments.gives fun _ =>
    (goTo_moves callee.pos).gives fun _ =>
    (emitCallee_moves count spare).typed .variant) ?_
  omega

theorem emitConstruct_pushes (callee : Callee)
    (arguments : Moves demands env args [] (List.replicate count false) n) :
    EmitsPush demands env (emitConstruct callee count args) n := by
  refine EmitsPush.goTo callee.pos fun s => ?_
  refine ensures_bind.mpr (ensures_read.mpr (ensures_unless trivial fun _ => ?_))
  refine ensures_bind.mpr (ensures_knowsFunction.mpr (ensures_unless trivial fun _ => ?_))
  have function :
    Moves demands env (emitPushFunction callee.name) (List.replicate count false)
      (List.replicate (count + 1) false) 0 :=
    .step (fun _ => emitPushFunction_adds _) fun _ _ => .pushFunction _
  have converting : Moves demands env (emitOp .convert .int32 .variant)
      (List.replicate (count + 1) false) (List.replicate (count + 1) false) 0 :=
    .step (fun _ => emitOp_adds _ _ _) fun _ _ => .convert _ _
  exact EmitsPush.ofGives
    (arguments.gives fun _ => function.gives fun _ => converting.gives fun _ =>
    (emitCall_moves (count + 1) fun _ => by decide).typed .variant) s

private theorem method_gives (callee : Callee) (count : Nat) :
    Gives demands env (do
      goTo callee.pos
      emitDuplicate .variant 0
      emitPushImmediate Instance.stackTop.code
      emitPushVariable .push (.onStack callee.name .self .stackTop)
      emitCallValue count
      pushType .variant) (false :: List.replicate count false) [false] 0 := by
  have copying :
    Moves demands env (emitDuplicate .variant 0) (false :: List.replicate count false)
      (false :: false :: List.replicate count false) 0 :=
    .step (fun _ => emitDuplicate_adds _ _) fun _ _ => .duplicate _
  have marking : Moves demands env (emitPushImmediate Instance.stackTop.code)
      (false :: false :: List.replicate count false)
      (true :: false :: false :: List.replicate count false) 0 :=
    .step (fun _ => emitPushImmediate_adds _) fun _ _ => .pushMarker
  have reading :
    Moves demands env (emitPushVariable .push (.onStack callee.name .self .stackTop))
      (true :: false :: false :: List.replicate count false)
      (false :: false :: List.replicate count false) 0 :=
    .step (fun _ => emitPushVariable_adds _ _) fun _ _ =>
      Carries.readMember callee.name .self (isInstance_marked false)
  exact (goTo_moves callee.pos).gives fun _ => copying.gives fun _ =>
    marking.gives fun _ =>
    reading.gives fun _ => (emitCallValue_moves count).typed .variant

theorem emitMethodCall_pushes (pos : Position) (callee : Callee)
    (arguments : Moves demands env args [] (List.replicate count false) n)
    (pushes : EmitsPush demands env object k) :
    EmitsPush demands env (emitMethodCall pos callee count args object) (n + k) := by
  refine EmitsPush.goTo pos fun s => ?_
  refine ensures_bind.mpr (ensures_read.mpr (ensures_unless trivial fun _ => ?_))
  refine EmitsPush.ofGives (arguments.gives fun _ t => ?_) s
  refine (pushes t).bind fun _ u ⟨type, piece, adds, pushing⟩ => ?_
  refine (convertTo_adds .variant adds.types).bind fun converted v ⟨_, converting⟩ => ?_
  have finding : Moves demands env (emitCall Internal.getInstance 1)
      (false :: List.replicate count false) (false :: List.replicate count false) 0 :=
    (emitCall_moves 1 fun _ => by decide).frame (List.replicate count false)
  refine Ensures.mono
    (ensures_ite (fun _ => finding.gives (fun _ => method_gives callee count) v)
    fun _ => method_gives callee count v) fun _ w ⟨resultType, more, adding, carried⟩ => ?_
  rw [converting.types] at adding
  refine ⟨resultType, _, (adds.append converting).append adding, fun ways base => ?_⟩
  exact ((pushing ways _).append (.conversion type .variant)).append (carried ways base)

theorem emitArray_pushes
    (elements : Moves demands env args [] (List.replicate count false) n) :
    EmitsPush demands env (emitArray count args) n :=
  .ofGives (elements.gives fun _ =>
    (emitCall_moves count fun _ => by decide).typed .variant)

theorem emitBind_moves (name : String) (owner : Instance)
    (plain : owner.code ≠ Instance.stackTop.code) :
    Moves demands env (emitBind name owner) before (false :: before) 0 := by
  refine .step (fun _ => emitBind_adds name owner) fun ways base => ?_
  have converting {below : MarkerStack} : Carries demands ways (false :: below)
      [Cell.op .convert .int32 .variant] (false :: below) 0 := .convert _ _
  exact (Carries.pushFunction name).append (converting.append
    ((Carries.pushImmediate fun _ => plain).append (converting.append
      (.call [false, false] (by decide) rfl fun _ => by decide))))

theorem emitStruct_pushes (fields : List String)
    (values : Moves demands env args [] (List.replicate fields.length false) n) :
    EmitsPush demands env (emitStruct fields args) n := by
  intro s
  refine ensures_bind.mpr (ensures_read.mpr (ensures_unless trivial fun _ => ?_))
  have storing : ∀ (fields : List String) (index : Nat),
      Rests demands [] 0 (fieldStores index fields) := by
    intro fields
    induction fields with
    | nil => exact fun _ => .nil _ _
    | cons field rest induction =>
      exact fun index => ((Carries.pushPlain _ _).append (.popPlain _ _ _)).append
        (induction (index + 1))
  have body : Moves demands env (emitStructBody fields) [] [] 0 :=
    .step (fun s => emitStructBody_adds fields s) fun _ _ => (storing fields 0).function
  have creating : Moves demands env (emitCall Internal.newObject (fields.length + 1))
      (List.replicate (fields.length + 1) false) [false] 0 :=
      emitCall_moves _ fun _ => by decide
  have whole := body.gives fun name => values.gives fun _ =>
    (emitBind_moves name .static (by decide)).gives fun _ => creating.typed .variant
  exact EmitsPush.ofGives (whole.recount (by omega)) s

end Calls

section Indices

variable {first second : EmitM Unit}

theorem emitPairIndex_moves (pushes : EmitsPush demands env first n)
    (pushesSecond : EmitsPush demands env second m) :
    Moves demands env (emitPairIndex first second) [] [false]
      (n + if env.target.hasFunctions then 0 else m) := by
  have scaling :
      Moves demands env (discard (emitPushInt32 32000)) [false] [false, false] 0 :=
    .step (fun _ => ensures_discard.mpr (emitPushInt32_adds _)) fun _ _ => .pushInt32 _
  have multiplying :
      Moves demands env (emitOp .mul .int32 .int32) [false, false] [false] 0 :=
    .step (fun _ => emitOp_adds _ _ _) fun _ _ => .arithmetic .mul rfl _ _
  have adding : Moves demands env (emitOp .add .int32 .int32) [false, false] [false] 0 :=
    .step (fun _ => emitOp_adds _ _ _) fun _ _ => .arithmetic .add rfl _ _
  refine pushes.convertedThen .int32 fun s => ?_
  refine ensures_bind.mpr (ensures_read.mpr ?_)
  cases env.target.hasFunctions with
  | true => exact ensures_pure.mpr ⟨[], Adds.refl s, fun ways _ => .nil ways _⟩
  | false =>
    exact (Moves.recount (scaling.bind fun _ => multiplying.bind fun _ =>
      pushesSecond.convertedThen .int32 adding) (by simp)) s

theorem emitManyIndex_moves
    (pushes : env.target.hasFunctions = true → EmitsPush demands env first n) :
    Moves demands env (emitManyIndex first) [] [false] n := by
  intro s
  refine ensures_bind.mpr (ensures_read.mpr (ensures_unless trivial fun known => ?_))
  exact (pushes (by simpa using known)).converted .int32 s

end Indices

def IsPlace (demands : Demands) (use : VariableUse) (place : MarkerStack) : Prop :=
  (∀ ways base, Carries demands ways (place ++ base) [Cell.pushVariable .push use]
    (false :: base) 0) ∧ ∀ ways base type, Carries demands ways (false :: place ++ base)
      [Cell.popVariable .int32 type use] base 0

/-- The action puts a place on the stack twice. -/
def EmitsPlace (demands : Demands) (env : Environment) (action : EmitM VariableUse)
    (n : Nat) : Prop :=
  ∀ s, Ensures env s action fun use t => ∃ piece place, Adds s t piece s.types ∧
    IsPlace demands use place ∧
    ∀ ways base, Carries demands ways base piece (place ++ (place ++ base)) n

theorem isPlace_element (name : String) (owner : Instance) :
    IsPlace demands (.onStack name owner .array) [false, false] :=
  ⟨fun _ _ => Carries.readElement name owner isInstance_single (Or.inl rfl),
    fun _ _ type => Carries.updateElement name owner isInstance_single type⟩

theorem isPlace_member (name : String) :
    IsPlace demands (.onStack name .self .stackTop) [false] :=
  ⟨fun _ _ => Carries.readMember name .self isInstance_single,
    fun _ _ type => Carries.updateMember name .self isInstance_single type⟩

section Places

variable {first object value : EmitM Unit}

theorem emitElementPlace_emits {v : Variable} {indices : List Expr}
    (plain : demands.stack → v.owner ≠ some .stackTop)
    (indexing : env.isNested indices = false → Moves demands env first [] [false] n) :
    EmitsPlace demands env (emitElementPlace v indices first) n := by
  intro s
  refine ensures_bind.mpr (ensures_resolveVariable.mpr ?_)
  refine ensures_bind.mpr (ensures_read.mpr (ensures_unless trivial fun flat => ?_))
  have indexing := indexing (Bool.eq_false_iff.mpr flat)
  refine (emitOwner_moves plain s s).bind fun _ t ⟨piece, adds, carried⟩ => ?_
  refine (indexing t).bind fun _ u ⟨index, indexed, carriedIndex⟩ => ?_
  refine (emitDuplicate_adds .int32 1).bind fun _ v copying => ?_
  rw [adds.types] at indexed
  rw [indexed.types] at copying
  refine ensures_pure.mpr ⟨_, [false, false], (adds.append indexed).append copying,
    isPlace_element _ _, fun ways base => ?_⟩
  refine (((carried ways base).append (carriedIndex ways _)).append
    (.duplicatePair .int32)).recount ?_
  omega

theorem emitMemberPlace_emits {field : Variable} {indices : List Expr}
    (pushes : EmitsPush demands env object k)
    (indexing : env.isNested indices = false → Moves demands env first [] [false] n) :
    EmitsPlace demands env (emitMemberPlace field indices object first)
      (k + if indices.isEmpty then 0 else n) := by
  intro s
  refine (pushes s).bind fun _ t ⟨type, piece, adds, pushing⟩ => ?_
  refine (convert_adds .int32 adds.types).bind fun _ u converting => ?_
  have objectAdds := adds.append converting
  have objectCarried (ways : Ways) (base : MarkerStack) :=
    pushing.converted type .int32 ways base
  split
  · refine (emitDuplicate_adds .int32 0).bind fun _ v copying => ?_
    rw [converting.types] at copying
    exact ensures_pure.mpr ⟨_, [false], objectAdds.append copying, isPlace_member _,
      fun ways base => (objectCarried ways base).append (.duplicate .int32)⟩
  · refine ensures_bind.mpr (ensures_read.mpr (ensures_unless trivial fun flat => ?_))
    refine (indexing (Bool.eq_false_iff.mpr flat) u).bind
      fun _ v ⟨index, indexed, carriedIndex⟩ => ?_
    refine (emitDuplicate_adds .int32 1).bind fun _ w copying => ?_
    rw [converting.types] at indexed
    rw [indexed.types] at copying
    refine ensures_pure.mpr ⟨_, [false, false], (objectAdds.append indexed).append copying,
      isPlace_element _ _, fun ways base => ?_⟩
    exact ((objectCarried ways base).append (carriedIndex ways _)).append
      (.duplicatePair .int32)

theorem emitPlaceUpdate_moves {place : EmitM VariableUse} (op : BinaryOp)
    (placing : EmitsPlace demands env place n) (pushes : EmitsPush demands env value m) :
    Moves demands env (emitPlaceUpdate op place value) [] [] (n + m) := by
  intro s
  refine (placing s).bind fun use t ⟨piece, stack, adds, isPlace, carried⟩ => ?_
  refine (emitPushVariable_adds .push use).bind fun _ u reading => ?_
  refine (pushType_adds .variant).bind fun _ v typing => ?_
  refine (convertOperand_adds op typing.types).bind fun _ w converting => ?_
  refine (pushes w).bind fun _ x ⟨type, valuePiece, valuing, pushing⟩ => ?_
  rw [converting.types] at valuing
  refine (applyBinary_adds op valuing.types).bind fun _ y applying => ?_
  refine ensures_bind.mpr ((ensures_popType applying.types).mpr ?_)
  have popped := applying.retyped u.types
  refine (emitPopVariable_adds .int32 _ use).mono fun _ z storing => ?_
  have whole := ((((adds.append reading).append typing).append converting).append
    valuing).append (popped.append storing)
  refine ⟨_, by rw [reading.types, adds.types] at whole; exact whole, fun ways base => ?_⟩
  have read : Carries demands ways base _ (false :: (stack ++ base)) _ :=
    (((carried ways base).append (isPlace.1 ways (stack ++ base))).append
      (.nil ways _)).append (.conversion .variant (operandType op .variant))
  have stored : Carries demands ways (false :: false :: (stack ++ base)) _ base _ :=
    (Carries.binary op type (operandType op .variant)).append
      (isPlace.2 ways base (binaryType op type (operandType op .variant)))
  exact (read.append (pushing ways _)).append stored

end Places

/-! Statements without statements in them. -/

section Simple

variable {value : EmitM Unit}

theorem Moves.statement {action : EmitM Unit} {kinds : List LoopKind}
    {params : List String} (moves : Moves demands env action [] [] n) :
    EmitsStatement env kinds params action fun _ piece => Rests demands kinds n piece :=
  fun s _ _ => (moves s).mono fun _ _ ⟨piece, adds, carried⟩ =>
    ⟨piece, Lays.ofAdds adds, carried _ _⟩

theorem EmitsPush.operand (pushes : EmitsPush demands env value n) (op : BinaryOp) :
    EmitsPush demands env (do value; convertOperand op) n := by
  intro s
  refine (pushes s).bind fun _ t ⟨type, piece, adds, pushing⟩ => ?_
  refine (convertOperand_adds op adds.types).mono fun _ u converting => ?_
  exact ⟨_, _, adds.append converting, fun ways base => pushing.converted type _ ways base⟩

theorem EmitsPush.discarded (pushes : EmitsPush demands env value n) :
    Moves demands env (do value; emitDiscard) [] [] n := by
  intro s
  refine (pushes s).bind fun _ t ⟨type, piece, adds, pushing⟩ => ?_
  refine (emitDiscard_adds adds.types).mono fun _ u dropping => ?_
  exact ⟨_, adds.append dropping, fun ways base =>
    (pushing ways base).append (.discard type)⟩

theorem EmitsPush.stored (pushes : EmitsPush demands env value n) (v : Variable) :
    Moves demands env (do value; emitStore v) [] [] n := by
  intro s
  refine (pushes s).bind fun _ t ⟨type, piece, adds, pushing⟩ => ?_
  refine (emitStore_adds v adds.types).mono fun _ u storing => ?_
  exact ⟨_, adds.append storing, fun ways base =>
    (pushing ways base).append (.store type _)⟩

def emitOperation (v : Variable) (op : BinaryOp) (value : EmitM Unit) : EmitM Unit := do
  emitName v
  convertOperand op
  value
  convertOperand op
  applyBinary op

theorem emitUpdate_eq (v : Variable) (op : BinaryOp) (value : EmitM Unit) :
    emitUpdate v op value = (do emitOperation v op value; emitStore v) := by
  simp only [emitUpdate, emitOperation, bind_assoc]

theorem emitOperation_pushes (v : Variable) (op : BinaryOp)
    (pushes : EmitsPush demands env value n) :
    EmitsPush demands env (emitOperation v op value) n := by
  intro s
  have naming : EmitsPush demands env (emitName v) 0 := emitName_pushes v
  refine (naming s).bind fun _ t ⟨type, piece, adds, pushing⟩ => ?_
  refine (convertOperand_adds op adds.types).bind fun _ u converting => ?_
  refine (pushes u).bind fun _ x ⟨valueType, valuePiece, valuing, pushingValue⟩ => ?_
  refine (convertOperand_adds op valuing.types).bind fun _ y convertingValue => ?_
  rw [converting.types] at convertingValue
  refine (applyBinary_adds op convertingValue.types).mono fun _ z applying => ?_
  refine ⟨_, _, ((adds.append converting).append (valuing.append convertingValue)).append
    applying, fun ways base => ?_⟩
  have operands := (pushing.converted type (operandType op type) ways base).append
    (pushingValue.converted valueType (operandType op valueType) ways (false :: base))
  refine (operands.append (.binary op _ _)).recount ?_
  omega

theorem emitUpdate_moves (v : Variable) (op : BinaryOp)
    (pushes : EmitsPush demands env value n) :
    Moves demands env (emitUpdate v op value) [] [] n := by
  rw [emitUpdate_eq]
  exact (emitOperation_pushes v op pushes).stored v

theorem emitStepOne_pushes : EmitsPush demands env emitStepOne 0 :=
  .ofGives
    (Moves.typed (.step (fun _ => emitPushShort_adds 1) fun _ _ => .pushShort 1) .int32)

theorem emitStep_moves (v : Variable) (increment : Bool) :
    Moves demands env (emitStep v increment) [] [] 0 := by
  intro s
  refine (emitRead_adds v).bind fun _ t reading => ?_
  refine (pushType_adds .variant).bind fun _ u typing => ?_
  refine (emitPushShort_adds 1).bind fun _ x pushing => ?_
  refine (pushType_adds .int32).bind fun _ y typingOne => ?_
  rw [pushing.types, typing.types] at typingOne
  refine (applyBinary_adds _ typingOne.types).bind fun _ z applying => ?_
  refine (emitStore_adds v applying.types).mono fun _ w storing => ?_
  rw [reading.types] at storing
  have adds :=
    (((reading.append typing).append (pushing.append typingOne)).append applying).append
      storing
  refine ⟨_, adds, fun ways base => ?_⟩
  have operands : Carries demands ways base _ (false :: false :: base) 0 :=
    ((Carries.read v (s.resolve env v)).append (.nil ways _)).append
      ((Carries.pushShort 1).append (.nil ways _))
  exact (operands.append (.binary _ _ _)).append (.store _ _)

private theorem EmitsPush.bound (pushes : EmitsPush demands env value n) (name : String)
    (owner : Instance) :
    Moves demands env
      (do value; emitPopVariable .variant (← popType) (.plain name owner)) [] []
      n := by
  intro s
  refine (pushes s).bind fun _ t ⟨type, piece, adds, pushing⟩ => ?_
  refine ensures_bind.mpr ((ensures_popType adds.types).mpr ?_)
  have popped := adds.retyped s.types
  refine (emitPopVariable_adds .variant type (.plain name owner)).mono
    fun _ u storing => ?_
  exact ⟨_, popped.append storing,
    fun ways base => (pushing ways base).append (.popPlain type name owner)⟩

theorem emitLocalValue_moves (pos : Position) (name : String)
    (pushes : EmitsPush demands env value n) :
    Moves demands env (emitLocalValue pos name value) [] [] n :=
  Moves.recount ((goTo_moves pos).bind fun _ => pushes.bound name .locals) (Nat.zero_add n)

theorem emitStaticValue_moves (pos : Position) (name : String)
    (pushes : EmitsPush demands env value n) :
    Moves demands env (emitStaticValue pos name value) [] [] n :=
  Moves.recount ((goTo_moves pos).bind fun _ => pushes.bound name .static) (Nat.zero_add n)

def extended (extension : Extension) : Piece := [Cell.extension extension]

/-- Statics are bound once: later calls skip them. -/
def staticSegments (bindings : Piece) : List Piece :=
  [extended .staticsReady, [Cell.leave .branchTrue (.ahead 2)], bindings,
    extended .markStatics]

private theorem extended_adds {s : Emitter} (extension : Extension) :
    Ensures env s (emitExtension extension) fun _ t =>
      Adds s t (extended extension) s.types :=
  emitExtension_adds extension

theorem emitStaticBlock_moves {bindings : EmitM Unit}
    (moves : Moves demands env bindings [] [] n) :
    Moves demands env (emitStaticBlock bindings) [] [] n := by
  intro s
  unfold emitStaticBlock
  refine ensures_bind.mpr (ensures_read.mpr ?_)
  refine ensures_bind.mpr (ensures_bind.mpr (ensures_get.mpr (ensures_pure.mpr ?_)))
  refine ensures_unless trivial fun _ => ?_
  refine (extended_adds .staticsReady).bind fun _ t testing => ?_
  have tested := (Builds.start s fun _ => none).adds testing
  refine ensures_bind.mpr (ensures_emitBranch.mpr ?_)
  have branched := tested.branch .branchTrue 2 rfl
  refine (moves _).bind fun _ u ⟨piece, adds, carried⟩ => ?_
  rw [branched.types] at adds
  have bound := branched.adds adds
  refine (extended_adds .markStatics).bind fun _ v marking => ?_
  rw [bound.types] at marking
  have marked := bound.adds marking
  refine ensures_land.mpr ?_
  have landed := marked.land (.ofSite t.code.size) 2 rfl
    (by simp [testing.closed.awaits, adds.closed.awaits, marking.closed.awaits])
    (by simp [testing.closed.leaves, adds.closed.leaves,
      marking.closed.leaves, tested.size, ForwardPatch.ofSite])
  refine ⟨Piece.join (exitsTo [none, none, some 4]) (staticSegments piece),
    landed.finishValue ?_ ?_, fun ways base => ?_⟩
  · exact ⟨testing.closed.fits, Piece.fits_leave rfl, adds.closed.fits,
      marking.closed.fits, trivial⟩
  · exact ⟨by simp [Aims.know, marked.length], trivial⟩
  · refine (Carries.joined [base, false :: base, base, base, base] [none, none, some base]
      [0, 0, n, 0] ?_ ?_ ?_ rfl rfl).recount ?_
    · exact ⟨.cell ⟨rfl, rfl, rfl, rfl, rfl, rfl⟩ (fun _ => rfl) fun _ _ =>
        rfl, .branchTrue rfl,
        carried _ base, .cell ⟨rfl, rfl, rfl, rfl, rfl, rfl⟩ (fun _ => rfl)
          fun _ _ => rfl, trivial⟩
    · exact ⟨rfl, trivial⟩
    · exact ⟨Piece.strides_unlinked rfl, Piece.strides_ahead (by simp),
        adds.closed.strides, Piece.strides_unlinked rfl, trivial⟩
    · simp

end Simple

end

end GameScript.Emission
