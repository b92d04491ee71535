import GameScript.Proofs.Emission.Equations
import GameScript.Proofs.Emission.Moves

/-! The code of every program leaves the stack as it found it. -/

namespace GameScript.Syntax

open Bytecode

/-! What the code of a tree mentions. -/

inductive Mention where
  | literal (value : Literal)
  | owner (inst : Instance)
  | handler
deriving DecidableEq, Repr

def Variable.mentions (v : Variable) : List Mention := (v.owner.map Mention.owner).toList

mutual

def Expr.mentions : Expr → List Mention
  | .literal _ value => [.literal value]
  | .var v indices => v.mentions ++ mentionsOfAll indices
  | .member _ object _ indices => object.mentions ++ mentionsOfAll indices
  | .call _ args => mentionsOfAll args
  | .methodCall _ object _ args => mentionsOfAll args ++ object.mentions
  | .construct _ args => mentionsOfAll args
  | .binary _ _ operands => mentionsOfAll operands
  | .unary _ _ operand => operand.mentions
  | .step _ _ _ target => target.mentions
  | .conditional _ condition yes no => condition.mentions ++ yes.mentions ++ no.mentions
  | .coalesce _ left right => left.mentions ++ right.mentions
  | .array _ elements => mentionsOfAll elements
  | .struct _ fields => mentionsOfFields fields
  | .function decl => decl.mentions

def FunctionDecl.mentions : FunctionDecl → List Mention
  | .mk _ _ _ _ _ body => mentionsOfBlock body.stmts

def mentionsOfAll : List Expr → List Mention
  | [] => []
  | expr :: rest => expr.mentions ++ mentionsOfAll rest

def mentionsOfValue : Option Expr → List Mention
  | none => []
  | some expr => expr.mentions

def mentionsOfFields : List (String × Expr) → List Mention
  | [] => []
  | (_, value) :: rest => value.mentions ++ mentionsOfFields rest

def Stmt.mentions : Stmt → List Mention
  | .expr _ value => value.mentions
  | .assign _ _ target value => target.mentions ++ value.mentions
  | .step _ _ _ target => target.mentions
  | .locals _ bindings => mentionsOfBindings bindings
  | .globals _ _ => []
  | .statics _ bindings => mentionsOfBindings bindings
  | .block body => mentionsOfBlock body.stmts
  | .ifElse _ condition yes no => condition.mentions ++ yes.mentions ++ mentionsOfOption no
  | .whileLoop _ condition body => condition.mentions ++ body.mentions
  | .forLoop _ init condition step body =>
    mentionsOfOption init ++ mentionsOfValue condition ++ body.mentions ++
      mentionsOfOption step
  | .doUntil _ body condition => body.mentions ++ condition.mentions
  | .repeatLoop _ count body => count.mentions ++ body.mentions
  | .withLoop _ target body => target.mentions ++ body.mentions
  | .switch _ value arms => value.mentions ++ mentionsOfArms arms
  | .breakLoop _ | .continueLoop _ | .exit _ => []
  | .returnValue _ value => mentionsOfValue value
  | .throw _ value => value.mentions
  | .tryBlock _ body handler cleanup =>
    mentionsOfBlock body.stmts ++ mentionsOfHandler handler ++ mentionsOfCleanup cleanup
  | .function decl => decl.mentions
  | .enumeration _ _ _ => []
  | .delete _ target => target.mentions
  | .empty _ => []

def mentionsOfBlock : List Stmt → List Mention
  | [] => []
  | stmt :: rest => stmt.mentions ++ mentionsOfBlock rest

def mentionsOfOption : Option Stmt → List Mention
  | none => []
  | some stmt => stmt.mentions

def mentionsOfHandler : Option (String × Block Stmt) → List Mention
  | none => []
  | some (_, handler) => .handler :: mentionsOfBlock handler.stmts

def mentionsOfCleanup : Option (Block Stmt) → List Mention
  | none => []
  | some block => mentionsOfBlock block.stmts

def mentionsOfBindings : List (Binding Expr) → List Mention
  | [] => []
  | ⟨_, _, value⟩ :: rest => mentionsOfValue value ++ mentionsOfBindings rest

def SwitchArm.mentions : SwitchArm → List Mention
  | .mk _ label body => mentionsOfValue label ++ mentionsOfBlock body

def mentionsOfArms : List SwitchArm → List Mention
  | [] => []
  | arm :: rest => arm.mentions ++ mentionsOfArms rest

end

mutual

def Expr.callees : Expr → List String
  | .literal _ _ => []
  | .var _ indices => calleesOfAll indices
  | .member _ object _ indices => object.callees ++ calleesOfAll indices
  | .call callee args => callee.name :: calleesOfAll args
  | .methodCall _ object _ args => calleesOfAll args ++ object.callees
  | .construct _ args => calleesOfAll args
  | .binary _ _ operands => calleesOfAll operands
  | .unary _ _ operand => operand.callees
  | .step _ _ _ target => target.callees
  | .conditional _ condition yes no => condition.callees ++ yes.callees ++ no.callees
  | .coalesce _ left right => left.callees ++ right.callees
  | .array _ elements => calleesOfAll elements
  | .struct _ fields => calleesOfFields fields
  | .function decl => decl.callees

def FunctionDecl.callees : FunctionDecl → List String
  | .mk _ _ _ _ _ body => calleesOfBlock body.stmts

def calleesOfAll : List Expr → List String
  | [] => []
  | expr :: rest => expr.callees ++ calleesOfAll rest

def calleesOfValue : Option Expr → List String
  | none => []
  | some expr => expr.callees

def calleesOfFields : List (String × Expr) → List String
  | [] => []
  | (_, value) :: rest => value.callees ++ calleesOfFields rest

def Stmt.callees : Stmt → List String
  | .expr _ value => value.callees
  | .assign _ _ target value => target.callees ++ value.callees
  | .step _ _ _ target => target.callees
  | .locals _ bindings => calleesOfBindings bindings
  | .globals _ _ => []
  | .statics _ bindings => calleesOfBindings bindings
  | .block body => calleesOfBlock body.stmts
  | .ifElse _ condition yes no => condition.callees ++ yes.callees ++ calleesOfOption no
  | .whileLoop _ condition body => condition.callees ++ body.callees
  | .forLoop _ init condition step body =>
    calleesOfOption init ++ calleesOfValue condition ++ body.callees ++
      calleesOfOption step
  | .doUntil _ body condition => body.callees ++ condition.callees
  | .repeatLoop _ count body => count.callees ++ body.callees
  | .withLoop _ target body => target.callees ++ body.callees
  | .switch _ value arms => value.callees ++ calleesOfArms arms
  | .breakLoop _ | .continueLoop _ | .exit _ => []
  | .returnValue _ value => calleesOfValue value
  | .throw _ value => value.callees
  | .tryBlock _ body handler cleanup =>
    calleesOfBlock body.stmts ++ calleesOfHandler handler ++ calleesOfCleanup cleanup
  | .function decl => decl.callees
  | .enumeration _ _ _ => []
  | .delete _ target => target.callees
  | .empty _ => []

def calleesOfBlock : List Stmt → List String
  | [] => []
  | stmt :: rest => stmt.callees ++ calleesOfBlock rest

def calleesOfOption : Option Stmt → List String
  | none => []
  | some stmt => stmt.callees

def calleesOfHandler : Option (String × Block Stmt) → List String
  | none => []
  | some (_, handler) => calleesOfBlock handler.stmts

def calleesOfCleanup : Option (Block Stmt) → List String
  | none => []
  | some block => calleesOfBlock block.stmts

def calleesOfBindings : List (Binding Expr) → List String
  | [] => []
  | ⟨_, _, value⟩ :: rest => calleesOfValue value ++ calleesOfBindings rest

def SwitchArm.callees : SwitchArm → List String
  | .mk _ label body => calleesOfValue label ++ calleesOfBlock body

def calleesOfArms : List SwitchArm → List String
  | [] => []
  | arm :: rest => arm.callees ++ calleesOfArms rest

end

end GameScript.Syntax

namespace GameScript.Emission

open Builtin Bytecode Number Syntax

def catches (mentions : List Mention) : Nat := mentions.count .handler

@[simp] theorem catches_nil : catches [] = 0 := rfl

@[simp] theorem catches_append (left right : List Mention) :
    catches (left ++ right) = catches left + catches right := List.count_append

theorem catches_handler (mentions : List Mention) :
    catches (.handler :: mentions) = catches mentions + 1 := List.count_cons_self

def IsPlain : Mention → Prop
  | .literal value => Carries.IsNoMarker value
  | .owner inst => inst ≠ .stackTop
  | .handler => True

/-- A tree with these mentions and calls meets what is asked of its code. -/
structure Demands.Met (demands : Demands) (mentions : List Mention)
    (callees : List String) : Prop where
  plain : demands.stack → ∀ mention ∈ mentions, IsPlain mention
  spare : demands.hooks → Internal.tryHook ∉ callees

section

variable {demands : Demands} {env : Environment} {front back : List Mention}
  {first second callees : List String}

namespace Demands.Met

theorem ofNothing : Demands.Met ⟨False, False⟩ front callees := ⟨False.elim, False.elim⟩

theorem left (met : demands.Met (front ++ back) (first ++ second)) :
    demands.Met front first where
  plain := fun holds mention member =>
    met.plain holds mention (List.mem_append_left back member)
  spare := fun holds member => met.spare holds (List.mem_append_left second member)

theorem right (met : demands.Met (front ++ back) (first ++ second)) :
    demands.Met back second where
  plain := fun holds mention member =>
    met.plain holds mention (List.mem_append_right front member)
  spare := fun holds member => met.spare holds (List.mem_append_right first member)

theorem later (met : demands.Met (front ++ back) callees) : demands.Met back callees where
  plain := fun holds mention member =>
    met.plain holds mention (List.mem_append_right front member)
  spare := met.spare

theorem tail {mention : Mention} (met : demands.Met (mention :: back) callees) :
    demands.Met back callees where
  plain := fun holds other member =>
    met.plain holds other (List.mem_cons_of_mem mention member)
  spare := met.spare

theorem arguments {name : String} (met : demands.Met front (name :: callees)) :
    demands.Met front callees where
  plain := met.plain
  spare := fun holds member => met.spare holds (List.mem_cons_of_mem name member)

theorem callee {name : String} (met : demands.Met front (name :: callees)) :
    demands.hooks → name ≠ Internal.tryHook := by
  rintro holds rfl
  exact met.spare holds List.mem_cons_self

theorem owner {v : Variable} (met : demands.Met (v.mentions ++ back) callees) :
    demands.stack → v.owner ≠ some .stackTop := by
  intro holds isMarker
  exact met.plain holds (.owner .stackTop) (by simp [Variable.mentions, isMarker]) rfl

end Demands.Met

@[simp] theorem catches_variable (v : Variable) : catches v.mentions = 0 := by
  cases owner : v.owner <;> simp [catches, Variable.mentions, owner]

/-- Number of `catch` blocks in the first index, in all if they are one. -/
def firstIndexCatches (env : Environment) (indices : List Expr) : Nat :=
  catches (mentionsOfAll (if env.isNested indices then indices.take 1 else indices))

theorem catches_indices (env : Environment) (indices : List Expr) :
    (firstIndexCatches env indices + if env.isNested indices then
      catches (mentionsOfAll indices.tail) else 0) = catches (mentionsOfAll indices) := by
  unfold firstIndexCatches
  cases indices with
  | nil => simp [mentionsOfAll]
  | cons first rest =>
    split
    · simp [mentionsOfAll]
    · simp

theorem isNested_length {indices : List Expr} (nested : env.isNested indices = true) :
    1 < indices.length := by
  simp only [Environment.isNested, Bool.and_eq_true, decide_eq_true_eq] at nested
  exact nested.2

def labelCatches : SwitchArm → Nat
  | .mk _ label _ => catches (mentionsOfValue label)

def bodyCatches : SwitchArm → Nat
  | .mk _ _ body => catches (mentionsOfBlock body)

def SpecifiesArms (spec : SwitchArm → ArmSpec) : Prop :=
  ∀ pos label body, (spec (.mk pos label body)).label = label.map emitExpr ∧
    (spec (.mk pos label body)).body = emitStmts body

theorem emitTests_eq {spec : SwitchArm → ArmSpec} (specifies : SpecifiesArms spec)
    (type : DataType) (arms : List SwitchArm) :
    emitTests type arms = emitTestsOf type (arms.map spec) := by
  induction arms with
  | nil => rfl
  | cons arm rest induction =>
    obtain ⟨pos, label, body⟩ := arm
    rw [List.map_cons, emitTestsOf, ← induction, (specifies pos label body).1]
    cases label <;> rfl

theorem emitArms_eq {spec : SwitchArm → ArmSpec} (specifies : SpecifiesArms spec)
    (jumps : List ForwardPatch) (fallback : ForwardPatch) (arms : List SwitchArm) :
    emitArms jumps fallback arms = emitArmsOf jumps fallback (arms.map spec) := by
  induction arms generalizing jumps fallback with
  | nil => rfl
  | cons arm rest induction =>
    obtain ⟨pos, label, body⟩ := arm
    rw [List.map_cons, emitArmsOf, (specifies pos label body).1,
      (specifies pos label body).2]
    simp only [← induction]
    cases label <;> rfl

def armSpec (demands : Demands) (kinds : List LoopKind) : SwitchArm → ArmSpec
  | .mk pos label body =>
    { label := label.map emitExpr
      body := emitStmts body
      isLabel := fun _ _ piece => Pushes demands (labelCatches (.mk pos label body)) piece
      isBody := fun type _ piece =>
        Rests demands (.switch type :: kinds) (bodyCatches (.mk pos label body)) piece }

theorem armSpec_specifies (demands : Demands) (kinds : List LoopKind) :
    SpecifiesArms (armSpec demands kinds) := fun _ _ _ => ⟨rfl, rfl⟩

theorem catches_arms (demands : Demands) (kinds : List LoopKind) (arms : List SwitchArm) :
    (arms.map fun arm =>
      if (armSpec demands kinds arm).label.isSome then labelCatches arm else 0).sum +
      (arms.map bodyCatches).sum = catches (mentionsOfArms arms) := by
  induction arms with
  | nil => rfl
  | cons arm rest induction =>
    obtain ⟨pos, label, body⟩ := arm
    have step : (if (armSpec demands kinds (.mk pos label body)).label.isSome then
        labelCatches (.mk pos label body) else 0) + bodyCatches (.mk pos label body) =
        catches (SwitchArm.mentions (.mk pos label body)) := by
      cases label <;> simp [armSpec, labelCatches, bodyCatches, SwitchArm.mentions,
        mentionsOfValue]
    simp only [List.map_cons, List.sum_cons, mentionsOfArms, catches_append]
    omega

theorem emitReadExtension_moves (isLast : Bool) :
    Moves demands env (emitExtension (if isLast then .readElement else .enterElement))
      [false, false] [false] 0 := by
  refine .step (fun _ => emitExtension_adds _) fun _ _ => ?_
  cases isLast <;> exact .cell ⟨rfl, rfl, rfl, rfl, rfl, rfl⟩ (fun _ => rfl) fun _ _ => rfl

theorem emitStoreIndices_moves {rest : List Expr} {more : EmitM Unit} {n : Nat}
    (atEnd : rest = [] → Moves demands env more [] [] n)
    (further : rest ≠ [] → Moves demands env more [false, false] [] n) :
    Moves demands env (do
      emitExtension (if rest.isEmpty then .storeElement else .enterElement)
      more) [false, false, false] [] n := by
  cases rest with
  | nil =>
    have storing :
        Moves demands env (emitExtension .storeElement) [false, false, false] [] 0 :=
      .step (fun _ => emitExtension_adds _) fun _ _ =>
        .cell ⟨rfl, rfl, rfl, rfl, rfl, rfl⟩ (fun _ => rfl) fun _ _ => rfl
    exact Moves.recount (storing.bind fun _ => atEnd rfl) (Nat.zero_add n)
  | cons index rest =>
    have entering : Moves demands env (emitExtension .enterElement) [false, false, false]
        [false, false] 0 :=
      .step (fun _ => emitExtension_adds _) fun _ _ =>
        .cell ⟨rfl, rfl, rfl, rfl, rfl, rfl⟩ (fun _ => rfl) fun _ _ => rfl
    exact Moves.recount (entering.bind fun _ => further (by simp)) (Nat.zero_add n)

theorem emitsNothing {kinds : List LoopKind} {params : List String} :
    EmitsStatement env kinds params (pure ()) fun _ piece => Rests demands kinds 0 piece :=
  fun s _ _ => ensures_pure.mpr ⟨[], Lays.refl s, .nil _ _⟩

section Statements

variable {kinds : List LoopKind} {params : List String} {n m : Nat} {pos : Position}

private theorem isSimpleVariable_iff {target : Expr}
    (simple : target.isSimpleVariable = true) : ∃ v, target = .var v [] := by
  cases target with
  | var v indices =>
    cases indices with
    | nil => exact ⟨v, rfl⟩
    | cons _ _ => simp [Expr.isSimpleVariable] at simple
  | _ => simp [Expr.isSimpleVariable] at simple

private theorem emitAssign_rests {op : AssignOp} {target value : Expr}
    (plainVariable : target.isSimpleVariable = true → m = 0)
    (pushes : EmitsPush demands env (emitExpr value) n)
    (placing : EmitsPlace demands env (emitPlace target) m)
    (storing : Moves demands env (emitPlaceStore target) [false] [] m) :
    EmitsStatement env kinds params (emitStmt (.assign pos op target value)) fun _ piece =>
      Rests demands kinds (m + n) piece := by
  cases simple : target.isSimpleVariable with
  | true =>
    obtain ⟨v, rfl⟩ := isSimpleVariable_iff simple
    rw [plainVariable simple, Nat.zero_add]
    cases binary : op.binary? with
    | some b =>
      rw [emitStmt_update pos value v binary]
      exact goTo_emitsStatement pos (emitUpdate_moves v b pushes).statement
    | none =>
      cases op with
      | assign =>
        rw [emitStmt_assign]
        exact goTo_emitsStatement pos (pushes.stored v).statement
      | coalesce => exact fun s _ _ => trivial
      | _ => simp [AssignOp.binary?] at binary
  | false =>
    cases binary : op.binary? with
    | some b =>
      rw [emitStmt_placeUpdate pos value binary simple]
      exact goTo_emitsStatement pos
        (emitPlaceUpdate_moves b placing (pushes.operand b)).statement
    | none =>
      cases op with
      | assign =>
        rw [emitStmt_store pos value simple, Nat.add_comm]
        exact goTo_emitsStatement pos (pushes.convertedThen .variant storing).statement
      | coalesce => exact fun s _ _ => trivial
      | _ => simp [AssignOp.binary?] at binary

private theorem emitStepStmt_rests {before increment : Bool} {target : Expr}
    (plainVariable : target.isSimpleVariable = true → m = 0)
    (placing : EmitsPlace demands env (emitPlace target) m) :
    EmitsStatement env kinds params (emitStmt (.step pos before increment target))
      fun _ piece =>
      Rests demands kinds m piece := by
  cases simple : target.isSimpleVariable with
  | true =>
    obtain ⟨v, rfl⟩ := isSimpleVariable_iff simple
    rw [emitStmt_step, plainVariable simple]
    exact goTo_emitsStatement pos (emitStep_moves v increment).statement
  | false =>
    rw [emitStmt_placeStep pos before increment simple]
    exact goTo_emitsStatement pos
      (emitPlaceUpdate_moves (stepOp increment) placing emitStepOne_pushes).statement

private theorem return_rests {value : EmitM Unit}
    (pushes : EmitsPush demands env value n) :
    EmitsStatement env kinds params (do value; discard <| convertTo .variant; emitReturn)
      fun _ piece => Rests demands kinds n piece := by
  intro s sameKinds _
  refine (pushes s).bind fun _ t ⟨type, piece, adds, pushing⟩ => ?_
  refine (convert_adds .variant adds.types).bind fun _ u converting => ?_
  refine emitReturn_adds.mono fun _ v returning => ?_
  have whole := (adds.append converting).append returning
  have kept : u.kinds = kinds := by
    rw [Emitter.kinds, converting.loops, adds.loops]
    exact sameKinds
  rw [converting.types, kept] at whole
  exact ⟨_, Lays.ofAdds whole, Rests.returnValue pushing type⟩

private theorem declareLocal_moves (name : String) :
    Moves demands env (declareLocal name) [] [] 0 :=
  .nothing fun _ => declareLocal_adds name

private theorem declareStatic_moves (name : String) :
    Moves demands env (declareStatic name) [] [] 0 :=
  .nothing fun _ => declareStatic_adds name

private theorem emitNoCondition_emits :
    EmitsClosed env (emitOptionalCondition none) fun _ piece => Pushes demands 0 piece :=
  fun _ => (emitPushImmediate_adds 1).mono fun _ _ adds =>
    ⟨_, adds, fun _ _ => .pushImmediate fun _ => by decide⟩

private theorem emitCondition_emits {condition : Expr}
    (pushes : EmitsPush demands env (emitExpr condition) n) :
    EmitsClosed env (emitOptionalCondition (some condition)) fun _ piece =>
      Pushes demands n piece :=
  pushes.converted .boolean

theorem catches_simpleVariable {target : Expr} (simple : target.isSimpleVariable = true) :
    catches target.mentions = 0 := by
  obtain ⟨v, rfl⟩ := isSimpleVariable_iff simple
  simp [Expr.mentions, mentionsOfAll]

end Statements

mutual

theorem emitExpr_pushes (expr : Expr) (met : demands.Met expr.mentions expr.callees) :
    EmitsPush demands env (emitExpr expr) (catches expr.mentions) := by
  cases expr with
  | literal pos value =>
    rw [emitExpr_literal]
    refine .goTo pos fun s => (emitLiteral_adds value).mono fun _ t adds => ?_
    exact ⟨_, _, adds, fun _ _ => .literal fun holds =>
      met.plain holds _ (List.mem_singleton_self _)⟩
  | var v indices =>
    cases indices with
    | nil =>
      rw [emitExpr_name]
      refine (emitName_pushes v).recount ?_
      simp [Expr.mentions, mentionsOfAll]
    | cons first rest =>
      rw [emitExpr_element, emitTailIndices_cons]
      refine EmitsPush.recount (emitElement_pushes met.owner
        (emitFirstIndex_moves (first :: rest) met.later)
        fun _ => (emitInnerIndices_moves rest met.later.right).1) ?_
      simp only [Expr.mentions, catches_append, catches_variable, Nat.zero_add]
      exact catches_indices env (first :: rest)
  | member pos object field indices =>
    rw [emitExpr_member]
    refine EmitsPush.recount (emitMember_pushes (emitExpr_pushes object met.left)
      (emitFirstIndex_moves indices met.right)
      fun _ => (emitTailIndices_moves indices met.right).1) ?_
    simp only [Expr.mentions, catches_append, catches_indices]
    cases indices <;> simp [mentionsOfAll]
  | call callee args =>
    rw [emitExpr_call]
    exact emitFunctionCall_pushes met.callee (emitArguments_moves args met.arguments)
  | methodCall pos object callee args =>
    rw [emitExpr_methodCall]
    exact (emitMethodCall_pushes pos callee (emitArguments_moves args met.left)
      (emitExpr_pushes object met.right)).recount (catches_append _ _).symm
  | construct callee args =>
    rw [emitExpr_construct]
    exact emitConstruct_pushes callee (emitArguments_moves args met)
  | binary pos op operands =>
    cases operands with
    | nil => exact fun s => trivial
    | cons first rest =>
      rw [emitExpr_binary]
      refine goTo_emitsValue pos ?_
      have one := emitExpr_pushes first met.left
      rw [Expr.mentions, mentionsOfAll, catches_append]
      cases isLazy : BinaryOp.isLazy env.target op with
      | true =>
        refine (emitLazyChain_emits isLazy one
          (emitLazyOperands_emits op rest met.right)).mono ?_
        rintro _ _ _ ⟨type, piece, parts, pushes, all, rfl, rfl⟩
        exact pushes.lazyChain op type all
      | false =>
        refine (emitChain_emits isLazy one (emitOperands_emits op rest met.right)).mono ?_
        rintro _ _ _ ⟨type, piece, parts, pushes, all, rfl, rfl⟩
        exact pushes.chain op type all
  | unary pos op operand =>
    rw [emitExpr_unary]
    refine goTo_emitsValue pos ((emitUnary_emits op (emitExpr_pushes operand met)).mono ?_)
    rintro _ _ _ ⟨type, piece, pushes, rfl, rfl⟩
    exact pushes.unary op type
  | step pos before increment target =>
    cases target with
    | var v indices =>
      cases indices with
      | nil =>
        rw [emitExpr_step]
        refine goTo_emitsValue pos ((emitStepValue_pushes v before increment).recount ?_)
        simp [Expr.mentions, mentionsOfAll]
      | cons first rest => exact fun s => trivial
    | _ => exact fun s => trivial
  | conditional pos condition yes no =>
    rw [emitExpr_conditional]
    refine goTo_emitsValue pos
      ((emitConditional_emits (emitExpr_pushes condition met.left.left)
      (emitExpr_pushes yes met.left.right) (emitExpr_pushes no met.right)).mono ?_)
    rintro _ _ _ ⟨type, yesType, noType, c, y, n, pushes, pushesYes, pushesNo, rfl, rfl⟩
    rw [Expr.mentions, catches_append, catches_append]
    exact pushes.conditional pushesYes pushesNo yesType noType
  | coalesce pos left right => exact fun s => trivial
  | array pos elements =>
    rw [emitExpr_array]
    exact .goTo pos (emitArray_pushes (emitArguments_moves elements met))
  | struct pos fields =>
    rw [emitExpr_struct]
    refine EmitsPush.goTo pos (emitStruct_pushes _ ?_)
    rw [List.length_map]
    exact emitFieldValues_moves fields met
  | function decl =>
    rw [emitExpr_function]
    refine .goTo decl.pos (EmitsPush.ofGives ?_)
    exact (emitFunction_moves decl met).gives fun name =>
      (emitBind_moves name _ (by decide)).typed .variant

theorem emitFunction_moves (decl : FunctionDecl)
    (met : demands.Met decl.mentions decl.callees) :
    Moves demands env (emitFunction decl) [] [] (catches decl.mentions) := by
  cases decl with
  | mk pos name params isConstructor parent body =>
    rw [emitFunction_eq]
    refine Moves.recount ((goTo_moves pos).bind fun _ => ?_) (Nat.zero_add _)
    intro s
    refine ensures_bind.mpr (ensures_read.mpr (ensures_unless trivial fun _ => ?_))
    refine ensures_unless trivial fun _ => ensures_unless trivial fun _ => ?_
    refine (emitFunctionBody_emits (emitStmts_rests body.stmts [] _ met)
      (fun _ => Carries.head_unopened) s).mono ?_
    rintro _ t ⟨b, rests, adds⟩
    exact ⟨_, adds, fun _ _ => rests.function⟩

theorem emitArguments_moves (args : List Expr)
    (met : demands.Met (mentionsOfAll args) (calleesOfAll args)) :
    Moves demands env (emitArguments args) [] (List.replicate args.length false)
      (catches (mentionsOfAll args)) := by
  cases args with
  | nil => exact fun s => ⟨[], Adds.refl s, fun ways _ => .nil ways _⟩
  | cons arg rest =>
    have one := (emitExpr_pushes arg met.left).converted .variant
    rw [emitArguments_cons, mentionsOfAll, catches_append, Nat.add_comm]
    exact (emitArguments_moves rest met.right).bind fun _ => one.frame _

theorem emitFieldValues_moves (fields : List (String × Expr))
    (met : demands.Met (mentionsOfFields fields) (calleesOfFields fields)) :
    Moves demands env (emitFieldValues fields) [] (List.replicate fields.length false)
      (catches (mentionsOfFields fields)) := by
  cases fields with
  | nil => exact fun s => ⟨[], Adds.refl s, fun ways _ => .nil ways _⟩
  | cons field rest =>
    cases field with
    | mk name value =>
      have one := (emitExpr_pushes value met.left).converted .variant
      rw [emitFieldValues_cons, mentionsOfFields, catches_append, Nat.add_comm]
      exact (emitFieldValues_moves rest met.right).bind fun _ => one.frame _

theorem emitOperands_emits (op : BinaryOp) (operands : List Expr)
    (met : demands.Met (mentionsOfAll operands) (calleesOfAll operands)) :
    EmitsOperands env op (emitOperands op operands)
      (PushAll demands (catches (mentionsOfAll operands))) := by
  cases operands with
  | nil => exact (noOperands_emits op).mono fun _ isNil => isNil ▸ .nil
  | cons operand rest =>
    rw [emitOperands_cons, mentionsOfAll, catches_append]
    refine (nextOperand_emits (emitExpr_pushes operand met.left)
      (emitOperands_emits op rest met.right)).mono fun parts starts => ?_
    match parts, starts with
    | (type, piece) :: more, starts => exact .cons type starts.1 starts.2

theorem emitLazyOperands_emits (op : BinaryOp) (operands : List Expr)
    (met : demands.Met (mentionsOfAll operands) (calleesOfAll operands)) :
    EmitsLazyOperands env (skipOpcode op) (emitLazyOperands (skipOpcode op) operands)
      (PushAll demands (catches (mentionsOfAll operands))) := by
  cases operands with
  | nil => exact (noLazyOperands_emits _).mono fun _ isNil => isNil ▸ .nil
  | cons operand rest =>
    rw [emitLazyOperands_cons, mentionsOfAll, catches_append]
    refine (nextLazyOperand_emits (emitExpr_pushes operand met.left)
      (emitLazyOperands_emits op rest met.right)).mono fun parts starts => ?_
    match parts, starts with
    | (type, piece) :: more, starts => exact .cons type starts.1 starts.2

theorem emitFirstIndex_moves (indices : List Expr)
    (met : demands.Met (mentionsOfAll indices) (calleesOfAll indices)) :
    Moves demands env (emitFirstIndex indices) [] [false]
      (firstIndexCatches env indices) := by
  match indices, met with
  | [], _ => exact fun s => trivial
  | [index], met =>
    rw [emitFirstIndex_one]
    refine Moves.recount ((emitExpr_pushes index met.left).converted .int32) ?_
    simp [firstIndexCatches, Environment.isNested, mentionsOfAll]
  | [first, second], met =>
    rw [emitFirstIndex_pair]
    refine Moves.recount (emitPairIndex_moves (emitExpr_pushes first met.left)
      (emitExpr_pushes second met.right.left)) ?_
    cases functions : env.target.hasFunctions <;>
      simp [firstIndexCatches, Environment.isNested, functions, mentionsOfAll]
  | first :: second :: third :: rest, met =>
    rw [emitFirstIndex_many]
    refine emitManyIndex_moves fun functions => ?_
    refine (emitExpr_pushes first met.left).recount ?_
    simp [firstIndexCatches, Environment.isNested, functions, mentionsOfAll]

theorem emitInnerIndices_moves (indices : List Expr)
    (met : demands.Met (mentionsOfAll indices) (calleesOfAll indices)) :
    Moves demands env (emitInnerIndices .readElement indices) [false] [false]
        (catches (mentionsOfAll indices)) ∧
      (indices ≠ [] → Moves demands env (emitInnerIndices .storeElement indices)
        [false, false] [] (catches (mentionsOfAll indices))) := by
  cases indices with
  | nil =>
    exact ⟨fun s => ⟨[], Adds.refl s, fun ways _ => .nil ways _⟩, fun nonempty =>
      absurd rfl nonempty⟩
  | cons index rest =>
    have one := emitExpr_pushes index met.left
    have others := emitInnerIndices_moves rest met.right
    rw [mentionsOfAll, catches_append, emitInnerIndices_cons, emitInnerIndices_cons]
    refine ⟨one.convertedThen .int32 (Moves.recount
        ((emitReadExtension_moves rest.isEmpty).bind fun _ => others.1) (Nat.zero_add _)),
      fun _ => one.convertedThen .int32 (emitStoreIndices_moves ?_ others.2)⟩
    rintro rfl
    exact fun s => ⟨[], Adds.refl s, fun ways _ => .nil ways _⟩

theorem emitTailIndices_moves (indices : List Expr)
    (met : demands.Met (mentionsOfAll indices) (calleesOfAll indices)) :
    Moves demands env (emitTailIndices .readElement indices) [false] [false]
        (catches (mentionsOfAll indices.tail)) ∧
      (1 < indices.length → Moves demands env (emitTailIndices .storeElement indices)
        [false, false] [] (catches (mentionsOfAll indices.tail))) := by
  cases indices with
  | nil =>
    exact ⟨fun s => ⟨[], Adds.refl s, fun ways _ => .nil ways _⟩,
      fun many => by simp at many⟩
  | cons index rest =>
    have others := emitInnerIndices_moves rest met.right
    refine ⟨others.1, fun many => others.2 ?_⟩
    rintro rfl
    simp at many

theorem emitPlace_emits (target : Expr)
    (met : demands.Met target.mentions target.callees) :
    EmitsPlace demands env (emitPlace target) (catches target.mentions) := by
  cases target with
  | var v indices =>
    rw [emitPlace_element]
    refine emitElementPlace_emits met.owner fun flat => ?_
    refine (emitFirstIndex_moves indices met.later).recount ?_
    simp [firstIndexCatches, flat, Expr.mentions]
  | member pos object field indices =>
    rw [emitPlace_member, Expr.mentions, catches_append]
    have total : (if indices.isEmpty then 0 else catches (mentionsOfAll indices)) =
        catches (mentionsOfAll indices) := by
      cases indices <;> simp [mentionsOfAll]
    rw [← total]
    refine emitMemberPlace_emits (emitExpr_pushes object met.left) fun flat => ?_
    refine (emitFirstIndex_moves indices met.right).recount ?_
    simp [firstIndexCatches, flat]
  | _ => exact fun s => trivial

theorem emitPlaceStore_moves (target : Expr)
    (met : demands.Met target.mentions target.callees) :
    Moves demands env (emitPlaceStore target) [false] [] (catches target.mentions) := by
  cases target with
  | var v indices =>
    rw [emitPlaceStore_element]
    refine Moves.recount (emitElementPlaceStore_moves met.owner
      (emitFirstIndex_moves indices met.later)
      fun nested =>
        (emitTailIndices_moves indices met.later).2 (isNested_length nested)) ?_
    rw [catches_indices, Expr.mentions, catches_append, catches_variable, Nat.zero_add]
  | member pos object field indices =>
    rw [emitPlaceStore_member]
    refine Moves.recount (emitMemberStore_moves (emitExpr_pushes object met.left)
      (emitFirstIndex_moves indices met.right)
      fun nested =>
        (emitTailIndices_moves indices met.right).2 (isNested_length nested)) ?_
    simp only [Expr.mentions, catches_append, catches_indices]
    cases indices <;> simp [mentionsOfAll]
  | _ => exact fun s => trivial

theorem emitStmt_rests (stmt : Stmt) (kinds : List LoopKind) (params : List String)
    (met : demands.Met stmt.mentions stmt.callees) :
    EmitsStatement env kinds params (emitStmt stmt) fun _ piece =>
      Rests demands kinds (catches stmt.mentions) piece := by
  cases stmt with
  | expr pos value =>
    rw [emitStmt_expr]
    exact goTo_emitsStatement pos (emitExpr_pushes value met).discarded.statement
  | assign pos op target value =>
    rw [Stmt.mentions, catches_append]
    exact emitAssign_rests catches_simpleVariable (emitExpr_pushes value met.right)
      (emitPlace_emits target met.left) (emitPlaceStore_moves target met.left)
  | step pos before increment target =>
    exact emitStepStmt_rests catches_simpleVariable (emitPlace_emits target met)
  | locals pos bindings =>
    rw [emitStmt_locals]
    exact goTo_emitsStatement pos (emitLocals_moves bindings met).statement
  | globals pos names =>
    refine goTo_emitsStatement pos (Moves.statement (.nothing fun s => ?_))
    exact (Adds.refl s).of_same rfl rfl rfl rfl rfl rfl rfl
  | statics pos bindings =>
    rw [emitStmt_statics]
    exact goTo_emitsStatement pos
      (emitStaticBlock_moves (emitStatics_moves bindings met)).statement
  | block body =>
    rw [emitStmt_block]
    exact goTo_emitsStatement body.pos (emitStmts_rests body.stmts kinds params met)
  | ifElse pos condition yes no =>
    cases no with
    | none =>
      rw [emitStmt_if, Stmt.mentions, mentionsOfOption, List.append_nil, catches_append]
      refine goTo_emitsStatement pos
        ((emitIf_emits (emitExpr_pushes condition met.left.left)
        (emitStmt_rests yes kinds params met.left.right)).mono ?_)
      rintro _ _ _ ⟨type, c, y, pushes, rests, rfl⟩
      exact Rests.ifThen pushes rests type
    | some no =>
      rw [emitStmt_ifElse, Stmt.mentions, catches_append, catches_append]
      refine goTo_emitsStatement pos ((emitIfElse_emits
        (emitExpr_pushes condition met.left.left)
        (emitStmt_rests yes kinds params met.left.right)
        (emitStmt_rests no kinds params met.right)).mono ?_)
      rintro _ _ _ ⟨type, c, y, n, pushes, restsYes, restsNo, rfl⟩
      exact Rests.ifElse pushes restsYes restsNo type
  | whileLoop pos condition body =>
    rw [emitStmt_whileLoop, Stmt.mentions, catches_append]
    refine goTo_emitsStatement pos ((emitWhile_emits (emitExpr_pushes condition met.left)
      (emitStmt_rests body (.plain :: kinds) params met.right)).mono ?_)
    rintro _ _ _ ⟨type, c, b, pushes, rests, rfl⟩
    exact Rests.whileLoop pushes rests type
  | forLoop pos init condition step body =>
    rw [emitStmt_forLoop, Stmt.mentions, List.append_assoc, List.append_assoc,
      catches_append, catches_append, catches_append]
    have starting : EmitsStatement env kinds params (emitOptional init) fun _ piece =>
        Rests demands kinds (catches (mentionsOfOption init)) piece := by
      cases init with
      | none => exact emitsNothing
      | some init => exact emitStmt_rests init kinds params met.left.left.left
    have testing : EmitsClosed env (emitOptionalCondition condition) fun _ piece =>
        Pushes demands (catches (mentionsOfValue condition)) piece := by
      cases condition with
      | none => exact emitNoCondition_emits
      | some condition =>
        exact emitCondition_emits (emitExpr_pushes condition met.left.left.right)
    have stepping : EmitsStatement env kinds params (emitOptional step) fun _ piece =>
        Rests demands kinds (catches (mentionsOfOption step)) piece := by
      cases step with
      | none => exact emitsNothing
      | some step => exact emitStmt_rests step kinds params met.right
    have looping := emitStmt_rests body (.plain :: kinds) params met.left.right
    refine goTo_emitsStatement pos
      ((starting.bind (emitFor_emits testing stepping looping)).mono ?_)
    rintro _ _ _ ⟨left, right, rests, ⟨c, p, b, pushes, restsBody, restsStep, rfl⟩, rfl⟩
    rw [← Nat.add_assoc (catches (mentionsOfValue condition))]
    exact Rests.append rests (Rests.forLoop pushes restsBody restsStep)
  | doUntil pos body condition =>
    rw [emitStmt_doUntil, Stmt.mentions, catches_append]
    refine goTo_emitsStatement pos ((emitDoUntil_emits
      (emitStmt_rests body (.plain :: kinds) params met.left)
      (emitExpr_pushes condition met.right)).mono ?_)
    rintro _ _ _ ⟨type, b, c, rests, pushes, rfl⟩
    exact Rests.doUntil rests pushes type
  | repeatLoop pos count body =>
    rw [emitStmt_repeatLoop, Stmt.mentions, catches_append]
    refine goTo_emitsStatement pos ((emitRepeat_emits (emitExpr_pushes count met.left)
      (emitStmt_rests body (.repeatLoop :: kinds) params met.right)).mono ?_)
    rintro _ _ _ ⟨type, c, b, pushes, rests, rfl⟩
    exact Rests.repeatLoop pushes rests type
  | withLoop pos target body =>
    rw [emitStmt_withLoop, Stmt.mentions, catches_append]
    have inside := (emitStmt_rests body (.withLoop :: kinds) params met.right).mono
      fun _ piece settled rests => And.intro rests settled
    refine goTo_emitsStatement pos ((emitWith_emits (emitExpr_pushes target met.left)
      inside).mono ?_)
    rintro _ _ _ ⟨type, o, b, pushes, ⟨rests, settled⟩, ⟨rfl, unbroken⟩ | rfl⟩
    · exact Rests.withLoop env.target pushes rests settled unbroken
    · exact Rests.brokenWith env.target pushes rests
  | switch pos value arms =>
    rw [emitStmt_switch, Stmt.mentions, catches_append]
    simp only [emitTests_eq (armSpec_specifies demands kinds),
      emitArms_eq (armSpec_specifies demands kinds)]
    refine goTo_emitsStatement pos ((emitSwitch_emits (emitExpr_pushes value met.left)
      (arms_correct arms kinds params met.right)).mono ?_)
    rintro _ _ _ ⟨type, v, tests, bodies, pushes, heldTests, heldBodies, count, rfl⟩
    rw [List.length_map] at count
    rw [← catches_arms demands kinds arms, ← Nat.add_assoc]
    refine Rests.switch pushes heldTests heldBodies count ?_ ?_
    · rintro ⟨pos, label, body⟩ _ _ _ _ held
      exact held
    · rintro ⟨pos, label, body⟩ _ _ _ held
      exact held
  | breakLoop pos =>
    rw [emitStmt_breakLoop]
    refine goTo_emitsStatement pos (emitBreak_emits.mono ?_)
    rintro _ _ _ ⟨inside, rfl⟩
    exact Rests.breakLoop inside
  | continueLoop pos =>
    rw [emitStmt_continueLoop]
    refine goTo_emitsStatement pos (emitContinue_emits.mono ?_)
    rintro _ _ _ ⟨offered, rfl⟩
    exact Rests.continueLoop offered
  | exit pos =>
    rw [emitStmt_exit]
    refine goTo_emitsStatement pos (emitExit_emits.mono ?_)
    rintro _ _ _ rfl
    exact Rests.exit
  | returnValue pos value =>
    cases value with
    | none =>
      rw [emitStmt_returnNothing]
      refine goTo_emitsStatement pos (emitExit_emits.mono ?_)
      rintro _ _ _ rfl
      exact Rests.exit
    | some value =>
      rw [emitStmt_returnValue]
      exact goTo_emitsStatement pos (return_rests (emitExpr_pushes value met))
  | throw pos value =>
    rw [emitStmt_throw]
    exact goTo_emitsStatement pos ((emitExpr_pushes value met).convertedThen .variant
      (emitCallDiscard_moves 1 fun _ => by decide)).statement
  | tryBlock pos body handler cleanup =>
    have cleaning :
      EmitsStatement env kinds params (emitOptionalBlock cleanup) fun _ piece =>
        Rests demands kinds (catches (mentionsOfCleanup cleanup)) piece := by
      cases cleanup with
      | none => exact emitsNothing
      | some cleanup => exact emitStmts_rests cleanup.stmts kinds params met.right
    have trying := emitStmts_rests body.stmts kinds params met.left.left
    cases handler with
    | none =>
      rw [emitStmt_try, Stmt.mentions, mentionsOfHandler, List.append_nil, catches_append]
      refine goTo_emitsStatement pos ((emitTry_emits trying cleaning).mono ?_)
      rintro _ _ _ ⟨b, c, rests, restsCleanup, rfl⟩
      exact Rests.tryBlock rests restsCleanup
    | some handler =>
      cases handler with
      | mk name handler =>
        rw [emitStmt_handledTry]
        have handling := emitStmts_rests handler.stmts kinds params met.left.right.tail
        refine goTo_emitsStatement pos
          ((emitHandledTry_emits trying handling cleaning).mono ?_)
        rintro _ _ _ ⟨b, h, c, rests, restsHandler, restsCleanup, rfl⟩
        refine Carries.recount (Rests.handledTry name rests restsHandler restsCleanup) ?_
        simp only [Stmt.mentions, mentionsOfHandler, catches_append, catches_handler]
        omega
  | function decl =>
    rw [emitStmt_function]
    refine goTo_emitsStatement decl.pos (Moves.statement ?_)
    refine Moves.recount ((emitFunction_moves decl met).bind fun name =>
      (emitBind_moves name _ (by decide)).bind fun _ => Moves.step (n := 0)
        (fun _ => emitPopVariable_adds _ _ _) fun _ _ => .popPlain _ _ _) ?_
    rfl
  | enumeration pos name members => exact (goTo_moves pos).statement
  | delete pos target => exact fun s _ _ => trivial
  | empty pos => exact (goTo_moves pos).statement

theorem emitLocals_moves (bindings : List (Binding Expr))
    (met : demands.Met (mentionsOfBindings bindings) (calleesOfBindings bindings)) :
    Moves demands env (emitLocals bindings) [] []
      (catches (mentionsOfBindings bindings)) := by
  cases bindings with
  | nil => exact .nothing fun s => Adds.refl s
  | cons binding rest =>
    cases binding with
    | mk pos name value =>
      have others := emitLocals_moves rest met.right
      rw [mentionsOfBindings, catches_append]
      cases value with
      | none =>
        rw [emitLocals_declare]
        exact Moves.bind (declareLocal_moves name) fun _ => others
      | some value =>
        rw [emitLocals_value]
        refine Moves.recount (Moves.bind (declareLocal_moves name) fun _ => ?_)
          (Nat.zero_add _)
        exact (emitLocalValue_moves pos name (emitExpr_pushes value met.left)).bind
          fun _ => others

theorem emitStatics_moves (bindings : List (Binding Expr))
    (met : demands.Met (mentionsOfBindings bindings) (calleesOfBindings bindings)) :
    Moves demands env (emitStatics bindings) [] []
      (catches (mentionsOfBindings bindings)) := by
  cases bindings with
  | nil => exact .nothing fun s => Adds.refl s
  | cons binding rest =>
    cases binding with
    | mk pos name value =>
      have others := emitStatics_moves rest met.right
      rw [mentionsOfBindings, catches_append]
      cases value with
      | none =>
        rw [emitStatics_declare]
        exact Moves.bind (declareStatic_moves name) fun _ => others
      | some value =>
        rw [emitStatics_value]
        refine Moves.recount (Moves.bind (declareStatic_moves name) fun _ => ?_)
          (Nat.zero_add _)
        exact (emitStaticValue_moves pos name (emitExpr_pushes value met.left)).bind
          fun _ => others

theorem arms_correct (arms : List SwitchArm) (kinds : List LoopKind) (params : List String)
    (met : demands.Met (mentionsOfArms arms) (calleesOfArms arms)) :
    ∀ arm ∈ arms.map (armSpec demands kinds), arm.Correct env kinds params := by
  cases arms with
  | nil => simp
  | cons arm rest =>
    have others := arms_correct rest kinds params met.right
    cases arm with
    | mk pos label body =>
      have bodies (type : DataType) :=
        emitStmts_rests body (.switch type :: kinds) params met.left.right
      have labels : ∀ action, label.map emitExpr = some action →
        EmitsPush demands env action
          (labelCatches (.mk pos label body)) := by
        cases label with
        | none => simp
        | some label =>
          rintro _ ⟨⟩
          exact emitExpr_pushes label met.left.left
      intro spec member
      rcases List.mem_cons.mp member with rfl | member
      · exact ⟨labels, bodies⟩
      · exact others spec member

theorem emitStmts_rests (stmts : List Stmt) (kinds : List LoopKind) (params : List String)
    (met : demands.Met (mentionsOfBlock stmts) (calleesOfBlock stmts)) :
    EmitsStatement env kinds params (emitStmts stmts) fun _ piece =>
      Rests demands kinds (catches (mentionsOfBlock stmts)) piece := by
  cases stmts with
  | nil => exact emitsNothing
  | cons stmt rest =>
    rw [emitStmts_cons, mentionsOfBlock, catches_append]
    refine ((emitStmt_rests stmt kinds params met.left).bind
      (emitStmts_rests rest kinds params met.right)).mono ?_
    rintro _ _ _ ⟨left, right, first, second, rfl⟩
    exact first.append second

end

end

end GameScript.Emission
