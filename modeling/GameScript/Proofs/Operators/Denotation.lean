import GameScript.Emission.Code
import GameScript.Outline.Printer
import GameScript.Proofs.Operators.Nesting
import GameScript.Token.Scanner
import Mathlib.Data.Finset.Card
import Mathlib.Data.List.Forall2

/-! Nestings of recovered expressions.

The nodes of an outline may be shared, so a node has a nesting of some height.  A
node that has one at all has one that is no higher than the outline is large. -/

namespace GameScript.Outline

open Bytecode Emission Number Syntax Token

def comparisonOp : Comparison → BinaryOp
  | .less => .lt
  | .lessEqual => .lte
  | .equal => .eq
  | .notEqual => .neq
  | .greaterEqual => .gte
  | .greater => .gt

/-- The operator of a binary node.  Operations on two booleans are logical; the `or`
of a runtime that skips operands is exclusive. -/
def binaryOp? (isLazy : Bool) (opcode : Opcode) (comparison : Option Comparison)
    (left right : DataType) : Option BinaryOp :=
  let isLogic := left == .boolean && right == .boolean
  match comparison, opcode with
  | some comparison, _ => some (comparisonOp comparison)
  | none, .mul => some .mul
  | none, .div => some .div
  | none, .rem => some .intDiv
  | none, .mod => some .mod
  | none, .add => some .add
  | none, .sub => some .sub
  | none, .shl => some .shl
  | none, .shr => some .shr
  | none, .and => some (if isLogic then .and else .bitAnd)
  | none, .or => some (if isLogic then if isLazy then .xor else .or else .bitOr)
  | none, _ => none

def unaryOp? (opcode : Opcode) (type : DataType) : Option UnaryOp :=
  match opcode with
  | .neg => some .neg
  | .not => some (if type = .boolean then .not else .bitNot)
  | _ => none

def PrintContext.sources (context : PrintContext) (macros : MacroTable) : NameSources where
  target := context.target
  registry := .ofTarget context.target
  macros
  assets := context.assets

def VariableNode.isBare (scope : PrintScope) (v : VariableNode) : Bool :=
  v.indices.isEmpty &&
    match v.holder with
    | .fixed inst =>
      if inst = .static then scope.statics.contains v.name
      else
        [Instance.self, .locals, .argument, .builtin].contains inst &&
          !(inst = .self && scope.locals.contains v.name)
    | .expr _ => false

end GameScript.Outline

namespace GameScript.Token.NameSources

def isWord (text : List Char) : Bool :=
  match text with
  | [] => false
  | c :: rest => isNameStart c && rest.all isNamePart

def isFree (sources : NameSources) (name : String) : Bool :=
  (sources.macros.get? name).isNone && (sources.assets.get? name).isNone

def isVariable (sources : NameSources) (name : String) : Bool :=
  isWord name.toList && (Mark.ofKeyword? name).isNone && sources.isFree name &&
    (sources.registry.constant? name).isNone

/-- A name that can stand behind a dot. -/
def isField (sources : NameSources) (name : String) : Bool :=
  isWord name.toList && (Mark.ofKeyword? name).isNone && (sources.macros.get? name).isNone

end GameScript.Token.NameSources

namespace GameScript.Outline

open Number Syntax Token

section Nestings

variable (context : PrintContext) (macros : MacroTable) (scope : PrintScope)

def nestingOf? (below : NodeId → Option Nesting) : Node → Option Nesting
  | .int16 value _ => some (.number (Double.ofInt value.toInt))
  | .int32 value => some (.number (Double.ofInt value.toInt))
  | .boolean value =>
    if context.target.hasFunctions && (context.sources macros).isFree (toString value) then
      some (.boolean value)
    else none
  | .var v =>
    if v.isBare scope && (context.sources macros).isVariable v.name then
      some (.name v.name)
    else none
  | .binary opcode comparison left right leftType rightType => do
    let op ← binaryOp? context.target.lazyLogic opcode comparison leftType rightType
    return .binary op (← below left) (← below right)
  | .unary opcode operand type => do
    let op ← unaryOp? opcode type
    let nesting ← below operand
    if op = .neg && nesting.isNumber then none else some (.unary op nesting)
  | .lazyLogic isAnd (first :: second :: others) => do
    return .chain (if isAnd then .and else .or) (← below first)
      ((← below second) :: (← others.mapM below))
  | .conditional condition yes no => do
    return .conditional (← below condition) (← below yes) (← below no)
  | _ => none

/-- The nesting of an expression that is no higher than a given number of nodes, if
it has nothing but variables, integers, booleans and operators, and no integer is
negated. -/
def nestingWithin? : Nat → NodeId → Option Nesting
  | 0, _ => none
  | height + 1, id =>
    nestingOf? context macros scope (nestingWithin? height) (context.arena.node id)

end Nestings

variable {context : PrintContext} {macros : MacroTable} {scope : PrintScope}

theorem mapM_eq_some_iff {below : NodeId → Option Nesting} {ids : List NodeId}
    {nestings : List Nesting} :
    ids.mapM below = some nestings ↔
      List.Forall₂ (fun id nesting => below id = some nesting) ids nestings := by
  induction ids generalizing nestings with
  | nil => simp [eq_comm]
  | cons id ids induction =>
    simp only [List.mapM_cons, Option.pure_def, Option.bind_eq_bind,
      Option.bind_eq_some_iff, Option.some.injEq, induction, List.forall₂_cons_left_iff]
    constructor
    · rintro ⟨nesting, first, others, rest, rfl⟩
      exact ⟨nesting, others, first, rest, rfl⟩
    · rintro ⟨nesting, others, first, rest, rfl⟩
      exact ⟨nesting, first, others, rest, rfl⟩

variable {nesting : Nesting} {height : Nat} {id : NodeId}

theorem nestingOf?_mono {below above : NodeId → Option Nesting}
    (mono : ∀ id nesting, below id = some nesting → above id = some nesting) {node : Node}
    (found : nestingOf? context macros scope below node = some nesting) :
    nestingOf? context macros scope above node = some nesting := by
  unfold nestingOf? at found ⊢
  split at found
  case h_5 opcode comparison left right leftType rightType =>
      simp only [Option.pure_def, Option.bind_eq_bind, Option.bind_eq_some_iff] at found ⊢
      obtain ⟨op, isOp, l, foundLeft, r, foundRight, same⟩ := found
      exact ⟨op, isOp, l, mono _ _ foundLeft, r, mono _ _ foundRight, same⟩
  case h_6 opcode operand type =>
      simp only [Option.bind_eq_bind, Option.bind_eq_some_iff] at found ⊢
      obtain ⟨op, isOp, inner, foundInner, same⟩ := found
      exact ⟨op, isOp, inner, mono _ _ foundInner, same⟩
  case h_7 isAnd first second others =>
      simp only [Option.pure_def, Option.bind_eq_bind, Option.bind_eq_some_iff] at found ⊢
      obtain ⟨a, foundFirst, b, foundSecond, rest, foundOthers, same⟩ := found
      have others := mapM_eq_some_iff.mpr ((mapM_eq_some_iff.mp foundOthers).imp mono)
      exact ⟨a, mono _ _ foundFirst, b, mono _ _ foundSecond, rest, others, same⟩
  case h_8 condition yes no =>
      simp only [Option.pure_def, Option.bind_eq_bind, Option.bind_eq_some_iff] at found ⊢
      obtain ⟨c, foundCondition, y, foundYes, n, foundNo, same⟩ := found
      exact ⟨c, mono _ _ foundCondition, y, mono _ _ foundYes, n, mono _ _ foundNo, same⟩
  case h_9 => cases found
  all_goals exact found

theorem nestingWithin?_succ
    (found : nestingWithin? context macros scope height id = some nesting) :
    nestingWithin? context macros scope (height + 1) id = some nesting := by
  induction height generalizing id nesting with
  | zero => cases found
  | succ height induction => exact nestingOf?_mono (fun _ _ => induction) found

theorem nestingWithin?_mono {higher : Nat} (le : height ≤ higher)
    (found : nestingWithin? context macros scope height id = some nesting) :
    nestingWithin? context macros scope higher id = some nesting := by
  induction le with
  | refl => exact found
  | step _ induction => exact nestingWithin?_succ induction

def nested (context : PrintContext) (macros : MacroTable) (scope : PrintScope)
    (height : Nat) : Finset NodeId :=
  (Finset.range context.arena.size).filter
    fun id => (nestingWithin? context macros scope height id).isSome

theorem nestingWithin?_of_size_le (height : Nat) (outside : context.arena.size ≤ id) :
    nestingWithin? context macros scope height id = none := by
  cases height with
  | zero => rfl
  | succ height =>
    have noNode : context.arena.node id = .block [] := by
      simp [Arena.node, Array.getD, Nat.not_lt.mpr outside]
      rfl
    rw [nestingWithin?, noNode]
    rfl

/-- If one more level gives no more nodes a nesting, no level does. -/
theorem nestingWithin?_stable (same : nestingWithin? context macros scope (height + 1) =
      nestingWithin? context macros scope height) (more : Nat) :
    nestingWithin? context macros scope (height + more) =
      nestingWithin? context macros scope height := by
  induction more with
  | zero => rfl
  | succ more induction =>
    calc nestingWithin? context macros scope (height + more + 1)
      _ = fun id => nestingOf? context macros scope
            (nestingWithin? context macros scope (height + more))
            (context.arena.node id) := rfl
      _ = nestingWithin? context macros scope (height + 1) := by
        rw [induction]
        rfl
      _ = nestingWithin? context macros scope height := same

/-- A level that changes something gives one more node a nesting. -/
theorem nested_ssubset (differ : nestingWithin? context macros scope (height + 1) ≠
      nestingWithin? context macros scope height) :
    nested context macros scope height ⊂ nested context macros scope (height + 1) := by
  obtain ⟨id, differ⟩ := Function.ne_iff.mp differ
  have lower : nestingWithin? context macros scope height id = none := by
    cases found : nestingWithin? context macros scope height id with
    | none => rfl
    | some nesting =>
      rw [nestingWithin?_succ found, found] at differ
      exact absurd rfl differ
  rw [lower] at differ
  have inside : id < context.arena.size := by
    refine Nat.lt_of_not_le fun outside => differ ?_
    exact nestingWithin?_of_size_le (height + 1) outside
  refine Finset.ssubset_iff_of_subset ?_ |>.mpr ⟨id, ?_, ?_⟩
  · intro other member
    simp only [nested, Finset.mem_filter, Option.isSome_iff_exists] at member ⊢
    obtain ⟨inRange, nesting, found⟩ := member
    exact ⟨inRange, nesting, nestingWithin?_succ found⟩
  · simp [nested, inside, Option.isSome_iff_ne_none, differ]
  · simp [nested, lower]

/-- Some level no higher than the outline is large changes nothing. -/
theorem exists_stable_height (context : PrintContext) (macros : MacroTable)
    (scope : PrintScope) :
    ∃ height ≤ context.arena.size, nestingWithin? context macros scope (height + 1) =
      nestingWithin? context macros scope height := by
  by_contra! none
  have grows : ∀ height ≤ context.arena.size + 1,
      height ≤ (nested context macros scope height).card := by
    intro height
    induction height with
    | zero => exact fun _ => Nat.zero_le _
    | succ height induction =>
      intro le
      have grown := Finset.card_lt_card (nested_ssubset (none height (by omega)))
      have := induction (by omega)
      omega
  have bounded :
      (nested context macros scope (context.arena.size + 1)).card ≤ context.arena.size :=
    (Finset.card_filter_le _ _).trans_eq (Finset.card_range _)
  have := grows (context.arena.size + 1) (Nat.le_refl _)
  omega

theorem nestingWithin?_size
    (found : nestingWithin? context macros scope height id = some nesting) :
    nestingWithin? context macros scope context.arena.size id = some nesting := by
  obtain ⟨stable, le, same⟩ := exists_stable_height context macros scope
  refine nestingWithin?_mono le ?_
  rw [← nestingWithin?_stable same height]
  exact nestingWithin?_mono (Nat.le_add_left height stable) found

end GameScript.Outline
