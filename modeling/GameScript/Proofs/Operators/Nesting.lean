import GameScript.Syntax.Parser
import GameScript.Token.Naming

/-! How operators nest.

A nesting tells what each operator of an expression is applied to; a chain of one
operator nests to the left.  The grammar below gives the words of nestings, one
predicate for each layer of expressions. -/

namespace GameScript.Token

/-- What a word stands for where no parenthesis follows it. -/
def NameSources.meaning (sources : NameSources) : Lexeme → Lexeme
  | .identifier name => sources.lexeme name false
  | ⟨.identifier, _⟩ => ⟨.identifier, .none⟩
  | lexeme => lexeme

end GameScript.Token

namespace GameScript.Syntax

open Number Token

/-- An expression of names, literals and operators, without positions and chains. -/
inductive Nesting where
  | name (name : String)
  | boolean (value : Bool)
  | number (value : Double)
  | unary (op : UnaryOp) (operand : Nesting)
  | binary (op : BinaryOp) (left right : Nesting)
  | conditional (condition yes no : Nesting)
deriving DecidableEq, Repr

namespace Nesting

def chain (op : BinaryOp) (first : Nesting) (others : List Nesting) : Nesting :=
  others.foldl (.binary op) first

def isNumber : Nesting → Bool
  | .number _ => true
  | _ => false

theorem chain_append (op : BinaryOp) (first : Nesting) (others : List Nesting)
    (last : Nesting) :
    chain op first (others ++ [last]) = .binary op (chain op first others) last := by
  simp [chain]

end Nesting

mutual

/-- How the operators of an expression nest, if it has nothing but names, literals and
operators. -/
def Expr.nesting? : Expr → Option Nesting
  | .literal _ (.number value) => some (.number value)
  | .literal _ (.boolean value) => some (.boolean value)
  | .var ⟨_, name, _, none⟩ [] => some (.name name)
  | .unary _ op operand => operand.nesting?.map (.unary op)
  | .binary _ op (first :: second :: rest) => do
    return .chain op (← first.nesting?) (← nestings? (second :: rest))
  | .conditional _ condition yes no => do
    return .conditional (← condition.nesting?) (← yes.nesting?) (← no.nesting?)
  | _ => none

def nestings? : List Expr → Option (List Nesting)
  | [] => some []
  | first :: rest => do return (← first.nesting?) :: (← nestings? rest)

end

section Nestings

variable {expr : Expr} {exprs : List Expr} {nesting : Nesting} {nestings : List Nesting}

theorem nestings?_singleton (nests : expr.nesting? = some nesting) :
    nestings? [expr] = some [nesting] := by
  simp [nestings?, nests]

theorem nestings?_append (nests : nestings? exprs = some nestings)
    (last : expr.nesting? = some nesting) :
    nestings? (exprs ++ [expr]) = some (nestings ++ [nesting]) := by
  induction exprs generalizing nestings with
  | nil =>
    cases nests
    exact nestings?_singleton last
  | cons first rest induction =>
    simp only [nestings?, Option.pure_def, Option.bind_eq_bind, Option.bind_eq_some_iff,
      Option.some.injEq] at nests
    obtain ⟨_, firstNests, others, restNests, rfl⟩ := nests
    simp [nestings?, firstNests, induction restNests]

theorem nesting?_chain (pos : Position) (op : BinaryOp) {first : Nesting}
    {others : List Nesting} (nests : nestings? exprs = some (first :: others))
    (more : others ≠ []) :
    (Expr.binary pos op exprs).nesting? = some (.chain op first others) := by
  match exprs, others, more with
  | [], _, _ => cases nests
  | [_], _ :: _, _ => simp [nestings?, Option.bind_eq_some_iff] at nests
  | _ :: _ :: _, _, _ =>
    simp only [nestings?, Option.pure_def, Option.bind_eq_bind, Option.bind_eq_some_iff,
      Option.some.injEq] at nests
    obtain ⟨_, firstNests, _, ⟨_, secondNests, _, restNests, rfl⟩, same⟩ := nests
    cases same
    simp [Expr.nesting?, nestings?, firstNests, secondNests, restNests]

theorem negate_nesting? (pos : Position) (nests : expr.nesting? = some nesting)
    (noNumber : nesting.isNumber = false) :
    (negate pos expr).nesting? = some (.unary .neg nesting) := by
  match expr with
  | .literal _ (.number _) =>
    cases nests
    cases noNumber
  | .literal _ (.int64 _) | .literal _ (.string _) => cases nests
  | .literal _ (.boolean _) | .var _ _ | .member _ _ _ _ | .call _ _ | .methodCall _ _ _ _
  | .construct _ _ | .binary _ _ _ | .unary _ _ _ | .step _ _ _ _ | .conditional _ _ _ _
  | .coalesce _ _ _ | .array _ _ | .struct _ _ | .function _ =>
    exact congrArg (Option.map (Nesting.unary .neg)) nests

end Nestings

def UnaryOp.mark : UnaryOp → Mark
  | .not => .not
  | .neg => .minus
  | .bitNot => .bitNot

def BinaryOp.mark : BinaryOp → Mark
  | .add => .plus
  | .sub => .minus
  | .mul => .times
  | .div => .divide
  | .intDiv => .intDivide
  | .mod => .modulo
  | .and => .and
  | .or => .or
  | .xor => .xor
  | .bitAnd => .bitAnd
  | .bitOr => .bitOr
  | .bitXor => .bitXor
  | .shl => .shiftLeft
  | .shr => .shiftRight
  | .eq => .equal
  | .neq => .notEqual
  | .lt => .less
  | .lte => .lessEqual
  | .gt => .greater
  | .gte => .greaterEqual

section Grammar

variable (sources : NameSources)

mutual

/-- Words that hold together as tightly as a prefix operator asks. -/
inductive Operand : List Lexeme → Nesting → Prop
  | name {name : String} {builtin : Option Builtin.BuiltinVariable} :
      sources.macros.get? name = none → sources.meaning (.identifier name) =
        .var name builtin →
      Operand [.identifier name] (.name name)
  | boolean {name : String} {constant : Constant} {value : Bool} :
      sources.macros.get? name = none → sources.meaning (.identifier name) =
        .constant constant →
      literalOf constant = .boolean value → Operand [.identifier name] (.boolean value)
  | number {value : Double} :
      Operand [.constant { value := .number value }] (.number value)
  | negative {value : Double} :
      Operand [.mark .minus, .constant { value := .number value }] (.number value.neg)
  | paren {words : List Lexeme} {nesting : Nesting} :
      Whole words nesting →
      Operand (.mark .parenOpen :: words ++ [.mark .parenClose]) nesting
  /-- The minus in front of a number would belong to the number. -/
  | unary {op : UnaryOp} {words : List Lexeme} {nesting : Nesting} :
      (op = .neg → nesting.isNumber = false) → Operand words nesting →
      Operand (.mark op.mark :: words) (.unary op nesting)

/-- Words with the operators of some levels, from the loosest to the tightest. -/
inductive Chain : List (List (Mark × BinaryOp)) → List Lexeme → Nesting → Prop
  | operand {words : List Lexeme} {nesting : Nesting} :
      Operand words nesting → Chain [] words nesting
  | first {ops : List (Mark × BinaryOp)} {tighter : List (List (Mark × BinaryOp))}
      {words : List Lexeme} {nesting : Nesting} :
      Chain tighter words nesting → Chain (ops :: tighter) words nesting
  | next {ops : List (Mark × BinaryOp)} {tighter : List (List (Mark × BinaryOp))}
      {mark : Mark} {op : BinaryOp} {words others : List Lexeme} {left right : Nesting} :
      ops.lookup mark = some op → Chain (ops :: tighter) words left →
      Chain tighter others right →
      Chain (ops :: tighter) (words ++ .mark mark :: others) (.binary op left right)

inductive Whole : List Lexeme → Nesting → Prop
  | chain {words : List Lexeme} {nesting : Nesting} :
      Chain binaryLevels words nesting → Whole words nesting
  | conditional {words yesWords noWords : List Lexeme} {condition yes no : Nesting} :
      Chain binaryLevels words condition → Whole yesWords yes → Whole noWords no →
      Whole (words ++ .mark .question :: (yesWords ++ .mark .colon :: noWords))
        (.conditional condition yes no)

end

end Grammar

end GameScript.Syntax
