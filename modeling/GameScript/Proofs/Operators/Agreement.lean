import GameScript.Proofs.Operators.Reading
import GameScript.Proofs.Operators.Writing

/-! Written expressions are read back as what they were.

The printer's bindings agree with the parser's levels: whatever is written without
parentheses groups by itself as it should. -/

namespace GameScript.Syntax

open Builtin Token

variable {sources : NameSources} {words : List Lexeme} {nesting : Nesting}

/-! Names of the grammar's words. -/

mutual

theorem Operand.arePlain {words : List Lexeme} {nesting : Nesting} :
    Operand sources words nesting → sources.ArePlain words
  | .name noMacro _ => .name noMacro
  | .boolean noMacro _ _ => .name noMacro
  | .number => .other nofun trivial
  | .negative => .other nofun (.other nofun trivial)
  | .paren inner =>
    .other nofun ((Whole.arePlain inner).append (.other nofun trivial) (by simp))
  | .unary _ inner => .other nofun (Operand.arePlain inner)

theorem Chain.arePlain {levels : List (List (Mark × BinaryOp))} {words : List Lexeme}
    {nesting : Nesting} :
    Chain sources levels words nesting → areLayered levels = true → sources.ArePlain words
  | .operand inner, _ => Operand.arePlain inner
  | .first inner, layered => Chain.arePlain inner (areLayered_tail layered)
  | @Chain.next _ _ _ mark _ _ _ _ _ found left right, layered => by
    have noParen : mark ≠ .parenOpen := by
      rintro rfl
      cases extendsOperand_eq_false (endsBefore_of_lookup layered found)
    exact (Chain.arePlain left layered).append
      (.other nofun (Chain.arePlain right (areLayered_tail layered)))
      (by simpa using noParen)

theorem Whole.arePlain {words : List Lexeme} {nesting : Nesting} :
    Whole sources words nesting → sources.ArePlain words
  | .chain inner => Chain.arePlain inner areLayered_binaryLevels
  | .conditional condition yes no =>
    (Chain.arePlain condition areLayered_binaryLevels).append
      (.other nofun ((Whole.arePlain yes).append
        (.other nofun (Whole.arePlain no)) (by simp)))
      (by simp)

end

def readExpression? (sources : NameSources) (enums : EnumTable) (text : String) :
    Option Expr :=
  let scan := Token.scan sources.target sources.macros text
  let (tokens, errors) := { sources with macros := scan.macros }.resolve scan.padded
  if scan.errors.isEmpty && errors.isEmpty then
    (parseExpression sources.registry enums tokens).toOption
  else none

theorem parseExpression_of_yields {registry : Registry} {enums : EnumTable}
    {tokens rest : List Token} {value : Expr} (ends : nextLexeme rest = .eof)
    (reads : Yields ⟨registry, enums, (tokens.getLast?.map Token.pos).getD 0⟩
      (exprWithin (tokens.length + 1)) tokens value rest) :
    parseExpression registry enums tokens = .ok value := by
  have yields : Yields ⟨registry, enums, (tokens.getLast?.map Token.pos).getD 0⟩
      (lone (tokens.length + 1)) tokens value rest := by
    refine reads.bind (peekLexeme_yields.bind ?_)
    rw [if_pos (congrArg Lexeme.kind ends)]
    exact .pure _
  exact congrArg (Except.map Prod.fst) yields

theorem parseExpression_whole (whole : Whole sources words nesting) (registry : Registry)
    (enums : EnumTable) (tokens rest : List Token) (spelled : Spelled sources tokens words)
    (ends : nextLexeme rest = .eof) :
    ∃ expr, parseExpression registry enums (tokens ++ rest) = .ok expr ∧
      expr.nesting? = some nesting := by
  obtain ⟨expr, read, nests⟩ := Whole.takes whole (tokens ++ rest).length rest
    (by simp [← spelled.length]) (by rw [ends]; rfl) tokens spelled
  exact ⟨expr, parseExpression_of_yields ends read, nests⟩

theorem readExpression?_of_scan {enums : EnumTable} {text : String} {tokens : List Token}
    {last : Position} {isResult : Expr → Prop} (spelled : tokens.map (·.lexeme) = words)
    (scanned : Token.scan sources.target sources.macros text =
      ⟨tokens ++ [⟨.eof, last⟩], [], sources.macros⟩)
    (plain : sources.ArePlain words)
    (parses : ∀ tokens rest, Spelled sources tokens words → nextLexeme rest = .eof →
      ∃ expr, parseExpression sources.registry enums (tokens ++ rest) = .ok expr ∧
      isResult expr) :
    ∃ expr, readExpression? sources enums text = some expr ∧ isResult expr := by
  obtain ⟨rest, isRest⟩ : ∃ rest : List Token,
      rest = ⟨.eof, last⟩ :: List.replicate Scan.padding ⟨.eof, last⟩ := ⟨_, rfl⟩
  have padded :
      (Token.scan sources.target sources.macros text).padded = tokens ++ rest := by
    simp [scanned, Scan.padded, isRest]
  have plain : sources.ArePlain ((tokens ++ rest).map (·.lexeme)) := by
    rw [List.map_append, spelled, isRest]
    refine plain.append ?_ (by simp)
    simp [NameSources.ArePlain, Scan.padding, List.replicate]
  have resolved : NameSources.resolve
      { sources with macros := (Token.scan sources.target sources.macros text).macros }
      (Token.scan sources.target sources.macros text).padded =
        (tokens.map (fun token => ⟨sources.meaning token.lexeme, token.pos⟩) ++
          rest.map (fun token => ⟨sources.meaning token.lexeme, token.pos⟩), []) := by
    rw [padded, scanned, ← List.map_append]
    exact NameSources.resolve_plain plain
  obtain ⟨expr, parsed, holds⟩ := parses
    (tokens.map fun token => ⟨sources.meaning token.lexeme, token.pos⟩)
    (rest.map fun token => ⟨sources.meaning token.lexeme, token.pos⟩)
    (by simp [Spelled, ← spelled]) (by rw [isRest]; rfl)
  refine ⟨expr, ?_, holds⟩
  rw [readExpression?]
  dsimp only
  rw [resolved, scanned]
  simp [parsed, Except.toOption]

theorem readExpression?_whole (whole : Whole sources words nesting) (enums : EnumTable)
    {text : String} (spells : Spells sources.target text.toList words) :
    ∃ expr, readExpression? sources enums text = some expr ∧
    expr.nesting? = some nesting := by
  obtain ⟨tokens, last, spelled, scanned⟩ := spells.scan sources.macros
  exact readExpression?_of_scan spelled scanned whole.arePlain
    (parseExpression_whole whole sources.registry enums)

end GameScript.Syntax

namespace GameScript.Outline

open Number Syntax Token

/-- The text of an expression is read as an expression whose operators nest as those of the
outline do.  The printer needs no more levels than the expression or the outline has. -/
theorem written_expression_reads_back (context : PrintContext) (macros : MacroTable)
    (enums : EnumTable) (scope : PrintScope) (level : Nat)
    {height depth : Nat} {id : NodeId} {nesting : Nesting}
    (nests : nestingWithin? context macros scope height id = some nesting)
    (deep : min height context.arena.size ≤ depth) :
    ∃ text expr, ((exprWithin depth level id).run context).run scope = (text, scope) ∧
      readExpression? (context.sources macros) enums text = some expr ∧
      expr.nesting? = some nesting := by
  have within : nestingWithin? context macros scope depth id = some nesting := by
    rcases Nat.le_total height context.arena.size with le | le
    · exact nestingWithin?_mono (by omega) nests
    · exact nestingWithin?_mono (by omega) (nestingWithin?_size nests)
  obtain ⟨text, gives, writes⟩ := exprWithin_prints within level
  obtain ⟨words, spells, holds⟩ := writes.spells
  obtain ⟨expr, read, reads⟩ :=
    readExpression?_whole (whole_of_grammarOf holds) enums spells
  exact ⟨text, expr, gives, read, reads⟩

/-- Every kind of node, with operands that need parentheses and operands that do not. -/
def mixedContext : PrintContext where
  arena :=
    #[.var ⟨"apples", .fixed .self, .normal, [], .push⟩,
      .int16 (-5) .none,
      .boolean true,
      .binary .sub none 0 1 .variant .int32,
      .unary .neg 3 .variant,
      .unary .neg 4 .variant,
      .binary .sub none 0 3 .variant .variant,
      .binary .compare (some .lessEqual) 5 6 .variant .variant,
      .unary .not 2 .boolean,
      .lazyLogic false [8, 2],
      .lazyLogic true [7, 9, 2],
      .binary .or none 10 2 .boolean .boolean,
      .conditional 11 1 0,
      .conditional 12 12 0]
  target := .ofGeneration .gms23
  assets := {}

def mixedNesting : Nesting :=
  let apples : Nesting := .name "apples"
  let minusFive : Nesting := .number (Double.ofInt (-5))
  let difference : Nesting := .binary .sub apples minusFive
  let compared : Nesting :=
    .binary .lte (.unary .neg (.unary .neg difference)) (.binary .sub apples difference)
  let inverted : Nesting := .binary .or (.unary .not (.boolean true)) (.boolean true)
  let logic : Nesting := .binary .and (.binary .and compared inverted) (.boolean true)
  let choice : Nesting :=
    .conditional (.binary .xor logic (.boolean true)) minusFive apples
  .conditional choice choice apples

theorem mixedNesting_reads_back :
    nestingWithin? mixedContext {} { locals := [] } 14 13 = some mixedNesting ∧
      ∃ text expr, ((exprWithin 14 0 13).run mixedContext).run { locals := [] } =
          (text, { locals := [] }) ∧
        readExpression? (mixedContext.sources {}) {} text = some expr ∧
        expr.nesting? = some mixedNesting := by
  have nests :
      nestingWithin? mixedContext {} { locals := [] } 14 13 = some mixedNesting := by
    decide +kernel
  exact ⟨nests,
    written_expression_reads_back mixedContext {} {} { locals := [] } 0 nests
      (Nat.min_le_left _ _)⟩

end GameScript.Outline
