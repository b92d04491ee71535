import GameScript.Proofs.Operators.Denotation
import GameScript.Proofs.Operators.Scanning

/-! The text of an expression has the words of its nesting.

An operand is written in parentheses unless its text holds together as tightly as
its place asks, and then the grammar of the place has the words of the text. -/

namespace GameScript.Token

open Number Syntax

theorem exists_of_isWord {name : String} (isWord : NameSources.isWord name.toList = true)
    (noKeyword : Mark.ofKeyword? name = none) :
    ∃ c rest, name.toList = c :: rest ∧ isNameStart c = true ∧
    (∀ c ∈ rest, isNamePart c = true) ∧
      wordLexeme (String.ofList (c :: rest)) = .identifier name := by
  cases spelled : name.toList with
  | nil => simp [spelled, NameSources.isWord] at isWord
  | cons c rest =>
    rw [spelled, NameSources.isWord, Bool.and_eq_true, List.all_eq_true] at isWord
    refine ⟨c, rest, rfl, isWord.1, isWord.2, ?_⟩
    rw [← spelled, String.ofList_toList, wordLexeme, noKeyword]

def opensText (c : Char) : Bool := isNamePart c || ['(', '-', '!', '~'].contains c

/-- The text spells words that the grammar gives a nesting. -/
structure Writes (sources : NameSources) (grammar : List Lexeme → Nesting → Prop)
    (text : String) (nesting : Nesting) : Prop where
  spells : ∃ words, Spells sources.target text.toList words ∧ grammar words nesting
  opens : text.toList.head?.any opensText = true

namespace Writes

variable {sources : NameSources} {grammar : List Lexeme → Nesting → Prop} {text : String}
  {nesting : Nesting}

theorem mono {looser : List Lexeme → Nesting → Prop}
    (writes : Writes sources grammar text nesting)
    (loosens : ∀ words, grammar words nesting → looser words nesting) :
    Writes sources looser text nesting where
  spells := by
    obtain ⟨words, spells, holds⟩ := writes.spells
    exact ⟨words, spells, loosens words holds⟩
  opens := writes.opens

theorem exists_cons (writes : Writes sources grammar text nesting) :
    ∃ c rest, text.toList = c :: rest ∧ opensText c = true := by
  have opens := writes.opens
  cases spelled : text.toList with
  | nil => simp [spelled] at opens
  | cons c rest => exact ⟨c, rest, rfl, by simpa [spelled] using opens⟩

theorem opens_append (writes : Writes sources grammar text nesting)
    (other : String) : (text ++ other).toList.head?.any opensText = true := by
  obtain ⟨c, rest, spelled, opens⟩ := writes.exists_cons
  simp [spelled, opens]

theorem word {name : String} (isWord : NameSources.isWord name.toList = true)
    (noKeyword : Mark.ofKeyword? name = none)
    (holds : grammar [.identifier name] nesting) :
    Writes sources grammar name nesting := by
  obtain ⟨c, rest, spelled, start, all, isName⟩ := exists_of_isWord isWord noKeyword
  refine ⟨⟨_, ?_, holds⟩, ?_⟩
  · rw [spelled, ← isName]
    exact .word start all
  · simp [spelled, opensText, isNamePart_of_isNameStart start]

theorem paren (writes : Writes sources (Whole sources) text nesting) :
    Writes sources (Operand sources) ("(" ++ text ++ ")") nesting where
  spells := by
    obtain ⟨words, spells, whole⟩ := writes.spells
    refine ⟨_, ?_, .paren whole⟩
    simpa using spells.paren
  opens := by simp [opensText]

theorem between {op : BinaryOp} {ops : List (Mark × BinaryOp)}
    {tighter : List (List (Mark × BinaryOp))} {other : String} {left right : Nesting}
    (found : ops.lookup op.mark = some op)
    (first : Writes sources (Chain sources (ops :: tighter)) text left)
    (second : Writes sources (Chain sources tighter) other right) :
    Writes sources (Chain sources (ops :: tighter))
      (text ++ " " ++ op.symbol ++ " " ++ other) (.binary op left right) where
  spells := by
    obtain ⟨words, spells, chain⟩ := first.spells
    obtain ⟨otherWords, otherSpells, operand⟩ := second.spells
    refine ⟨_, ?_, .next found chain operand⟩
    simpa using spells.between (isMark_symbol op) otherSpells
  opens := by
    simp only [String.append_assoc]
    exact first.opens_append _

theorem conditional {yesText noText : String} {condition yes no : Nesting}
    (first : Writes sources (Chain sources binaryLevels) text condition)
    (second : Writes sources (Whole sources) yesText yes)
    (third : Writes sources (Whole sources) noText no) :
    Writes sources (Whole sources) (text ++ " ? " ++ yesText ++ " : " ++ noText)
      (.conditional condition yes no) where
  spells := by
    obtain ⟨words, spells, chain⟩ := first.spells
    obtain ⟨yesWords, yesSpells, yesWhole⟩ := second.spells
    obtain ⟨noWords, noSpells, noWhole⟩ := third.spells
    refine ⟨_, ?_, .conditional chain yesWhole noWhole⟩
    simpa using spells.between isMark_question (yesSpells.between isMark_colon noSpells)
  opens := by
    simp only [String.append_assoc]
    exact first.opens_append _

end Writes

def unarySymbol : UnaryOp → Char
  | .not => '!'
  | .neg => '-'
  | .bitNot => '~'

theorem operator?_unary (op : UnaryOp) {c : Char} (rest : List Char)
    (apart : isNamePart c = true ∨ c = '(') :
    Cursor.operator? (unarySymbol op :: c :: rest) = some (op.mark, 1) := by
  have noEquals : c ≠ '=' := by
    rintro rfl
    revert apart
    decide
  have noMinus : c ≠ '-' := by
    rintro rfl
    revert apart
    decide
  cases op <;> simp [unarySymbol, Cursor.operator?, noEquals, noMinus, UnaryOp.mark]

theorem isSymbol_unary (op : UnaryOp) : isSymbol (unarySymbol op) = true := by
  cases op <;> decide

theorem Spells.unary {target : Target} (op : UnaryOp) {c : Char} {rest : List Char}
    {words : List Lexeme} (apart : isNamePart c = true ∨ c = '(')
    (spells : Spells target (c :: rest) words) :
    Spells target (unarySymbol op :: c :: rest) (.mark op.mark :: words) :=
  spells.prefixed (isSymbol_unary op) (by cases op <;> decide) fun after =>
    operator?_unary op (rest ++ after) apart

theorem Writes.prefixed {sources : NameSources} {op : UnaryOp} {text : String}
    {nesting : Nesting} (noSign : Outline.startsWithSign text = false)
    (noNumber : op = .neg → nesting.isNumber = false)
    (writes : Writes sources (Operand sources) text nesting) :
    Writes sources (Operand sources) (String.singleton (unarySymbol op) ++ text)
      (.unary op nesting) where
  spells := by
    obtain ⟨words, spells, operand⟩ := writes.spells
    obtain ⟨c, rest, spelled, opens⟩ := writes.exists_cons
    have apart : isNamePart c = true ∨ c = '(' := by
      simp only [opensText, Outline.startsWithSign, spelled] at opens noSign
      grind
    rw [spelled] at spells
    refine ⟨_, ?_, .unary noNumber operand⟩
    simpa [spelled] using spells.unary op apart
  opens := by cases op <;> simp [unarySymbol, opensText, isNamePart]

theorem exists_cons_toDigits (n : Nat) :
    ∃ c rest, Nat.toDigits 10 n = c :: rest ∧ isNamePart c = true := by
  obtain ⟨c, rest, spelled⟩ :=
    List.exists_cons_of_ne_nil (Nat.toDigits_ne_nil (b := 10) (n := n))
  have digit : isDigit c = true := isDigit_of_mem_toDigits (n := n) (by simp [spelled])
  exact ⟨c, rest, spelled, by simp [isNamePart, digit]⟩

/-- The minus of a negative integer belongs to it. -/
theorem Writes.integer {sources : NameSources} {n : Int} (small : n.natAbs < 2 ^ 53) :
    Writes sources (Operand sources) (toString n) (.number (Double.ofInt n)) := by
  obtain ⟨c, rest, spelled, isPart⟩ := exists_cons_toDigits n.natAbs
  have spells : Spells sources.target (Nat.toDigits 10 n.natAbs)
      [.constant { value := .number (Double.ofInt n.natAbs) }] := .digits small
  rw [spelled] at spells
  cases n with
  | ofNat n =>
    have text : (toString (Int.ofNat n)).toList = c :: rest := by
      rw [← spelled]
      exact String.toList_ofList
    refine ⟨⟨_, text ▸ spells, .number⟩, ?_⟩
    rw [text]
    simp [opensText, isPart]
  | negSucc n =>
    have text : (toString (Int.negSucc n)).toList = '-' :: c :: rest := by
      rw [← spelled]
      simp [toString, Int.repr, Nat.repr]
    have negated : Double.ofInt (Int.negSucc n) = (Double.ofInt (n + 1 : Nat)).neg :=
      (Double.neg_ofInt small (Nat.succ_ne_zero n)).symm
    rw [negated]
    refine ⟨⟨_, text ▸ spells.unary .neg (.inl isPart), .negative⟩, ?_⟩
    rw [text]
    simp [opensText]

end GameScript.Token

namespace GameScript.Outline

open Builtin Bytecode Number Syntax Token

variable {context : PrintContext} {scope : PrintScope} {α β : Type}

def Gives (context : PrintContext) (scope : PrintScope) (action : PrintM α) (value : α) :
    Prop :=
  (action.run context).run scope = (value, scope)

theorem Gives.pure (value : α) : Gives context scope (pure value) value := rfl

theorem Gives.bind {action : PrintM α} {next : α → PrintM β} {value : α} {result : β}
    (first : Gives context scope action value)
    (second : Gives context scope (next value) result) :
    Gives context scope (action >>= next) result := by
  have run : ((action >>= next).run context).run scope =
      ((next ((action.run context).run scope).1).run context).run
        ((action.run context).run scope).2 := rfl
  rw [Gives, run, first]
  exact second

theorem read_gives : Gives context scope read context := rfl

theorem get_gives : Gives context scope get scope := rfl

theorem nodeOf_gives (id : NodeId) :
    Gives context scope (nodeOf id) (context.arena.node id) := rfl

def bindingOf : BinaryOp → Binding
  | .or => .logicOr
  | .and => .logicAnd
  | .xor => .logicXor
  | .bitOr => .bitOr
  | .bitXor => .bitXor
  | .bitAnd => .bitAnd
  | .eq | .neq | .lt | .lte | .gt | .gte => .comparison
  | .shl | .shr => .shift
  | .add | .sub => .sum
  | .mul | .div | .intDiv | .mod => .product

theorem binaryOperator_of_binaryOp? (isLazy : Bool) (opcode : Opcode)
    (comparison : Option Comparison) (left right : DataType) (op : BinaryOp) :
    binaryOp? isLazy opcode comparison left right = some op →
      (match comparison with
        | some c => (c.symbol, Binding.comparison)
        | none => binaryOperator isLazy opcode left right) =
          (op.symbol, bindingOf op) := by
  intro found
  cases comparison with
  | some comparison =>
    cases found
    cases comparison <;> rfl
  | none =>
    cases opcode <;> cases found <;> try rfl
    all_goals
      simp only [binaryOperator]
      cases left == .boolean && right == .boolean <;> cases isLazy <;> rfl

theorem unaryOperator_of_unaryOp? {opcode : Opcode} {type : DataType} {op : UnaryOp}
    (found : unaryOp? opcode type = some op) :
    unaryOperator opcode type = String.singleton (unarySymbol op) := by
  cases opcode <;> cases found
  · rfl
  · simp only [unaryOperator]
    split <;> rfl

section Grammars

variable {sources : NameSources}

/-- The grammar of texts that hold together as tightly as a binding says. -/
def grammarOf (sources : NameSources) (binding : Binding) : List Lexeme → Nesting → Prop :=
  if binding < 2 then Whole sources else Chain sources (binaryLevels.drop (binding - 3))

variable {words : List Lexeme}

theorem chain_append {looser tighter : List (List (Mark × BinaryOp))}
    {nesting : Nesting} (chain : Chain sources tighter words nesting) :
    Chain sources (looser ++ tighter) words nesting := by
  induction looser with
  | nil => exact chain
  | cons _ _ induction => exact .first induction

theorem chain_drop {levels : List (List (Mark × BinaryOp))} {few many : Nat}
    (le : few ≤ many) {nesting : Nesting}
    (chain : Chain sources (levels.drop many) words nesting) :
    Chain sources (levels.drop few) words nesting := by
  have split :
      (levels.drop few).take (many - few) ++ levels.drop many = levels.drop few := by
    have rest := List.take_append_drop (many - few) (levels.drop few)
    rwa [List.drop_drop, Nat.add_sub_cancel' le] at rest
  rw [← split]
  exact chain_append chain

theorem chain_of_operand {levels : List (List (Mark × BinaryOp))}
    {nesting : Nesting} (operand : Operand sources words nesting) :
    Chain sources levels words nesting := by
  rw [← List.append_nil levels]
  exact chain_append (.operand operand)

theorem operand_of_chain {nesting : Nesting} :
    Chain sources [] words nesting → Operand sources words nesting
  | .operand operand => operand

theorem whole_of_grammarOf {binding : Binding} {nesting : Nesting}
    (holds : grammarOf sources binding words nesting) : Whole sources words nesting := by
  unfold grammarOf at holds
  split at holds
  · exact holds
  · exact .chain (chain_drop (Nat.zero_le _) holds)

theorem chain_of_grammarOf {binding least : Binding} {nesting : Nesting}
    (tight : 2 ≤ least) (le : least ≤ binding)
    (holds : grammarOf sources binding words nesting) :
    Chain sources (binaryLevels.drop (least - 3)) words nesting := by
  rw [grammarOf, if_neg (Nat.not_lt.mpr (Nat.le_trans tight le))] at holds
  exact chain_drop (Nat.sub_le_sub_right le 3) holds

theorem grammarOf_of_operand (binding : Binding) {nesting : Nesting}
    (operand : Operand sources words nesting) :
    grammarOf sources binding words nesting := by
  unfold grammarOf
  split
  · exact .chain (chain_of_operand operand)
  · exact chain_of_operand operand

theorem exists_level (op : BinaryOp) :
    ∃ ops, binaryLevels.drop (bindingOf op - 3) = ops :: binaryLevels.drop
      (bindingOf op + 1 - 3) ∧ ops.lookup op.mark = some op := by
  cases op <;> exact ⟨_, rfl, rfl⟩

end Grammars

section Nodes

variable {macros : MacroTable} {expr stmt : NodePrinter} {id : NodeId} {nesting : Nesting}

/-- The printer writes the words of the nesting, and they hold together as tightly as
the node's binding says. -/
def Prints (context : PrintContext) (macros : MacroTable) (scope : PrintScope)
    (expr : NodePrinter) (id : NodeId) (nesting : Nesting) : Prop :=
  ∀ level, ∃ text, Gives context scope (expr level id) text ∧
    Writes (context.sources macros)
      (grammarOf (context.sources macros)
        ((context.arena.node id).binding context.target.lazyLogic)) text nesting

theorem Prints.operandText (prints : Prints context macros scope expr id nesting)
    (level : Nat) {least : Binding} (tight : 2 ≤ least) :
    ∃ text, Gives context scope (operandText expr level id least) text ∧
      Writes (context.sources macros)
        (Chain (context.sources macros) (binaryLevels.drop (least - 3))) text nesting := by
  obtain ⟨text, gives, writes⟩ := prints level
  by_cases loose : (context.arena.node id).binding context.target.lazyLogic < least
  · refine ⟨"(" ++ text ++ ")", ?_, ?_⟩
    · refine gives.bind ((nodeOf_gives id).bind (read_gives.bind ?_))
      rw [if_pos loose]
      exact .pure _
    · have whole :
          Writes (context.sources macros) (Whole (context.sources macros)) text nesting :=
        writes.mono fun _ => whole_of_grammarOf
      exact whole.paren.mono fun _ => chain_of_operand
  · refine ⟨text, ?_, writes.mono fun _ => chain_of_grammarOf tight (Nat.not_lt.mp loose)⟩
    refine gives.bind ((nodeOf_gives id).bind (read_gives.bind ?_))
    rw [if_neg loose]
    exact .pure _

theorem prints_binary {opcode : Opcode} {comparison : Option Comparison}
    {left right : NodeId} {leftType rightType : DataType} {op : BinaryOp}
    {leftNesting rightNesting : Nesting}
    (isNode : context.arena.node id =
      .binary opcode comparison left right leftType rightType)
    (found : binaryOp? context.target.lazyLogic opcode comparison leftType
      rightType = some op)
    (printsLeft : Prints context macros scope expr left leftNesting)
    (printsRight : Prints context macros scope expr right rightNesting) :
    Prints context macros scope (expressionText expr stmt) id
      (.binary op leftNesting rightNesting) := by
  intro level
  have isOperator := binaryOperator_of_binaryOp? _ _ _ _ _ _ found
  have isBinding :
      (context.arena.node id).binding context.target.lazyLogic = bindingOf op := by
    rw [isNode]
    cases comparison <;> exact congrArg Prod.snd isOperator
  have tight : 2 ≤ bindingOf op := by cases op <;> decide
  obtain ⟨leftText, givesLeft, writesLeft⟩ := printsLeft.operandText level tight
  obtain ⟨rightText, givesRight, writesRight⟩ :=
    printsRight.operandText level (Nat.le_succ_of_le tight)
  obtain ⟨ops, isLevel, isOp⟩ := exists_level op
  -- The printer's operator is the one of the nesting, whichever way it was found.
  have gives (written : String × Binding) (same : written = (op.symbol, bindingOf op)) :
      Gives context scope (do
        let left ← operandText expr level left written.2
        let right ← operandText expr level right (written.2 + 1)
        return left ++ " " ++ written.1 ++ " " ++ right)
        (leftText ++ " " ++ op.symbol ++ " " ++ rightText) := by
    subst same
    exact givesLeft.bind (givesRight.bind (.pure _))
  refine ⟨leftText ++ " " ++ op.symbol ++ " " ++ rightText, ?_, ?_⟩
  · refine read_gives.bind ((nodeOf_gives id).bind ?_)
    rw [isNode]
    exact gives _ isOperator
  · rw [isBinding, grammarOf, if_neg (Nat.not_lt.mpr tight), isLevel]
    rw [isLevel] at writesLeft
    exact .between isOp writesLeft writesRight

theorem prints_unary {opcode : Opcode} {operand : NodeId} {type : DataType} {op : UnaryOp}
    {inner : Nesting} (isNode : context.arena.node id = .unary opcode operand type)
    (found : unaryOp? opcode type = some op)
    (noNumber : op = .neg → inner.isNumber = false)
    (prints : Prints context macros scope expr operand inner) :
    Prints context macros scope (expressionText expr stmt) id (.unary op inner) := by
  intro level
  obtain ⟨text, gives, writes⟩ :=
    prints.operandText level (show 2 ≤ Binding.unary from by decide)
  have operandWrites :
      Writes (context.sources macros) (Operand (context.sources macros)) text inner :=
    writes.mono fun _ => operand_of_chain
  have isOperator := unaryOperator_of_unaryOp? found
  by_cases sign : startsWithSign text = true
  · have whole :
        Writes (context.sources macros) (Whole (context.sources macros)) text inner :=
      operandWrites.mono fun _ operand => .chain (chain_of_operand operand)
    have noSign : startsWithSign ("(" ++ text ++ ")") = false := by simp [startsWithSign]
    refine ⟨_, ?_, (whole.paren.prefixed noSign noNumber).mono fun _ =>
      grammarOf_of_operand _⟩
    refine read_gives.bind ((nodeOf_gives id).bind ?_)
    rw [isNode]
    refine gives.bind ?_
    rw [if_pos sign, isOperator]
    exact .pure _
  · refine ⟨_, ?_, (operandWrites.prefixed (Bool.eq_false_iff.mpr sign) noNumber).mono
      fun _ => grammarOf_of_operand _⟩
    refine read_gives.bind ((nodeOf_gives id).bind ?_)
    rw [isNode]
    refine gives.bind ?_
    rw [if_neg sign, isOperator]
    exact .pure _

/-- Operands between one operator, each as tight as the right operand of the operator. -/
theorem writes_intercalate {sources : NameSources} {op : BinaryOp}
    {ops : List (Mark × BinaryOp)} {tighter : List (List (Mark × BinaryOp))}
    (found : ops.lookup op.mark = some op) {texts : List String} {nestings : List Nesting}
    (each : List.Forall₂ (Writes sources (Chain sources tighter)) texts nestings)
    {text : String} {first : Nesting}
    (writes : Writes sources (Chain sources (ops :: tighter)) text first) :
    Writes sources (Chain sources (ops :: tighter))
      (String.intercalate (" " ++ op.symbol ++ " ") (text :: texts))
      (.chain op first nestings) := by
  induction each generalizing text first with
  | nil => simpa [Nesting.chain] using writes
  | @cons other _ _ _ next _ induction =>
    have joined := induction (.between found writes next)
    have same : text ++ " " ++ op.symbol ++ " " ++ other =
        text ++ (" " ++ op.symbol ++ " ") ++ other := by
      simp only [String.append_assoc]
    rw [same] at joined
    exact joined

theorem operandTexts {ids : List NodeId} {nestings : List Nesting}
    (prints : List.Forall₂ (Prints context macros scope expr) ids nestings) (level : Nat)
    {least : Binding} (tight : 2 ≤ least) :
    ∃ texts, Gives context scope (ids.mapM (operandText expr level · least)) texts ∧
      List.Forall₂ (Writes (context.sources macros)
        (Chain (context.sources macros) (binaryLevels.drop (least - 3)))) texts
          nestings := by
  induction prints with
  | nil => exact ⟨[], .pure [], .nil⟩
  | cons first _ induction =>
    obtain ⟨text, gives, writes⟩ := first.operandText level tight
    obtain ⟨texts, givesTexts, each⟩ := induction
    refine ⟨text :: texts, ?_, .cons writes each⟩
    rw [List.mapM_cons]
    exact gives.bind (givesTexts.bind (.pure _))

theorem prints_lazyLogic {isAnd : Bool} {operands : List NodeId} {first : Nesting}
    {others : List Nesting} (isNode : context.arena.node id = .lazyLogic isAnd operands)
    (prints : List.Forall₂ (Prints context macros scope expr) operands (first :: others)) :
    Prints context macros scope (expressionText expr stmt) id
      (.chain (if isAnd then .and else .or) first others) := by
  intro level
  obtain ⟨op, isOp⟩ : ∃ op, op = if isAnd then BinaryOp.and else .or := ⟨_, rfl⟩
  have isBinding :
      (context.arena.node id).binding context.target.lazyLogic = bindingOf op := by
    rw [isNode, isOp]
    cases isAnd <;> rfl
  have tight : 2 ≤ bindingOf op := by cases op <;> decide
  obtain ⟨texts, gives, each⟩ := operandTexts prints level (Nat.le_succ_of_le tight)
  obtain ⟨ops, isLevel, found⟩ := exists_level op
  refine ⟨String.intercalate (" " ++ op.symbol ++ " ") texts, ?_, ?_⟩
  · refine read_gives.bind ((nodeOf_gives id).bind ?_)
    rw [isNode]
    subst isOp
    cases isAnd <;> exact gives.bind (.pure _)
  · rw [isBinding, grammarOf, if_neg (Nat.not_lt.mpr tight), isLevel, ← isOp]
    cases each with
    | cons writes each => exact writes_intercalate found each (writes.mono fun _ => .first)

theorem prints_conditional {condition yes no : NodeId}
    {conditionNesting yesNesting noNesting : Nesting}
    (isNode : context.arena.node id = .conditional condition yes no)
    (printsCondition : Prints context macros scope expr condition conditionNesting)
    (printsYes : Prints context macros scope expr yes yesNesting)
    (printsNo : Prints context macros scope expr no noNesting) :
    Prints context macros scope (expressionText expr stmt) id
      (.conditional conditionNesting yesNesting noNesting) := by
  intro level
  have tight : 2 ≤ Binding.conditional + 1 := by decide
  obtain ⟨conditionText, givesCondition, writesCondition⟩ :=
    printsCondition.operandText level tight
  obtain ⟨yesText, givesYes, writesYes⟩ := printsYes.operandText level tight
  obtain ⟨noText, givesNo, writesNo⟩ := printsNo.operandText level tight
  refine ⟨conditionText ++ " ? " ++ yesText ++ " : " ++ noText, ?_, ?_⟩
  · refine read_gives.bind ((nodeOf_gives id).bind ?_)
    rw [isNode]
    exact givesCondition.bind (givesYes.bind (givesNo.bind (.pure _)))
  · rw [isNode]
    exact writesCondition.conditional (writesYes.mono fun _ => .chain)
      (writesNo.mono fun _ => .chain)

theorem prints_integer {value : Int}
    (small : value.natAbs < 2 ^ 53)
    (gives : ∀ level, Gives context scope (expr level id) (toString value)) :
    Prints context macros scope expr id (.number (Double.ofInt value)) :=
  fun level =>
    ⟨_, gives level, (Writes.integer small).mono fun _ => grammarOf_of_operand _⟩

theorem meaning_of_isVariable {sources : NameSources} {name : String}
    (isVariable : sources.isVariable name = true) :
    sources.meaning (.identifier name) = .var name (sources.registry.lookup? name) := by
  simp only [NameSources.isVariable, NameSources.isFree, Bool.and_eq_true,
    Option.isNone_iff_eq_none] at isVariable
  obtain ⟨⟨-, -, noAsset⟩, noConstant⟩ := isVariable
  rw [NameSources.meaning, NameSources.lexeme, noAsset, noConstant]
  rfl

theorem constant?_boolean (target : Target) (value : Bool) :
    (Registry.ofTarget target).constant? (toString value) =
      some (Double.ofInt (if value then 1 else 0)) := by
  obtain ⟨generation, _, _, _⟩ := target
  cases generation <;> cases value <;> rfl

theorem variableText_gives {v : VariableNode} (isBare : v.isBare scope = true)
    (level : Nat) : Gives context scope (variableText expr level v) v.name := by
  obtain ⟨name, holder, access, indices, opcode⟩ := v
  simp only [VariableNode.isBare, Bool.and_eq_true, List.isEmpty_iff] at isBare
  obtain ⟨rfl, isBare⟩ := isBare
  cases holder with
  | expr _ => cases isBare
  | fixed inst =>
    dsimp only at isBare
    refine get_gives.bind ?_
    extract_lets join
    have joined : Gives context scope (join "") name := by
      rw [← String.empty_append (s := name)]
      exact .pure _
    dsimp only
    split at isBare
    · next isStatic =>
        subst isStatic
        rw [isBare]
        exact (Gives.pure "").bind joined
    · rw [Bool.and_eq_true, Bool.not_eq_true'] at isBare
      rw [isBare.1, isBare.2]
      exact (Gives.pure "").bind joined

theorem prints_var {v : VariableNode} (isNode : context.arena.node id = .var v)
    (isBare : v.isBare scope = true)
    (isVariable : (context.sources macros).isVariable v.name = true) :
    Prints context macros scope (expressionText expr stmt) id (.name v.name) := by
  intro level
  have meaning := meaning_of_isVariable isVariable
  simp only [NameSources.isVariable, NameSources.isFree, Bool.and_eq_true,
    Option.isNone_iff_eq_none] at isVariable
  obtain ⟨⟨⟨isWord, noKeyword⟩, noMacro, -⟩, -⟩ := isVariable
  refine ⟨v.name, ?_, .word isWord noKeyword
    (grammarOf_of_operand _ (.name noMacro meaning))⟩
  refine read_gives.bind ((nodeOf_gives id).bind ?_)
  rw [isNode]
  exact variableText_gives isBare level

theorem prints_boolean {value : Bool} (isNode : context.arena.node id = .boolean value)
    (typed : context.target.hasFunctions = true)
    (isFree : (context.sources macros).isFree (toString value) = true) :
    Prints context macros scope (expressionText expr stmt) id (.boolean value) := by
  intro level
  simp only [NameSources.isFree, Bool.and_eq_true, Option.isNone_iff_eq_none] at isFree
  obtain ⟨noMacro, noAsset⟩ := isFree
  have meaning : (context.sources macros).meaning (.identifier (toString value)) =
      .constant
        { value := .number (Double.ofInt (if value then 1 else 0)),
          name := some (toString value)
          isBoolean := true } := by
    rw [NameSources.meaning, NameSources.lexeme, noAsset, PrintContext.sources,
      constant?_boolean, typed]
    cases value <;> rfl
  have operand :
      Operand (context.sources macros) [.identifier (toString value)] (.boolean value) :=
    .boolean noMacro meaning (by cases value <;> decide)
  refine ⟨toString value, ?_, .word ?_ ?_ (grammarOf_of_operand _ operand)⟩
  · refine read_gives.bind ((nodeOf_gives id).bind ?_)
    rw [isNode]
    cases value <;> exact .pure _
  · cases value <;> decide
  · cases value <;> rfl

/-- A node with a nesting is printed if the nodes below it are. -/
theorem expressionText_prints {below : NodeId → Option Nesting}
    (prints : ∀ id nesting, below id = some nesting →
      Prints context macros scope expr id nesting)
    (found : nestingOf? context macros scope below
      (context.arena.node id) = some nesting) :
    Prints context macros scope (expressionText expr stmt) id nesting := by
  unfold nestingOf? at found
  split at found
  case h_1 value _ isNode =>
      cases found
      refine prints_integer ?_ fun level => ?_
      · have := value.toInt_lt
        have := value.le_toInt
        omega
      · refine read_gives.bind ((nodeOf_gives id).bind ?_)
        rw [isNode]
        exact .pure _
  case h_2 value isNode =>
      cases found
      refine prints_integer ?_ fun level => ?_
      · have := value.toInt_lt
        have := value.le_toInt
        omega
      · refine read_gives.bind ((nodeOf_gives id).bind ?_)
        rw [isNode]
        exact .pure _
  case h_3 value isNode =>
      split at found
      · next conditions =>
          cases found
          rw [Bool.and_eq_true] at conditions
          exact prints_boolean isNode conditions.1 conditions.2
      · cases found
  case h_4 v isNode =>
      split at found
      · next conditions =>
          cases found
          rw [Bool.and_eq_true] at conditions
          exact prints_var isNode conditions.1 conditions.2
      · cases found
  case h_5 isNode =>
      simp only [Option.pure_def, Option.bind_eq_bind, Option.bind_eq_some_iff,
        Option.some.injEq] at found
      obtain ⟨op, isOp, _, foundLeft, _, foundRight, rfl⟩ := found
      exact prints_binary isNode isOp (prints _ _ foundLeft) (prints _ _ foundRight)
  case h_6 isNode =>
      simp only [Option.bind_eq_bind, Option.bind_eq_some_iff] at found
      obtain ⟨op, isOp, inner, foundInner, allowed⟩ := found
      split at allowed
      · cases allowed
      · next noNumber =>
          cases allowed
          simp only [Bool.and_eq_true, decide_eq_true_eq, not_and,
            Bool.not_eq_true] at noNumber
          exact prints_unary isNode isOp noNumber (prints _ _ foundInner)
  case h_7 isNode =>
      simp only [Option.pure_def, Option.bind_eq_bind, Option.bind_eq_some_iff,
        Option.some.injEq] at found
      obtain ⟨_, foundFirst, _, foundSecond, _, foundOthers, rfl⟩ := found
      exact prints_lazyLogic isNode
        (.cons (prints _ _ foundFirst) (.cons (prints _ _ foundSecond)
        ((mapM_eq_some_iff.mp foundOthers).imp prints)))
  case h_8 isNode =>
      simp only [Option.pure_def, Option.bind_eq_bind, Option.bind_eq_some_iff,
        Option.some.injEq] at found
      obtain ⟨_, foundCondition, _, foundYes, _, foundNo, rfl⟩ := found
      exact prints_conditional isNode (prints _ _ foundCondition) (prints _ _ foundYes)
        (prints _ _ foundNo)
  case h_9 => cases found

theorem exprWithin_prints {height : Nat}
    (found : nestingWithin? context macros scope height id = some nesting) :
    Prints context macros scope (exprWithin height) id nesting := by
  induction height generalizing id nesting with
  | zero => cases found
  | succ height induction =>
    intro level
    rw [exprWithin]
    exact expressionText_prints (fun _ _ => induction) found level

end Nodes

end GameScript.Outline
