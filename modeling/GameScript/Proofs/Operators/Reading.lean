import GameScript.Proofs.Operators.Nesting

/-! Words are read as what they stand for.

Each predicate of the grammar belongs to one parser: operands to `unary`, chains to
`binary` at their levels, whole expressions to `expression`.  The parsers stop where
the words stop, because what follows never goes on with them. -/

namespace GameScript.Syntax

open Builtin Token

variable {context : ParseContext} {α β : Type}

/-- The parser ends with a value and leaves the rest of the tokens. -/
def Yields (context : ParseContext) (parser : ParseM α) (tokens : List Token) (value : α)
    (rest : List Token) : Prop :=
  (parser.run context).run tokens = .ok (value, rest)

def nextLexeme (tokens : List Token) : Lexeme := (tokens.head?.map (·.lexeme)).getD .eof

def operatorIn (ops : List (Mark × BinaryOp)) : Lexeme → Option BinaryOp
  | ⟨.mark mark, _⟩ => ops.lookup mark
  | _ => none

section Steps

variable {tokens rest : List Token} {value : α} {mark : Mark} {pos : Position}

theorem Yields.run_bind {parser : ParseM α}
    (first : Yields context parser tokens value rest) (next : α → ParseM β) :
    ((parser >>= next).run context).run tokens = ((next value).run context).run rest := by
  have run : ((parser >>= next).run context).run tokens =
      ((parser.run context).run tokens).bind fun ended =>
        ((next ended.1).run context).run ended.2 := rfl
  rw [run, first]
  rfl

theorem Yields.bind {parser : ParseM α} {next : α → ParseM β} {last : List Token}
    {result : β} (first : Yields context parser tokens value rest)
    (second : Yields context (next value) rest result last) :
    Yields context (parser >>= next) tokens result last :=
  (first.run_bind next).trans second

theorem Yields.pure (value : α) : Yields context (pure value) tokens value tokens := rfl

theorem Yields.discard {parser : ParseM α}
    (yields : Yields context parser tokens value rest) :
    Yields context (discard parser) tokens () rest := by
  have run : ((Functor.discard parser).run context).run tokens =
      ((parser.run context).run tokens).bind fun ended => .ok ((), ended.2) := rfl
  rw [Yields, run, yields]
  rfl

theorem peek_yields {token : Token} :
    Yields context peek (token :: tokens) token (token :: tokens) :=
  rfl

theorem peekLexeme_yields :
    Yields context peekLexeme tokens (nextLexeme tokens) tokens := by
  cases tokens <;> rfl

theorem isAt_yields :
    Yields context (isAt mark) tokens ((nextLexeme tokens).kind == .mark mark) tokens := by
  cases tokens <;> rfl

theorem advance_yields {token : Token} :
    Yields context advance (token :: tokens) token tokens :=
  rfl

theorem eat_yields :
    Yields context (eat mark) (⟨.mark mark, pos⟩ :: tokens) true tokens := by
  refine isAt_yields.bind ?_
  simp only [nextLexeme, List.head?_cons, Option.map_some, Option.getD_some,
    BEq.rfl, if_true]
  exact advance_yields.discard.bind (.pure _)

theorem eat_yields_false (other : (nextLexeme tokens).kind ≠ .mark mark) :
    Yields context (eat mark) tokens false tokens := by
  refine isAt_yields.bind ?_
  simp only [beq_iff_eq, other, if_false]
  exact .pure _

theorem expect_yields (what : String) :
    Yields context (expect mark what) (⟨.mark mark, pos⟩ :: tokens) pos tokens := by
  refine isAt_yields.bind ?_
  simp only [nextLexeme, List.head?_cons, Option.map_some, Option.getD_some,
    BEq.rfl, if_true]
  exact advance_yields.bind (.pure _)

theorem remaining_yields : Yields context remaining tokens (tokens.length + 1) tokens :=
  rfl

theorem operatorOf_yields (ops : List (Mark × BinaryOp)) :
    Yields context (operatorOf ops) tokens (operatorIn ops (nextLexeme tokens))
      tokens := by
  refine peekLexeme_yields.bind ?_
  obtain ⟨kind, payload⟩ := nextLexeme tokens
  cases kind <;> exact .pure _

end Steps

/-- The lexeme goes on with an operand in front of it; a parenthesis makes a call of it. -/
def extendsOperand : Lexeme → Bool
  | ⟨.mark .parenOpen, _⟩ | ⟨.mark .dot, _⟩ | ⟨.mark .arrayOpen, _⟩
  | ⟨.mark .directOpen, _⟩
  | ⟨.mark .listOpen, _⟩ | ⟨.mark .mapOpen, _⟩ | ⟨.mark .gridOpen, _⟩
  | ⟨.mark .structOpen, _⟩
  | ⟨.mark .increment, _⟩ | ⟨.mark .decrement, _⟩ => true
  | _ => false

/-- A chain with the operators of some levels ends before the lexeme. -/
def endsBefore (levels : List (List (Mark × BinaryOp))) (lexeme : Lexeme) : Bool :=
  levels.all (fun ops => (operatorIn ops lexeme).isNone) && !extendsOperand lexeme

/-- An operator ends the chains of the tighter levels. -/
def areLayered : List (List (Mark × BinaryOp)) → Bool
  | [] => true
  | ops :: tighter =>
    ops.all (fun entry => endsBefore tighter (.mark entry.1)) && areLayered tighter

def endsWhole (lexeme : Lexeme) : Bool :=
  endsBefore binaryLevels lexeme && lexeme.kind != .mark .coalesce &&
    lexeme.kind != .mark .question

section Ends

variable {levels tighter : List (List (Mark × BinaryOp))} {ops : List (Mark × BinaryOp)}
  {lexeme : Lexeme}

theorem endsBefore_cons :
    endsBefore (ops :: tighter) lexeme = true ↔
      operatorIn ops lexeme = none ∧ endsBefore tighter lexeme = true := by
  simp [endsBefore, and_assoc]

theorem extendsOperand_eq_false (ends : endsBefore levels lexeme = true) :
    extendsOperand lexeme = false := by
  simp [endsBefore] at ends
  exact ends.2

theorem endsBefore_tail (ends : endsBefore levels lexeme = true) :
    endsBefore levels.tail lexeme = true := by
  cases levels with
  | nil => exact ends
  | cons _ _ => exact (endsBefore_cons.mp ends).2

theorem endsBefore_of_lookup {mark : Mark} {op : BinaryOp}
    (layered : areLayered (ops :: tighter) = true) (found : ops.lookup mark = some op) :
    endsBefore tighter (.mark mark) = true := by
  have all := (Bool.and_eq_true_iff.mp layered).1
  obtain ⟨entries, others, rfl, -⟩ := List.lookup_eq_some_iff.mp found
  exact List.all_eq_true.mp all (mark, op) (by simp)

theorem endsBefore_of_endsWhole (ends : endsWhole lexeme = true) :
    endsBefore binaryLevels lexeme = true := by
  simp only [endsWhole, Bool.and_eq_true] at ends
  exact ends.1.1

theorem areLayered_tail (layered : areLayered (ops :: tighter) = true) :
    areLayered tighter = true :=
  (Bool.and_eq_true_iff.mp layered).2

theorem areLayered_binaryLevels : areLayered binaryLevels = true := by decide

end Ends

def isPrefixMark : Lexeme → Bool
  | ⟨.mark .not, _⟩ | ⟨.mark .bitNot, _⟩ | ⟨.mark .minus, _⟩ | ⟨.mark .plus, _⟩
  | ⟨.mark .increment, _⟩ | ⟨.mark .decrement, _⟩ => true
  | _ => false

section Operands

variable {expr : ParseM Expr} {stmt : ParseM Stmt} {token : Token}
  {tokens rest : List Token} {value : Expr}

theorem marks_of_extendsOperand {lexeme : Lexeme} (ends : extendsOperand lexeme = false) :
    accessor? lexeme = none ∧ stepMark? lexeme = none := by
  obtain ⟨kind, payload⟩ := lexeme
  cases kind with
  | mark mark => cases mark <;> first | exact ⟨rfl, rfl⟩ | cases ends
  | constant => exact ⟨rfl, rfl⟩
  | _ => exact ⟨rfl, rfl⟩

theorem accesses_yields (fuel : Nat) (target : Expr)
    (ends : extendsOperand (nextLexeme tokens) = false) :
    Yields context (accesses expr (fuel + 1) target) tokens target tokens := by
  have other (mark : Mark)
    (extending : ∀ payload, extendsOperand ⟨.mark mark, payload⟩ = true) :
      (nextLexeme tokens).kind ≠ .mark mark := fun same => by
    have whole :
        nextLexeme tokens = ⟨.mark mark, (nextLexeme tokens).payload⟩ := by rw [← same]
    rw [whole, extending] at ends
    cases ends
  have noArray := other .arrayOpen fun _ => rfl
  have noDirect := other .directOpen fun _ => rfl
  refine (eat_yields_false (other .dot fun _ => rfl)).bind
    (isAt_yields.bind (isAt_yields.bind ?_))
  simp only [beq_eq_false_iff_ne.mpr noArray, beq_eq_false_iff_ne.mpr noDirect,
    Bool.or_self, Bool.false_eq_true, if_false]
  refine peekLexeme_yields.bind ?_
  rw [(marks_of_extendsOperand ends).1]
  exact .pure _

theorem qualified_yields (noDot : (nextLexeme tokens).kind ≠ .mark .dot) :
    Yields context qualified (token :: tokens) none (token :: tokens) := by
  have sees (count : Nat) : Yields context (peekAt count) (token :: tokens)
      ((token :: tokens).getD count ⟨.eof, context.endPos⟩) (token :: tokens) := rfl
  have noMark : ((token :: tokens).getD 1 ⟨.eof, context.endPos⟩).isMark .dot = false := by
    cases tokens with
    | nil => rfl
    | cons next _ => exact beq_eq_false_iff_ne.mpr noDot
  refine (sees 1).bind ((sees 2).bind ?_)
  simp only [noMark, Bool.not_false, Bool.true_or, if_true]
  exact .pure _

theorem postfixed_yields (noDot : (nextLexeme tokens).kind ≠ .mark .dot)
    (first : Yields context (primary expr stmt) (token :: tokens) value rest)
    (ends : extendsOperand (nextLexeme rest) = false) :
    Yields context (postfixed expr stmt) (token :: tokens) value rest := by
  have accessed : Yields context (access expr stmt) (token :: tokens) value rest :=
    (qualified_yields noDot).bind
      (first.bind (remaining_yields.bind (accesses_yields _ value ends)))
  refine accessed.bind (peekLexeme_yields.bind ?_)
  rw [(marks_of_extendsOperand ends).2]
  exact .pure _

theorem unary_yields_postfixed (fuel : Nat) (plain : isPrefixMark token.lexeme = false)
    (yields : Yields context (postfixed expr stmt) (token :: tokens) value rest) :
    Yields context (unary expr stmt (fuel + 1)) (token :: tokens) value rest := by
  obtain ⟨lexeme, pos⟩ := token
  refine peek_yields.bind ?_
  obtain ⟨kind, payload⟩ := lexeme
  cases kind with
  | mark mark => cases mark <;> first | exact yields | cases plain
  | _ => exact yields

theorem unary_yields_mark (op : UnaryOp) {pos : Position} {fuel : Nat}
    (yields : Yields context (unary expr stmt fuel) tokens value rest) :
    Yields context (unary expr stmt (fuel + 1)) (⟨.mark op.mark, pos⟩ :: tokens)
      (if op = .neg then negate pos value else .unary pos op value) rest := by
  refine peek_yields.bind ?_
  cases op <;> exact advance_yields.discard.bind (yields.bind (.pure _))

theorem atom_yields {lexeme : Lexeme} {pos : Position} (fuel : Nat)
    (plain : isPrefixMark lexeme = false)
    (first : Yields context (primary expr stmt) (⟨lexeme, pos⟩ :: rest) value rest)
    (ends : extendsOperand (nextLexeme rest) = false) :
    Yields context (unary expr stmt (fuel + 1)) (⟨lexeme, pos⟩ :: rest) value rest := by
  have noDot : (nextLexeme rest).kind ≠ .mark .dot := fun same => by
    have whole :
        nextLexeme rest = ⟨.mark .dot, (nextLexeme rest).payload⟩ := by rw [← same]
    rw [whole] at ends
    cases ends
  exact unary_yields_postfixed fuel plain (postfixed_yields noDot first ends)

theorem constant_yields {constant : Constant} {pos : Position} (fuel : Nat)
    (ends : extendsOperand (nextLexeme rest) = false) :
    Yields context (unary expr stmt (fuel + 1)) (⟨.constant constant, pos⟩ :: rest)
      (.literal pos (literalOf constant)) rest :=
  atom_yields fuel rfl (peek_yields.bind (advance_yields.discard.bind (.pure _))) ends

theorem unary_yields_paren {open' close : Position} (fuel : Nat)
    (noDot : (nextLexeme tokens).kind ≠ .mark .dot)
    (inner : Yields context expr tokens value (⟨.mark .parenClose, close⟩ :: rest))
    (ends : extendsOperand (nextLexeme rest) = false) :
    Yields context (unary expr stmt (fuel + 1)) (⟨.mark .parenOpen, open'⟩ :: tokens) value
      rest := by
  refine unary_yields_postfixed fuel rfl (postfixed_yields noDot ?_ ends)
  refine peek_yields.bind ?_
  exact advance_yields.discard.bind
    (inner.bind ((expect_yields _).discard.bind (.pure _)))

end Operands

/-- What a chain has read so far: its first operand, or operands of one operator. -/
inductive Pending where
  | first (expr : Expr)
  | chain (op : BinaryOp) (operands : List Expr)

namespace Pending

def expr (pos : Position) : Pending → Expr
  | .first expr => expr
  | .chain op operands => .binary pos op operands

def operandsFor (pos : Position) (next : BinaryOp) : Pending → List Expr
  | .first expr => [expr]
  | .chain op operands => if next = op then operands else [.binary pos op operands]

def Nests (nesting : Nesting) : Pending → Prop
  | .first expr => expr.nesting? = some nesting
  | .chain op operands => ∃ first others, nestings? operands = some (first :: others) ∧
      others ≠ [] ∧ nesting = .chain op first others

variable {pending : Pending} {nesting left right : Nesting}

theorem Nests.expr (nests : pending.Nests nesting) (pos : Position) :
    (pending.expr pos).nesting? = some nesting := by
  cases pending with
  | first _ => exact nests
  | chain op _ =>
    obtain ⟨_, _, operands, more, rfl⟩ := nests
    exact nesting?_chain pos op operands more

theorem Nests.push (nests : pending.Nests left) (pos : Position) (next : BinaryOp)
    {expr : Expr} (last : expr.nesting? = some right) :
    (Pending.chain next (pending.operandsFor pos next ++ [expr])).Nests
      (.binary next left right) := by
  cases pending with
  | first operand =>
    exact ⟨left, [right], nestings?_append (nestings?_singleton nests) last, nofun, rfl⟩
  | chain op operands =>
    rw [operandsFor]
    split
    · next same =>
        subst same
        obtain ⟨first, others, read, -, rfl⟩ := nests
        exact ⟨first, others ++ [right], nestings?_append read last, by simp,
          (Nesting.chain_append _ _ _ _).symm⟩
    · have read := nestings?_singleton (nests.expr pos)
      exact ⟨left, [right], nestings?_append read last, nofun, rfl⟩

end Pending

def resume (expr : ParseM Expr) (stmt : ParseM Stmt) (pos : Position) (fuel : Nat)
    (pending : Pending) : List (List (Mark × BinaryOp)) → ParseM Expr
  | [] => return pending.expr pos
  | ops :: tighter => do
    match ← operatorOf ops with
    | none => return pending.expr pos
    | some next =>
      operandChain (binary expr stmt tighter) ops pos fuel
        next (pending.operandsFor pos next)

section Chains

variable {expr : ParseM Expr} {stmt : ParseM Stmt} {rest : List Token} {pos : Position}
  {fuel : Nat} {pending : Pending}

theorem resume_first {ops : List (Mark × BinaryOp)}
    {tighter : List (List (Mark × BinaryOp))} (value : Expr) :
    ((resume expr stmt value.pos (rest.length + 1) (.first value)
        (ops :: tighter)).run context).run rest =
      ((do
        match ← operatorOf ops with
        | none => return value
        | some op =>
          operandChain (binary expr stmt tighter) ops value.pos (← remaining) op [value] :
        ParseM Expr).run context).run rest := by
  rw [resume, (operatorOf_yields ops).run_bind, (operatorOf_yields ops).run_bind]
  cases operatorIn ops (nextLexeme rest) <;> rfl

theorem resume_yields {levels : List (List (Mark × BinaryOp))}
    (ends : endsBefore levels (nextLexeme rest) = true) :
    Yields context (resume expr stmt pos fuel pending levels) rest
      (pending.expr pos) rest := by
  cases levels with
  | nil => exact .pure _
  | cons ops _ =>
    refine (operatorOf_yields ops).bind ?_
    rw [(endsBefore_cons.mp ends).1]
    exact .pure _

theorem binary_yields_operand {levels : List (List (Mark × BinaryOp))}
    {tokens : List Token} {value : Expr}
    (reads : Yields context (unary expr stmt (tokens.length + 1)) tokens value rest)
    (ends : endsBefore levels (nextLexeme rest) = true) :
    Yields context (binary expr stmt levels) tokens value rest := by
  induction levels with
  | nil => exact remaining_yields.bind reads
  | cons ops tighter induction =>
    have first := induction (endsBefore_cons.mp ends).2
    exact (first.run_bind _).trans ((resume_first value).symm.trans (resume_yields ends))

theorem resume_next {ops : List (Mark × BinaryOp)}
    {tighter : List (List (Mark × BinaryOp))} {mark : Mark} {op : BinaryOp}
    {at' : Position} {tokens : List Token} {operand : Expr}
    (found : ops.lookup mark = some op)
    (reads : Yields context (binary expr stmt tighter) tokens operand rest) :
    ((resume expr stmt pos (fuel + 1) pending (ops :: tighter)).run context).run
        (⟨.mark mark, at'⟩ :: tokens) =
      ((resume expr stmt pos fuel (.chain op (pending.operandsFor pos op ++ [operand]))
        (ops :: tighter)).run context).run rest := by
  have seen : Yields context (operatorOf ops) (⟨.mark mark, at'⟩ :: tokens) (some op)
      (⟨.mark mark, at'⟩ :: tokens) := by
    rw [← found]
    exact operatorOf_yields ops
  rw [resume, seen.run_bind]
  dsimp only
  rw [operandChain, advance_yields.discard.run_bind, reads.run_bind]
  rw [resume, (operatorOf_yields ops).run_bind, (operatorOf_yields ops).run_bind]
  cases operatorIn ops (nextLexeme rest) with
  | none => rfl
  | some next =>
    dsimp only [Pending.operandsFor]
    split
    · next same => rw [same]
    · rfl

end Chains

section Wholes

variable {expr : ParseM Expr} {stmt : ParseM Stmt} {tokens rest : List Token}

theorem coalesceChain_yields (fuel : Nat) (value : Expr)
    (other : (nextLexeme tokens).kind ≠ .mark .coalesce) :
    Yields context (coalesceChain expr stmt (fuel + 1) value) tokens value tokens :=
  (eat_yields_false other).bind (.pure _)

theorem expression_yields_chain {value : Expr}
    (first : Yields context (binary expr stmt binaryLevels) tokens value rest)
    (ends : endsWhole (nextLexeme rest) = true) :
    Yields context (expression expr stmt) tokens value rest := by
  simp only [endsWhole, Bool.and_eq_true, bne_iff_ne] at ends
  obtain ⟨⟨-, noCoalesce⟩, noQuestion⟩ := ends
  exact first.bind (remaining_yields.bind ((coalesceChain_yields _ value noCoalesce).bind
    ((eat_yields_false noQuestion).bind (.pure _))))

theorem expression_yields_conditional {question colon : Position}
    {yesTokens noTokens : List Token} {condition yes no : Expr}
    (first : Yields context (binary expr stmt binaryLevels) tokens condition
      (⟨.mark .question, question⟩ :: yesTokens))
    (second : Yields context expr yesTokens yes (⟨.mark .colon, colon⟩ :: noTokens))
    (third : Yields context expr noTokens no rest) :
    Yields context (expression expr stmt) tokens
      (.conditional condition.pos condition yes no) rest :=
  have noCoalesce :
      (nextLexeme (⟨.mark .question, question⟩ :: yesTokens)).kind ≠ .mark .coalesce := by
    simp [nextLexeme]
  first.bind (remaining_yields.bind
    ((coalesceChain_yields _ condition noCoalesce).bind (eat_yields.bind
      (second.bind ((expect_yields _).discard.bind (third.bind (.pure _)))))))

end Wholes

/-- The tokens are those of the words, which no parenthesis follows. -/
def Spelled (sources : NameSources) (tokens : List Token) (words : List Lexeme) : Prop :=
  tokens.map (·.lexeme) = words.map sources.meaning

namespace Spelled

variable {sources : NameSources} {tokens : List Token} {words others : List Lexeme}

theorem length (spelled : Spelled sources tokens words) :
    tokens.length = words.length := by
  simpa using congrArg List.length spelled

theorem cons {word : Lexeme} (spelled : Spelled sources tokens (word :: words)) :
    ∃ pos rest, tokens = ⟨sources.meaning word, pos⟩ :: rest ∧
    Spelled sources rest words := by
  obtain ⟨⟨_, pos⟩, rest, rfl, rfl, same⟩ := List.map_eq_cons_iff.mp spelled
  exact ⟨pos, rest, rfl, same⟩

theorem append (spelled : Spelled sources tokens (words ++ others)) :
    ∃ front back, tokens = front ++ back ∧ Spelled sources front words ∧
      Spelled sources back others := by
  rw [Spelled, List.map_append] at spelled
  exact List.map_eq_append_iff.mp spelled

theorem single {word : Lexeme} (spelled : Spelled sources tokens [word]) :
    ∃ pos, tokens = [⟨sources.meaning word, pos⟩] := by
  obtain ⟨pos, rest, rfl, noWords⟩ := spelled.cons
  exact ⟨pos, by rw [List.map_eq_nil_iff.mp noWords]⟩

end Spelled

/-- The parser takes the words and stops at the rest. -/
def Takes (context : ParseContext) (sources : NameSources) (parser : ParseM Expr)
    (words : List Lexeme) (nesting : Nesting) (rest : List Token) : Prop :=
  ∀ tokens, Spelled sources tokens words →
    ∃ expr, Yields context parser (tokens ++ rest) expr rest ∧ expr.nesting? = some nesting

variable {sources : NameSources}

theorem Operand.begins {words : List Lexeme} {nesting : Nesting} :
    Operand sources words nesting →
      ∃ word others, words = word :: others ∧ (sources.meaning word).kind ≠ .mark .dot
  | .name _ found => ⟨_, _, rfl, by simp [found]⟩
  | .boolean _ found _ => ⟨_, _, rfl, by simp [found]⟩
  | .number | .negative | .paren _ => ⟨_, _, rfl, nofun⟩
  | @Operand.unary _ op _ _ _ _ => ⟨_, _, rfl, by cases op <;> nofun⟩

theorem Chain.begins {levels : List (List (Mark × BinaryOp))} {words : List Lexeme}
    {nesting : Nesting} :
    Chain sources levels words nesting →
      ∃ word others, words = word :: others ∧ (sources.meaning word).kind ≠ .mark .dot
  | .operand inner => inner.begins
  | .first inner => inner.begins
  | .next _ left _ => by
    obtain ⟨word, others, rfl, noDot⟩ := left.begins
    exact ⟨word, _, rfl, noDot⟩

theorem Whole.begins {words : List Lexeme} {nesting : Nesting} :
    Whole sources words nesting →
      ∃ word others, words = word :: others ∧ (sources.meaning word).kind ≠ .mark .dot
  | .chain inner => inner.begins
  | .conditional condition _ _ => by
    obtain ⟨word, others, rfl, noDot⟩ := condition.begins
    exact ⟨word, _, rfl, noDot⟩

/-- After the words the parser of some levels has something pending. -/
def Resumes (context : ParseContext) (sources : NameSources) (depth : Nat)
    (stmt : ParseM Stmt) (levels : List (List (Mark × BinaryOp))) (words : List Lexeme)
    (nesting : Nesting) (rest : List Token) : Prop :=
  ∀ tokens, Spelled sources tokens words →
    ∃ pending pos fuel, rest.length < fuel ∧ pending.Nests nesting ∧
      ((binary (exprWithin depth) stmt levels).run context).run (tokens ++ rest) =
        ((resume (exprWithin depth) stmt pos fuel pending levels).run context).run rest

theorem Resumes.takes {depth : Nat} {stmt : ParseM Stmt}
    {levels : List (List (Mark × BinaryOp))} {words : List Lexeme} {nesting : Nesting}
    {rest : List Token}
    (resumes : Resumes context sources depth stmt levels words nesting rest)
    (ends : endsBefore levels (nextLexeme rest) = true) :
    Takes context sources (binary (exprWithin depth) stmt levels) words nesting rest := by
  intro tokens spelled
  obtain ⟨pending, pos, fuel, -, nests, run⟩ := resumes tokens spelled
  exact ⟨pending.expr pos, run.trans (resume_yields ends), nests.expr pos⟩

section Atoms

variable {expr : ParseM Expr} {stmt : ParseM Stmt} {rest : List Token} {word : Lexeme}

theorem takes_var (fuel : Nat) {name : String} {builtin : Option BuiltinVariable}
    (found : sources.meaning word = .var name builtin)
    (ends : extendsOperand (nextLexeme rest) = false) :
    Takes context sources (unary expr stmt (fuel + 1)) [word] (.name name) rest := by
  intro tokens spelled
  obtain ⟨pos, rfl⟩ := spelled.single
  rw [found]
  have read : Yields context (primary expr stmt) (⟨.var name builtin, pos⟩ :: rest)
      (.var { pos, name, builtin } []) rest :=
    peek_yields.bind (advance_yields.discard.bind (.pure _))
  exact ⟨_, atom_yields fuel rfl read ends, rfl⟩

theorem takes_constant (fuel : Nat) {constant : Constant} {nesting : Nesting}
    (found : sources.meaning word = .constant constant)
    (nests : ∀ pos, (Expr.literal pos (literalOf constant)).nesting? = some nesting)
    (ends : extendsOperand (nextLexeme rest) = false) :
    Takes context sources (unary expr stmt (fuel + 1)) [word] nesting rest := by
  intro tokens spelled
  obtain ⟨pos, rfl⟩ := spelled.single
  rw [found]
  exact ⟨_, constant_yields fuel ends, nests pos⟩

end Atoms

mutual

theorem Operand.takes {words : List Lexeme} {nesting : Nesting} :
    Operand sources words nesting →
    ∀ (depth fuel : Nat) (stmt : ParseM Stmt) (rest : List Token),
      words.length ≤ depth → words.length ≤ fuel →
      extendsOperand (nextLexeme rest) = false →
      Takes context sources (unary (exprWithin depth) stmt (fuel + 1)) words nesting rest
  | .name _ found, _, fuel, _, _, _, _, ends => takes_var fuel found ends
  | .boolean _ found isBoolean, _, fuel, _, _, _, _, ends =>
    takes_constant fuel found (fun pos => by rw [isBoolean]; rfl) ends
  | .number, _, fuel, _, _, _, _, ends => takes_constant fuel rfl (fun _ => rfl) ends
  | @Operand.negative _ number, depth, fuel + 1, stmt, rest, _, _, ends => by
    intro tokens spelled
    obtain ⟨pos, digits, rfl, spelledNumber⟩ := spelled.cons
    obtain ⟨place, rfl⟩ := spelledNumber.single
    exact ⟨_, unary_yields_mark .neg (constant_yields fuel ends), rfl⟩
  | .paren inner, depth + 1, fuel, stmt, rest, deep, _, ends => by
    intro tokens spelled
    obtain ⟨pos, others, rfl, spelledOthers⟩ := spelled.cons
    obtain ⟨tokens, last, rfl, spelledInner, spelledLast⟩ := spelledOthers.append
    obtain ⟨close, rfl⟩ := spelledLast.single
    obtain ⟨value, read, nests⟩ :=
      Whole.takes inner depth (⟨.mark .parenClose, close⟩ :: rest)
      (by simp at deep; omega) rfl tokens spelledInner
    have noDot :
        (nextLexeme (tokens ++ ⟨.mark .parenClose, close⟩ :: rest)).kind ≠ .mark .dot := by
      obtain ⟨word, _, rfl, noDot⟩ := inner.begins
      obtain ⟨_, _, rfl, -⟩ := spelledInner.cons
      exact noDot
    refine ⟨value, ?_, nests⟩
    rw [List.cons_append, List.append_assoc]
    exact unary_yields_paren fuel noDot read ends
  | @Operand.unary _ op _ nesting noNumber inner, depth, fuel + 1, stmt, rest, deep,
      enough, ends => by
      intro tokens spelled
      obtain ⟨pos, others, rfl, spelledInner⟩ := spelled.cons
      obtain ⟨value, read, nests⟩ := Operand.takes inner depth fuel stmt rest
        (by simp at deep; omega) (by simpa using enough) ends others spelledInner
      refine ⟨_, unary_yields_mark op read, ?_⟩
      split
      · next same =>
          subst same
          exact negate_nesting? pos nests (noNumber rfl)
      · exact congrArg (Option.map (Nesting.unary op)) nests

theorem Chain.resumes {levels : List (List (Mark × BinaryOp))} {words : List Lexeme}
    {nesting : Nesting} :
    Chain sources levels words nesting →
    ∀ (depth : Nat) (stmt : ParseM Stmt) (rest : List Token),
      areLayered levels = true → words.length ≤ depth →
      endsBefore levels.tail (nextLexeme rest) = true →
      Resumes context sources depth stmt levels words nesting rest
  | .operand inner, depth, stmt, rest, _, deep, ends => by
    intro tokens spelled
    have sameLength := spelled.length
    obtain ⟨value, read, nests⟩ :=
      Operand.takes inner depth (tokens ++ rest).length stmt rest
      deep (by simp; omega) (extendsOperand_eq_false ends) tokens spelled
    exact ⟨.first value, 0, rest.length + 1, Nat.lt_succ_self _, nests,
      (remaining_yields.run_bind _).trans read⟩
  | .first inner, depth, stmt, rest, layered, deep, ends => by
    intro tokens spelled
    have resumes := Chain.resumes inner depth stmt rest (areLayered_tail layered) deep
      (endsBefore_tail ends)
    obtain ⟨value, read, nests⟩ := resumes.takes ends tokens spelled
    exact ⟨.first value, value.pos, rest.length + 1, Nat.lt_succ_self _, nests,
      (read.run_bind _).trans (resume_first _).symm⟩
  | .next found left right, depth, stmt, rest, layered, deep, ends => by
    intro tokens spelled
    obtain ⟨tokens, _, rfl, spelledLeft, spelledOthers⟩ := spelled.append
    obtain ⟨place, others, rfl, spelledRight⟩ := spelledOthers.cons
    rw [List.length_append, List.length_cons] at deep
    have resumes :=
      Chain.resumes right depth stmt rest (areLayered_tail layered) (by omega)
      (endsBefore_tail ends)
    obtain ⟨operand, read, nestsRight⟩ := resumes.takes ends others spelledRight
    obtain ⟨pending, pos, _ | fuel, enough, nestsLeft, run⟩ :=
      Chain.resumes left depth stmt (⟨_, place⟩ :: (others ++ rest)) layered (by omega)
        (endsBefore_of_lookup layered found) tokens spelledLeft
    · cases enough
    refine ⟨.chain _ (pending.operandsFor pos _ ++ [operand]), pos, fuel, ?_,
      nestsLeft.push pos _ nestsRight, ?_⟩
    · simp at enough
      omega
    · rw [List.append_assoc, List.cons_append]
      exact run.trans (resume_next found read)

theorem Whole.takes {words : List Lexeme} {nesting : Nesting} :
    Whole sources words nesting → ∀ (depth : Nat) (rest : List Token),
      words.length ≤ depth → endsWhole (nextLexeme rest) = true →
      Takes context sources (exprWithin (depth + 1)) words nesting rest
  | .chain inner, depth, rest, deep, ends => by
    intro tokens spelled
    have endsChain := endsBefore_of_endsWhole ends
    have resumes := Chain.resumes inner depth (terminated (stmtWithin depth)) rest
      areLayered_binaryLevels deep (endsBefore_tail endsChain)
    obtain ⟨value, read, nests⟩ := resumes.takes endsChain tokens spelled
    exact ⟨value, expression_yields_chain read ends, nests⟩
  | .conditional _ _ _, 0, _, deep, _ => by simp at deep
  | .conditional condition yes no, depth + 1, rest, deep, ends => by
    intro tokens spelled
    obtain ⟨tokens, _, rfl, spelledCondition, spelledOthers⟩ := spelled.append
    obtain ⟨question, _, rfl, spelledBranches⟩ := spelledOthers.cons
    obtain ⟨yesTokens, _, rfl, spelledYes, spelledRest⟩ := spelledBranches.append
    obtain ⟨colon, noTokens, rfl, spelledNo⟩ := spelledRest.cons
    simp only [List.length_append, List.length_cons] at deep
    have resumes :=
      Chain.resumes condition (depth + 1) (terminated (stmtWithin (depth + 1)))
      (⟨.mark .question, question⟩ ::
        (yesTokens ++ ⟨.mark .colon, colon⟩ :: (noTokens ++ rest)))
      areLayered_binaryLevels (by omega) rfl
    obtain ⟨condition, readCondition, nestsCondition⟩ :=
      resumes.takes rfl tokens spelledCondition
    obtain ⟨yes, readYes, nestsYes⟩ := Whole.takes yes depth
      (⟨.mark .colon, colon⟩ :: (noTokens ++ rest)) (by omega) rfl yesTokens spelledYes
    obtain ⟨no, readNo, nestsNo⟩ :=
      Whole.takes no depth rest (by omega) ends noTokens spelledNo
    refine ⟨.conditional condition.pos condition yes no, ?_, ?_⟩
    · simp only [List.append_assoc, List.cons_append]
      exact expression_yields_conditional readCondition readYes readNo
    · simp [Expr.nesting?, nestsCondition, nestsYes, nestsNo]

end

end GameScript.Syntax
