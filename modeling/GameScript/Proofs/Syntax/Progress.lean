import GameScript.Proofs.Syntax.Movement

/-! Parsers get on.

A parser that succeeds has taken at least one token and never an end.  This is also why
neither a loop nor the nesting runs out of its bound: both are bounded by the number of
tokens, and every round and every level takes one of them. -/

namespace GameScript.Syntax

open Builtin Bytecode
open Token (Mark Payload Lexeme)

namespace Twins

section Enumerations

variable {twins : Twins} {size : Nat}

theorem enumValue_strides (earlier : List (String × Int64)) :
    twins.Strides size (enumValue earlier) := by
  refine (eat_walks _).strides fun isNegative tokens _ => ?_
  refine (advance_settles tokens).bind fun token rest taken => ?_
  extract_lets join
  have joined (noEnd : token.lexeme ≠ .eof) (value : Int64) :
      twins.Settles (join value) rest fun _ last => Consumes 1 tokens last :=
    ⟨rfl, taken.2 noEnd⟩
  split
  case h_1 isValue => exact joined (ne_eof_of_payload isValue nofun) _
  case h_2 isNumber =>
    split
    · exact joined (ne_eof_of_payload isNumber nofun) _
    · exact ⟨rfl, ParseFault.noConfusion⟩
  case h_3 isName =>
    split
    · exact joined (ne_eof_of_payload isName nofun) _
    · exact ⟨rfl, ParseFault.noConfusion⟩
  case h_4 => exact ⟨rfl, ParseFault.noConfusion⟩

theorem enumMembers_walks (fuel : Nat) (next : Int64) (earlier : List (String × Int64)) :
    twins.Walks fuel (enumMembers fuel next earlier) := by
  induction fuel generalizing next earlier with
  | zero => exact .none _
  | succ fuel induction =>
    refine (isAt_walks _).bind fun _ => .ite (.pure _) ?_
    refine ((name_strides _).bind fun _ => (eat_walks _).bind fun _ => ?_).walks
    extract_lets join
    have joined (value : Int64) : twins.Walks fuel (join value) :=
      (eat_walks _).bind fun _ => .ite (induction _ _) (.pure _)
    exact .ite ((enumValue_strides earlier).walks.bind joined)
      (Moves.bind (.pure _) joined)

theorem enumDecl_strides : twins.Strides size enumDecl :=
  (expect_strides _ _).bind fun _ => (name_strides _).walks.bind fun _ =>
    (expect_strides _ _).discard.walks.bind fun _ => .remaining fun fuel _ =>
      (enumMembers_walks fuel _ _).bind fun _ =>
        (expect_strides _ _).discard.walks.bind fun _ => .pure _

end Enumerations

/-! Expressions.

Below, what a construct nests is known to get on with fewer than `size` tokens, and the
construct itself, which takes a token first, gets on with one more. -/

section Expressions

variable {twins : Twins} {size : Nat} {expr : ParseM Expr} {stmt : ParseM Stmt}

variable {fuel : Nat}

theorem listItems_strides (close : Mark) (exprStrides : twins.Strides fuel expr) :
    twins.Strides fuel (listItems expr close fuel) := by
  induction fuel with
  | zero => exact .none _
  | succ fuel induction =>
    have others := (induction (exprStrides.mono (Nat.le_succ fuel))).walks
    exact exprStrides.bind fun _ => (eat_walks _).bind fun _ =>
      .ite ((eat_walks _).bind fun _ => .ite (.pure _) (others.bind fun _ => .pure _))
        ((expect_strides _ _).discard.walks.bind fun _ => .pure _)

theorem list_strides (close : Mark) (exprStrides : twins.Strides size expr) :
    twins.Strides size (list expr close) :=
  eat_moves_bind (Nat.le_refl 1) (Moves.pure _) (Moves.remaining fun _ le =>
    listItems_strides close (exprStrides.mono le))

theorem call_strides (exprStrides : twins.Strides size expr) :
    twins.Strides (size + 1) (call expr) := by
  intro tokens short
  refine (advance_settles tokens).bind fun token rest taken => ?_
  split
  case h_1 name builtin isFunction =>
    have takes : Consumes 1 tokens rest := taken.2 (ne_eof_of_payload isFunction nofun)
    have others : twins.Walks size (do
        discard <| expect .parenOpen "`(`"
        let args ← list expr .parenClose
        return ((⟨token.pos, name, builtin⟩ : Callee), args)) :=
      (expect_strides _ _).discard.walks.bind fun _ =>
        (list_strides _ exprStrides).walks.bind fun _ => .pure _
    refine (others rest
      (Nat.lt_of_lt_of_le takes.length_lt (Nat.le_of_lt_succ short))).mono ?_
    exact fun _ _ later => takes.trans later
  case h_2 => exact ⟨rfl, ParseFault.noConfusion⟩

theorem blockStmts_strides (stmtStrides : twins.Strides fuel stmt) :
    twins.Strides fuel (blockStmts stmt fuel) := by
  induction fuel with
  | zero => exact .none _
  | succ fuel induction =>
    have others := (induction (stmtStrides.mono (Nat.le_succ fuel))).walks
    have first : twins.Strides (fuel + 1) (do
        let first ← stmt
        return first :: (← blockStmts stmt fuel)) :=
      stmtStrides.bind fun _ => others.bind fun _ => .pure _
    exact eat_moves_bind (Nat.le_refl 1) (Moves.pure _) (peekLexeme_walks.strides fun _ =>
      .ite ((unexpected_strides _).walks.strides fun _ => first) first)

theorem block_strides (stmtStrides : twins.Strides size stmt) :
    twins.Strides (size + 1) (block stmt) :=
  (expect_strides _ _).bind fun _ => .remaining fun _ le =>
    (blockStmts_strides (stmtStrides.mono le)).walks.bind fun _ => .pure _

theorem bindings_strides (what : String) (exprStrides : twins.Strides fuel expr) :
    twins.Strides fuel (bindings expr what fuel) := by
  induction fuel with
  | zero => exact .none _
  | succ fuel induction =>
    have fewer := exprStrides.mono (Nat.le_succ fuel)
    refine (name_strides _).bind fun _ => (eat_walks _).bind fun _ => ?_
    extract_lets join
    have joined (value : Option Expr) : twins.Walks fuel (join value) :=
      (eat_walks _).bind fun _ =>
        .ite ((induction fewer).walks.bind fun _ => .pure _) (.pure _)
    exact .ite (fewer.walks.map.bind joined) (Moves.bind (.pure _) joined)

theorem functionDecl_strides (exprStrides : twins.Strides size expr)
    (stmtStrides : twins.Strides size stmt) (isNamed : Bool) :
    twins.Strides (size + 1) (functionDecl expr stmt isNamed) := by
  refine (expect_strides _ _).bind fun _ => ?_
  have calls := ((call_strides exprStrides).mono (Nat.le_succ size)).walks
  have blocks := ((block_strides stmtStrides).mono (Nat.le_succ size)).walks
  extract_lets named
  have namedWalks (name : Option String) : twins.Walks size (named name) := by
    refine (expect_strides _ _).discard.walks.bind fun _ => (isAt_walks _).bind fun _ => ?_
    extract_lets bound
    have boundWalks (params : List (Binding Expr)) : twins.Walks size (bound params) := by
      refine (expect_strides _ _).discard.walks.bind fun _ =>
        (eat_walks _).bind fun _ => ?_
      extract_lets parented
      have parentedWalks (parent : Option (Callee × List Expr)) :
          twins.Walks size (parented parent) :=
        (eat_walks _).bind fun _ => blocks.bind fun _ => .pure _
      refine .ite (isAtFunction_walks.bind fun _ => .ite ?_ ?_)
        (Moves.bind (.pure _) parentedWalks)
      · exact calls.map.bind parentedWalks
      · exact (unexpected_strides _).walks.bind parentedWalks
    exact .ite (Moves.bind (.pure _) boundWalks) (.remaining fun _ le =>
      (bindings_strides _ (exprStrides.mono le)).walks.bind fun params =>
        (boundWalks params).mono le)
  exact .ite ((name_strides _).walks.map.bind namedWalks) (Moves.bind (.pure _) namedWalks)

theorem structFields_walks (exprStrides : twins.Strides fuel expr) :
    twins.Walks fuel (structFields expr fuel) := by
  induction fuel with
  | zero => exact .none _
  | succ fuel induction =>
    have fewer := exprStrides.mono (Nat.le_succ fuel)
    refine (isAt_walks _).bind fun _ => .ite (.pure _) ?_
    intro tokens short
    refine settles_peekLexeme ?_
    extract_lets keyed
    have keyedWalks (key : String) : twins.Walks fuel (keyed key) :=
      (expect_strides _ _).discard.walks.bind fun _ => fewer.walks.bind fun _ =>
        (eat_walks _).bind fun _ =>
          .ite ((induction fewer).bind fun _ => .pure _) (.pure _)
    split
    case h_1 isText =>
      exact settles_advance_walks (by simp [isText]) short
        (Moves.bind (.pure _) keyedWalks)
    case h_2 => exact ((unexpected_strides _).bind keyedWalks).walks tokens short
    case h_3 =>
      exact ((name_strides _).bind fun _ => Moves.bind (.pure _) keyedWalks).walks
        tokens short

theorem structLiteral_strides (exprStrides : twins.Strides size expr) :
    twins.Strides (size + 1) (structLiteral expr) :=
  (expect_strides _ _).bind fun _ => .remaining fun _ le =>
    (structFields_walks (exprStrides.mono le)).bind fun _ =>
      (expect_strides _ _).discard.walks.bind fun _ => .pure _

theorem primary_strides (exprStrides : twins.Strides size expr)
    (stmtStrides : twins.Strides size stmt) :
    twins.Strides (size + 1) (primary expr stmt) := by
  have calls := call_strides exprStrides
  intro tokens short
  refine settles_peek ?_
  cases seen : twins.sees tokens with
  | mk lexeme pos =>
    dsimp only
    split
    · refine settles_advance (by simp [seen]) short ?_
      split
      · exact .pure _
      · exact .failAt ParseFault.noConfusion
    · refine settles_advance (by simp [seen]) short ?_
      split
      · exact .pure _
      · exact .pure _
      · exact .failAt ParseFault.noConfusion
    · refine settles_advance (by simp [seen]) short ?_
      split
      · exact .pure _
      · exact .pure _
      · exact .failAt ParseFault.noConfusion
    · exact (calls.bind fun _ => .pure _) tokens short
    · exact settles_advance (by simp [seen]) short (exprStrides.walks.bind fun _ =>
        (expect_strides _ _).discard.walks.bind fun _ => .pure _)
    · exact settles_advance (by simp [seen]) short
        ((list_strides _ exprStrides).walks.bind fun _ => .pure _)
    · exact structLiteral_strides exprStrides tokens short
    · exact ((functionDecl_strides exprStrides stmtStrides _).bind fun _ =>
        .pure _) tokens short
    · exact settles_advance (by simp [seen]) short (isAtFunction_walks.bind fun _ =>
        .ite ((calls.mono (Nat.le_succ size)).walks.bind fun _ => .pure _)
          (unexpected_strides _).walks)
    · exact unexpected_strides _ tokens short

theorem memberVariable_strides (owner : Option Instance) :
    twins.Strides size (memberVariable owner) :=
  (name_strides _).bind fun _ => Moves.read rfl (.pure _)

theorem qualified_settles (tokens : List Token) :
    twins.Settles qualified tokens fun found rest =>
      if found.isSome then Consumes 1 tokens rest else rest = tokens := by
  refine settles_peekAt (settles_peekAt ?_)
  split
  case isTrue => exact ⟨rfl, rfl⟩
  case isFalse isDotted =>
    refine settles_peekLexeme ?_
    split
    case h_1 => exact ⟨rfl, rfl⟩
    case h_2 owner isOwner =>
      rcases tokens with _ | ⟨first, _ | ⟨dot, rest⟩⟩
      · cases isOwner
      · exact absurd rfl isDotted
      · have noEnd : first.lexeme ≠ .eof := ne_eof_of_eq_some rfl isOwner
        have isDot : dot.isMark .dot = true := by
          simpa using (Bool.or_eq_false_iff.mp (Bool.eq_false_iff.mpr isDotted)).1
        have taken : Consumes 1 (first :: dot :: rest) rest :=
          (Consumes.single noEnd _).trans
            (Consumes.single (ne_eof_of_isMark isDot) rest).zero
        change twins.Settles
          (memberVariable (some owner) >>= fun v => pure (some (Expr.var v []))) rest _
        refine ((memberVariable_strides _) rest (Nat.lt_succ_self _)).bind
          fun _ _ moved => ?_
        exact ⟨rfl, taken.trans moved.zero⟩

theorem member_strides (exprStrides : twins.Strides size expr) (left : Expr) :
    twins.Strides (size + 1) (member expr left) := by
  have named :
      enumerationOf? twins.other.enums left = enumerationOf? twins.context.enums left := by
    unfold enumerationOf?
    split
    · rw [twins.knows]
      rfl
    · rfl
  refine .read (by dsimp only; rw [named]) ?_
  split
  · refine (name_strides _).bind fun _ => ?_
    dsimp only
    split
    · exact .pure _
    · exact (Moves.failAt ParseFault.noConfusion)
  · exact isAtFunction_walks.strides fun _ =>
      .ite ((call_strides exprStrides).bind fun _ => .pure _)
        ((memberVariable_strides _).bind fun _ => .pure _)

theorem index_walks (target : Expr) (indices : List Expr) :
    twins.Walks size (index target indices) := by
  cases target with
  | var => exact .pure _
  | member => exact .pure _
  | _ => exact (Moves.failAt ParseFault.noConfusion)

theorem accesses_walks (exprStrides : twins.Strides fuel expr) (target : Expr) :
    twins.Walks fuel (accesses expr fuel target) := by
  induction fuel generalizing target with
  | zero => exact .none _
  | succ fuel induction =>
    have fewer := exprStrides.mono (Nat.le_succ fuel)
    have indexed (indices : List Expr) : twins.Walks fuel (do
        accesses expr fuel (← index target indices)) :=
      (index_walks target indices).bind fun _ => induction fewer _
    refine eat_moves_bind (Nat.zero_le 1) ?_ ?_
    · exact ((member_strides fewer target).mono (Nat.le_succ fuel)).walks.bind fun _ =>
        induction fewer _
    intro tokens short
    refine settles_isAt (settles_isAt ?_)
    split
    case isTrue isOpen =>
      have noEnd : (twins.sees tokens).lexeme ≠ .eof :=
        (Bool.or_eq_true_iff.mp isOpen).elim ne_eof_of_isMark ne_eof_of_isMark
      refine settles_advance_walks noEnd short ?_
      refine (list_strides _ fewer).walks.bind fun indices => .ite ?_ (indexed indices)
      exact (Moves.failAt ParseFault.noConfusion).bind fun _ => indexed indices
    case isFalse =>
      refine settles_peekLexeme ?_
      split
      case h_1 accessor isAccessor =>
        refine settles_advance_walks (ne_eof_of_eq_some rfl isAccessor) short ?_
        exact (list_strides _ fewer).walks.bind fun _ => Moves.read rfl (induction fewer _)
      case h_2 => exact ⟨rfl, .refl tokens⟩

theorem access_strides (exprStrides : twins.Strides size expr)
    (stmtStrides : twins.Strides size stmt) :
    twins.Strides (size + 1) (access expr stmt) := by
  intro tokens short
  refine (qualified_settles tokens).bind fun found rest moved => ?_
  extract_lets join
  have joined (first : Expr) : twins.Walks size (join first) :=
    .remaining fun _ le => accesses_walks (exprStrides.mono le) first
  split
  case h_1 v =>
    have taken : Consumes 1 tokens rest := moved
    refine (joined v rest
      (Nat.lt_of_lt_of_le taken.length_lt (Nat.le_of_lt_succ short))).mono ?_
    exact fun _ _ later => taken.trans later
  case h_2 =>
    obtain rfl : rest = tokens := moved
    exact ((primary_strides exprStrides stmtStrides).bind joined) rest short

theorem postfixed_strides (exprStrides : twins.Strides size expr)
    (stmtStrides : twins.Strides size stmt) :
    twins.Strides (size + 1) (postfixed expr stmt) := by
  refine (access_strides exprStrides stmtStrides).bind fun value tokens short => ?_
  refine settles_peekLexeme ?_
  split
  case h_1 increment isStep =>
    split
    · exact settles_advance_walks (ne_eof_of_eq_some rfl isStep)
        (Nat.lt_succ_of_lt short) (.pure _)
    · exact ⟨rfl, .refl tokens⟩
  case h_2 => exact ⟨rfl, .refl tokens⟩

theorem unary_strides (exprStrides : twins.Strides size expr)
    (stmtStrides : twins.Strides size stmt) (le : fuel ≤ size + 1) :
    twins.Strides fuel (unary expr stmt fuel) := by
  induction fuel with
  | zero => exact .none _
  | succ fuel induction =>
    have operand := (induction (Nat.le_of_succ_le le)).walks
    intro tokens short
    refine settles_peek ?_
    cases seen : twins.sees tokens with
    | mk lexeme pos =>
      dsimp only
      split
      · exact settles_advance (by simp [seen]) short (operand.bind fun _ => .pure _)
      · exact settles_advance (by simp [seen]) short (operand.bind fun _ => .pure _)
      · exact settles_advance (by simp [seen]) short (operand.bind fun _ => .pure _)
      · exact settles_advance (by simp [seen]) short operand
      · split
        case h_1 isStep =>
          have accessed :=
            (access_strides exprStrides stmtStrides).mono (Nat.le_of_succ_le le)
          exact settles_advance (by rw [seen]; exact ne_eof_of_eq_some rfl isStep) short
            (accessed.walks.bind fun _ => .pure _)
        case h_2 =>
          exact (postfixed_strides exprStrides stmtStrides).mono le tokens short

/-- Each round of a chain starts at an operator. -/
theorem operandChain_settles {operand : ParseM Expr} {ops : List (Mark × BinaryOp)}
    {pos : Position} (operandStrides : twins.Strides fuel operand) (op : BinaryOp)
    (operands : List Expr) {tokens : List Token} (short : tokens.length < fuel)
    (noEnd : (twins.sees tokens).lexeme ≠ .eof) :
    twins.Settles (operandChain operand ops pos fuel op operands) tokens fun _ rest =>
      Consumes 1 tokens rest := by
  induction fuel generalizing op operands tokens with
  | zero => exact absurd short (Nat.not_lt_zero _)
  | succ fuel induction =>
    have fewer := operandStrides.mono (Nat.le_succ fuel)
    refine settles_advance noEnd short ?_
    refine fewer.walks.bind fun value tokens short => ?_
    refine (operatorOf_settles ops tokens).bind fun found rest seen => ?_
    obtain ⟨rfl, noEnd⟩ := seen
    split
    case h_1 => exact ⟨rfl, .refl rest⟩
    case h_2 next =>
      have others (op : BinaryOp) (operands : List Expr) :=
        (induction fewer op operands short (noEnd (by simp))).mono
          fun _ _ moved => moved.zero
      split
      · exact others _ _
      · exact others _ _

theorem binary_strides (exprStrides : twins.Strides size expr)
    (stmtStrides : twins.Strides size stmt) (levels : List (List (Mark × BinaryOp))) :
    twins.Strides (size + 1) (binary expr stmt levels) := by
  induction levels with
  | nil => exact .remaining fun _ le => unary_strides exprStrides stmtStrides le
  | cons ops tighter induction =>
    refine induction.bind fun first tokens short => ?_
    refine (operatorOf_settles ops tokens).bind fun found rest seen => ?_
    obtain ⟨rfl, noEnd⟩ := seen
    split
    case h_1 => exact ⟨rfl, .refl rest⟩
    case h_2 op =>
      have tighterStrides := induction.mono (Nat.succ_le_succ (Nat.le_of_lt short))
      exact (operandChain_settles tighterStrides op [first] (Nat.lt_succ_self _)
        (noEnd (by simp))).mono fun _ _ moved => moved.zero

theorem coalesceChain_walks (exprStrides : twins.Strides size expr)
    (stmtStrides : twins.Strides size stmt) (le : fuel ≤ size + 1) (left : Expr) :
    twins.Walks fuel (coalesceChain expr stmt fuel left) := by
  induction fuel generalizing left with
  | zero => exact .none _
  | succ fuel induction =>
    have operand :=
      (binary_strides exprStrides stmtStrides binaryLevels).mono (Nat.le_of_succ_le le)
    exact eat_moves_bind (Nat.zero_le 1)
      (operand.walks.bind fun _ => induction (Nat.le_of_succ_le le) _) (Moves.pure _)

theorem expression_strides (exprStrides : twins.Strides size expr)
    (stmtStrides : twins.Strides size stmt) :
    twins.Strides (size + 1) (expression expr stmt) := by
  refine (binary_strides exprStrides stmtStrides binaryLevels).bind fun _ =>
    .remaining fun _ le => ?_
  have chain := coalesceChain_walks exprStrides stmtStrides (Nat.le_succ_of_le le)
  have branch := (exprStrides.mono le).walks
  refine (chain _).bind fun _ => (eat_walks _).bind fun _ => .ite ?_ (.pure _)
  exact branch.bind fun _ => (expect_strides _ _).discard.walks.bind fun _ =>
    branch.bind fun _ => .pure _

end Expressions

section Statements

variable {twins : Twins} {size : Nat} {expr : ParseM Expr} {bare : ParseM Stmt}

theorem terminated_strides (bareStrides : twins.Strides size bare) :
    twins.Strides size (terminated bare) :=
  bareStrides.bind fun _ => (eat_walks _).discard.bind fun _ => .pure _

theorem stepStmt_walks (pos : Position) (before increment : Bool) (target : Expr) :
    twins.Walks size (stepStmt pos before increment target) := by
  refine .read rfl ?_
  split
  · exact .pure _
  · exact .ite (.pure _) (Moves.failAt ParseFault.noConfusion)

theorem globalNames_strides (fuel : Nat) : twins.Strides fuel (globalNames fuel) := by
  induction fuel with
  | zero => exact .none _
  | succ fuel induction =>
    exact (name_strides _).bind fun _ => (eat_walks _).bind fun _ =>
      .ite (induction.walks.bind fun _ => .pure _) (.pure _)

theorem armStmts_walks {fuel : Nat} (bareStrides : twins.Strides fuel bare) :
    twins.Walks fuel (armStmts bare fuel) := by
  induction fuel with
  | zero => exact .none _
  | succ fuel induction =>
    have others := induction (bareStrides.mono (Nat.le_succ fuel))
    refine peekLexeme_walks.bind fun lexeme => ?_
    split
    · exact .pure _
    · exact .pure _
    · exact .pure _
    · exact (unexpected_strides _).walks
    · exact ((terminated_strides bareStrides).bind fun _ =>
        others.bind fun _ => .pure _).walks

theorem tryBlock_settles (bareStrides : twins.Strides size bare) {tokens : List Token}
    (short : tokens.length < size + 1) (noEnd : (twins.sees tokens).lexeme ≠ .eof)
    (pos : Position) :
    twins.Settles (tryBlock bare pos) tokens fun _ rest => Consumes 1 tokens rest := by
  have blocks :=
    ((block_strides (terminated_strides bareStrides)).mono (Nat.le_succ size)).walks
  refine settles_advance noEnd short (blocks.bind fun _ => (eat_walks _).bind fun _ => ?_)
  extract_lets handled
  have handledWalks (handler : Option (String × Block Stmt)) :
      twins.Walks size (handled handler) := by
    refine (eat_walks _).bind fun _ => ?_
    extract_lets cleaned
    have cleanedWalks (cleanup : Option (Block Stmt)) :
        twins.Walks size (cleaned cleanup) := .pure _
    exact .ite (blocks.map.bind cleanedWalks) (Moves.bind (.pure _) cleanedWalks)
  exact .ite ((expect_strides _ _).discard.walks.bind fun _ =>
    (name_strides _).walks.bind fun _ =>
    (expect_strides _ _).discard.walks.bind fun _ => blocks.bind fun _ =>
      Moves.bind (.pure _) handledWalks) (Moves.bind (.pure _) handledWalks)

theorem forLoop_settles (exprStrides : twins.Strides size expr)
    (bareStrides : twins.Strides size bare) {tokens : List Token}
    (short : tokens.length < size + 1) (noEnd : (twins.sees tokens).lexeme ≠ .eof)
    (pos : Position) :
    twins.Settles (forLoop expr bare pos) tokens fun _ rest => Consumes 1 tokens rest := by
  refine settles_advance noEnd short ((expect_strides _ _).discard.walks.bind fun _ =>
    (isAt_walks _).bind fun _ => ?_)
  extract_lets started
  have startedWalks (init : Option Stmt) : twins.Walks size (started init) := by
    refine (expect_strides _ _).discard.walks.bind fun _ => (isAt_walks _).bind fun _ => ?_
    extract_lets tested
    have testedWalks (condition : Option Expr) : twins.Walks size (tested condition) := by
      refine (expect_strides _ _).discard.walks.bind fun _ =>
        (isAt_walks _).bind fun _ => ?_
      extract_lets stepped
      have steppedWalks (step : Option Stmt) : twins.Walks size (stepped step) :=
        (expect_strides _ _).discard.walks.bind fun _ =>
          (terminated_strides bareStrides).walks.bind fun _ => .pure _
      exact .ite (Moves.bind (.pure _) steppedWalks)
        (bareStrides.walks.map.bind steppedWalks)
    exact .ite (Moves.bind (.pure _) testedWalks) (exprStrides.walks.map.bind testedWalks)
  exact .ite (Moves.bind (.pure _) startedWalks) (bareStrides.walks.map.bind startedWalks)

theorem switchArms_strides {fuel : Nat} (exprStrides : twins.Strides fuel expr)
    (bareStrides : twins.Strides fuel bare) :
    twins.Strides fuel (switchArms expr bare fuel) := by
  induction fuel with
  | zero => exact .none _
  | succ fuel induction =>
    have fewerExprs := exprStrides.mono (Nat.le_succ fuel)
    have fewerStmts := bareStrides.mono (Nat.le_succ fuel)
    have others := (induction fewerExprs fewerStmts).walks
    have arm (pos : Position) (hasLabel : Prop) [Decidable hasLabel] : twins.Walks fuel (do
        let label ← if hasLabel then some <$> expr else pure none
        discard <| expect .colon "`:`"
        let body ← armStmts bare (← remaining)
        return .mk pos label body :: (← switchArms expr bare fuel)) := by
      extract_lets labelled
      have labelledWalks (label : Option Expr) : twins.Walks fuel (labelled label) :=
        (expect_strides _ _).discard.walks.bind fun _ => .remaining fun _ le =>
          (armStmts_walks (fewerStmts.mono le)).bind fun _ =>
            (others.mono le).bind fun _ => .pure _
      exact .ite (fewerExprs.walks.map.bind labelledWalks)
        (Moves.bind (.pure _) labelledWalks)
    intro tokens short
    refine settles_peek ?_
    cases seen : twins.sees tokens with
    | mk lexeme pos =>
      dsimp only
      split
      · exact settles_advance (by simp [seen]) short (.pure _)
      · exact settles_advance (by simp [seen]) short (arm pos _)
      · exact settles_advance (by simp [seen]) short (arm pos _)
      · exact unexpected_strides _ tokens short

theorem switch_settles (exprStrides : twins.Strides size expr)
    (bareStrides : twins.Strides size bare) {tokens : List Token}
    (short : tokens.length < size + 1) (noEnd : (twins.sees tokens).lexeme ≠ .eof)
    (pos : Position) :
    twins.Settles (switch expr bare pos) tokens fun _ rest => Consumes 1 tokens rest :=
  settles_advance noEnd short (exprStrides.walks.bind fun _ =>
    (expect_strides _ _).discard.walks.bind fun _ => .remaining fun _ le =>
      (switchArms_strides (exprStrides.mono le) (bareStrides.mono le)).walks.bind
        fun _ => .pure _)

theorem simpleStmt_strides (exprStrides : twins.Strides size expr)
    (bareStrides : twins.Strides size bare) :
    twins.Strides (size + 1) (simpleStmt expr bare) := by
  refine (peekAt_walks 0).map.strides fun _ => ?_
  refine (access_strides exprStrides (terminated_strides bareStrides)).bind
    fun target tokens short => ?_
  have shorter : tokens.length < size + 1 := Nat.lt_succ_of_lt short
  refine settles_peekLexeme ?_
  split
  case h_1 isAssign =>
    exact settles_advance_walks (ne_eof_of_eq_some rfl isAssign) shorter
      (exprStrides.walks.bind fun _ => Moves.read rfl (.pure _))
  case h_2 =>
    refine settles_peekLexeme ?_
    split
    case h_1 isStep =>
      exact settles_advance_walks (ne_eof_of_eq_some rfl isStep) shorter
        (stepStmt_walks _ _ _ _)
    case h_2 => exact ⟨rfl, .refl tokens⟩

theorem statement_strides (exprStrides : twins.Strides size expr)
    (bareStrides : twins.Strides size bare) :
    twins.Strides (size + 1) (statement expr bare) := by
  have stmtStrides := terminated_strides bareStrides
  have exprs := exprStrides.walks
  have stmts := stmtStrides.walks
  have simple := simpleStmt_strides exprStrides bareStrides
  have bound (what : String) (finish : List (Binding Expr) → Stmt) : twins.Walks size (do
      return finish (← bindings expr what (← remaining))) :=
    .remaining fun _ le => (bindings_strides what (exprStrides.mono le)).walks.bind
      fun _ => .pure _
  intro tokens short
  refine settles_peek ?_
  cases seen : twins.sees tokens with
  | mk lexeme pos =>
    dsimp only
    split
    · exact ((block_strides stmtStrides).bind fun _ => .pure _) tokens short
    · exact settles_advance (by simp [seen]) short (.pure _)
    · exact settles_advance (by simp [seen]) short (bound _ _)
    · refine settles_peekAt ?_
      split
      · exact simple tokens short
      · exact settles_advance (by simp [seen]) short (bound _ _)
    · exact settles_advance (by simp [seen]) short (.remaining fun fuel _ =>
        (globalNames_strides fuel).walks.bind fun _ => .pure _)
    · exact settles_advance (by simp [seen]) short (exprs.bind fun _ =>
        (eat_walks _).discard.bind fun _ => stmts.bind fun _ => (eat_walks _).bind fun _ =>
          .ite (stmts.map.bind fun _ => .pure _) (.pure _))
    · exact settles_advance (by simp [seen]) short (exprs.bind fun _ =>
        (eat_walks _).discard.bind fun _ => stmts.bind fun _ => .pure _)
    · exact forLoop_settles exprStrides bareStrides short (by simp [seen]) pos
    · exact settles_advance (by simp [seen]) short (stmts.bind fun _ =>
        (expect_strides _ _).discard.walks.bind fun _ => exprs.bind fun _ => .pure _)
    · exact settles_advance (by simp [seen]) short
        (exprs.bind fun _ => stmts.bind fun _ => .pure _)
    · exact settles_advance (by simp [seen]) short (exprs.bind fun _ =>
        (eat_walks _).discard.bind fun _ => stmts.bind fun _ => .pure _)
    · exact switch_settles exprStrides bareStrides short (by simp [seen]) pos
    · exact settles_advance (by simp [seen]) short (.pure _)
    · exact settles_advance (by simp [seen]) short (.pure _)
    · exact settles_advance (by simp [seen]) short (.pure _)
    · refine settles_advance (by simp [seen]) short (peekLexeme_walks.bind fun _ => ?_)
      split
      · exact .pure _
      · exact .pure _
      · exact .pure _
      · exact exprs.bind fun _ => .pure _
    · exact settles_advance (by simp [seen]) short (exprs.bind fun _ => .pure _)
    · exact tryBlock_settles bareStrides short (by simp [seen]) pos
    · refine settles_peekAt ?_
      split
      · exact simple tokens short
      · exact ((functionDecl_strides exprStrides stmtStrides _).bind fun _ =>
          .pure _) tokens short
    · exact (enumDecl_strides.bind fun _ => .pure _) tokens short
    · exact settles_advance (by simp [seen]) short (exprs.bind fun _ => .pure _)
    · split
      case h_1 isStep =>
        have accessed := (access_strides exprStrides stmtStrides).mono (Nat.le_succ size)
        exact settles_advance (by rw [seen]; exact ne_eof_of_eq_some rfl isStep) short
          (accessed.walks.bind fun _ => stepStmt_walks _ _ _ _)
      case h_2 => exact simple tokens short

end Statements

mutual

theorem exprWithin_strides (twins : Twins) (depth : Nat) :
    twins.Strides depth (exprWithin depth) := by
  cases depth with
  | zero => exact .none _
  | succ depth =>
    exact expression_strides (exprWithin_strides twins depth)
      (terminated_strides (stmtWithin_strides twins depth))

theorem stmtWithin_strides (twins : Twins) (depth : Nat) :
    twins.Strides depth (stmtWithin depth) := by
  cases depth with
  | zero => exact .none _
  | succ depth =>
    exact statement_strides (exprWithin_strides twins depth)
      (stmtWithin_strides twins depth)

end

section Texts

variable (twins : Twins) {tokens : List Token}

theorem head_kind {twins : Twins} (isEnd : (twins.sees tokens).lexeme.kind = .eof) :
    ∀ token ∈ tokens.head?, token.lexeme.kind = .eof := by
  cases tokens with
  | nil => simp
  | cons token rest => simpa [sees] using isEnd

theorem program_settles {depth fuel : Nat} (short : tokens.length < fuel)
    (shallow : tokens.length < depth) :
    twins.Settles (program depth fuel) tokens fun _ rest =>
      Consumes 0 tokens rest ∧ ∀ token ∈ rest.head?, token.lexeme.kind = .eof := by
  induction fuel generalizing tokens with
  | zero => exact absurd short (Nat.not_lt_zero _)
  | succ fuel induction =>
    refine settles_peekLexeme ?_
    split
    case isTrue isEnd => exact ⟨rfl, .refl tokens, head_kind isEnd⟩
    case isFalse =>
      have first := terminated_strides (stmtWithin_strides twins depth) tokens shallow
      refine first.bind fun _ rest moved => ?_
      have fewer : rest.length < fuel :=
        Nat.lt_of_lt_of_le moved.length_lt (Nat.le_of_lt_succ short)
      refine (induction fewer (Nat.lt_trans moved.length_lt shallow)).bind
        fun _ last ended => ?_
      exact ⟨rfl, moved.zero.trans ended.1, ended.2⟩

end Texts

end Twins

/-- The context in which all of some tokens are parsed. -/
def ParseContext.start (registry : Registry) (enums : EnumTable) (tokens : List Token) :
    ParseContext :=
  ⟨registry, enums, (tokens.getLast?.map Token.pos).getD 0⟩

theorem parseProgram_uniform {enums enums' : EnumTable}
    (same : ∀ name, enums.get? name = enums'.get? name) (registry : Registry)
    (tokens : List Token) :
    parseProgram registry enums tokens = parseProgram registry enums' tokens := by
  have short : tokens.length < tokens.length + 1 := Nat.lt_succ_self _
  have settles :=
    Twins.program_settles ⟨.start registry enums tokens, enums', same⟩ short short
  exact congrArg (Except.map (·.1)) settles.1.symm

end GameScript.Syntax
