import GameScript.Proofs.Operators.Agreement
import GameScript.Proofs.Token.Numerals

/-! Integer literals are pushed exactly, with as few bits as hold them. -/

namespace GameScript.Token

open Number Syntax

theorem Scalar.Holds.negate {scalar : Scalar} {value : Int} (holds : scalar.Holds value)
    (pos place : Position) :
    Syntax.negate pos (.literal place (literalOf { value := scalar })) =
      .literal pos (literalOf { value := scalar.negated }) := by
  cases scalar with
  | string => exact holds.elim
  | _ => rfl

theorem IntegerLiteral.isSignedWord {text : List Char} {value : Int}
    (literal : IntegerLiteral text value) : isSignedWord 64 value = true := by
  have half : wordCount 63 = 9223372036854775808 := rfl
  have bound : wordCount (64 - 1) = wordCount 63 := rfl
  have whole : wordCount 64 = 18446744073709551616 := rfl
  have pattern (n : Nat) : Number.isSignedWord 64 (Int.bmod n (wordCount 64)) = true := by
    have least : -((wordCount 64 : Int) / 2) ≤ Int.bmod n (wordCount 64) :=
      Int.le_bmod (by decide)
    have most : Int.bmod n (wordCount 64) < ((wordCount 64 : Int) + 1) / 2 :=
      Int.bmod_lt (by decide)
    simp only [Number.isSignedWord, Bool.and_eq_true, decide_eq_true_eq]
    omega
  cases literal with
  | decimal numeral fits =>
    simp only [Number.isSignedWord, Bool.and_eq_true, decide_eq_true_eq]
    omega
  | negated numeral positive fits =>
    simp only [Number.isSignedWord, Bool.and_eq_true, decide_eq_true_eq]
    omega
  | hexadecimal => exact pattern _
  | colour => exact pattern _

end GameScript.Token

namespace GameScript.Syntax

open Number Token

variable {sources : NameSources} {enums : EnumTable} {text : String} {scalar : Scalar}
  {tokens : List Token} {last : Position}

theorem readExpression?_constant
    (spelled : tokens.map (·.lexeme) = [.constant { value := scalar }])
    (scanned : scan sources.target sources.macros text =
      ⟨tokens ++ [⟨.eof, last⟩], [], sources.macros⟩) :
    ∃ expr, readExpression? sources enums text = some expr ∧
      ∃ pos, expr = .literal pos (literalOf { value := scalar }) := by
  refine readExpression?_of_scan spelled scanned (by simp [NameSources.ArePlain])
    fun tokens rest spelled ends => ?_
  obtain ⟨pos, rfl⟩ := spelled.single
  refine ⟨_, parseExpression_of_yields ends (expression_yields_chain
    (binary_yields_operand (constant_yields _ ?_) ?_) ?_), pos, rfl⟩ <;>
      simp [ends] <;> rfl

theorem readExpression?_negated {value : Int} (holds : scalar.Holds value)
    (spelled : tokens.map (·.lexeme) = [.mark .minus, .constant { value := scalar }])
    (scanned : scan sources.target sources.macros text =
      ⟨tokens ++ [⟨.eof, last⟩], [], sources.macros⟩) :
    ∃ expr, readExpression? sources enums text = some expr ∧
      ∃ pos, expr = .literal pos (literalOf { value := scalar.negated }) := by
  refine readExpression?_of_scan spelled scanned (by simp [NameSources.ArePlain])
    fun tokens rest spelled ends => ?_
  obtain ⟨pos, digits, rfl, spelledDigits⟩ := spelled.cons
  obtain ⟨place, rfl⟩ := spelledDigits.single
  refine ⟨_, parseExpression_of_yields ends (expression_yields_chain
    (binary_yields_operand (unary_yields_mark .neg (constant_yields _ ?_)) ?_) ?_), pos,
    holds.negate pos place⟩ <;> simp [ends] <;> rfl

theorem readExpression?_integer {value : Int}
    (literal : IntegerLiteral text.toList value) :
    ∃ expr, readExpression? sources enums text = some expr ∧
      ∃ pos scalar, expr = .literal pos (literalOf { value := scalar }) ∧
      scalar.Holds value := by
  generalize spelled : text.toList = chars at literal
  have constant {scalar : Scalar} (holds : scalar.Holds value)
      (spells : Spells sources.target text.toList [.constant { value := scalar }]) :
      ∃ expr, readExpression? sources enums text = some expr ∧
        ∃ pos scalar, expr = .literal pos (literalOf { value := scalar }) ∧
        scalar.Holds value := by
    obtain ⟨tokens, last, spelled, scanned⟩ := spells.scan sources.macros
    obtain ⟨expr, read, pos, rfl⟩ := readExpression?_constant spelled scanned
    exact ⟨_, read, pos, scalar, rfl, holds⟩
  cases literal with
  | decimal numeral fits =>
    obtain ⟨scalar, read, holds, -⟩ := decimalScalar?_eq numeral (Nat.le_of_lt fits)
    refine constant holds ?_
    rw [spelled]
    exact .decimal numeral.ne_nil numeral.areDigits read
  | negated numeral positive fits =>
    obtain ⟨scalar, scalarRead, holds, opposite⟩ := decimalScalar?_eq numeral fits
    have spells : Spells sources.target text.toList
        [.mark .minus, .constant { value := scalar }] := by
      obtain ⟨c, rest, rfl⟩ := List.exists_cons_of_ne_nil numeral.ne_nil
      have isPart : isNamePart c = true := by simp [isNamePart, numeral.areDigits c]
      rw [spelled]
      exact (Spells.decimal numeral.ne_nil numeral.areDigits scalarRead).unary
        .neg (.inl isPart)
    obtain ⟨tokens, last, spelled, scanned⟩ := spells.scan sources.macros
    obtain ⟨expr, read, pos, rfl⟩ := readExpression?_negated holds spelled scanned
    exact ⟨_, read, pos, _, rfl, opposite⟩
  | hexadecimal opens numeral fits =>
    obtain ⟨scalar, read, holds⟩ := hexScalar?_eq numeral fits
    refine constant holds ?_
    rw [spelled]
    exact .hexadecimal opens numeral.ne_nil numeral.isSome_digitValue? read
  | @colour red green blue alpha n isRed isGreen isBlue isAlpha numeral =>
    obtain ⟨scalar, scalarRead, holds⟩ :=
      colourScalar?_eq isRed isGreen isBlue isAlpha numeral
    have digits : ∀ c ∈ red ++ green ++ blue ++ alpha, isHexDigit c = true := by
      intro c member
      refine numeral.isSome_digitValue? c ?_
      simp only [List.mem_append] at member ⊢
      grind
    have nonempty : red ++ green ++ blue ++ alpha ≠ [] := by
      intro empty
      simp_all
    -- A colour ends at a blank only, so it does not spell its word before a parenthesis.
    obtain ⟨tokens, last, spelled, scanned⟩ :=
      scan_colour spelled nonempty digits scalarRead sources.macros
    obtain ⟨expr, read, pos, rfl⟩ := readExpression?_constant spelled scanned
    exact ⟨_, read, pos, scalar, rfl, holds⟩

section Members

variable {context : ParseContext} {members : List (String × Int64)} {field : String}
  {value : Int64} {expr : ParseM Expr} {stmt : ParseM Stmt} {token : Token}
  {rest : List Token}

theorem member_yields {v : Variable} (expr : ParseM Expr) (rest : List Token)
    (isPlain : v.owner = none) (known : context.enums.get? v.name = some members)
    (named : token.lexeme.name? = some field)
    (isMember : members.lookup field = some value) :
    Yields context (member expr (.var v [])) (token :: rest)
      (.number v.pos (Double.ofInt value.toInt)) rest := by
  have found : enumerationOf? context.enums (.var v []) = some (v, members) := by
    simp [enumerationOf?, isPlain, known]
  have reads :
      Yields context (name "enum member") (token :: rest) (field, token.pos) rest := by
    have seen : (nextLexeme (token :: rest)).name? = some field := named
    refine peekLexeme_yields.bind ?_
    rw [seen]
    exact advance_yields.bind (.pure _)
  have asks :
      Yields context (read : ParseM ParseContext) (token :: rest) context
        (token :: rest) :=
    rfl
  refine asks.bind ?_
  rw [found]
  refine reads.bind ?_
  simp only [isMember]
  exact .pure _

theorem qualified_yields_var {name : String} {builtin : Option Builtin.BuiltinVariable}
    {pos : Position} (tokens : List Token) :
    Yields context qualified (⟨.var name builtin, pos⟩ :: tokens) none
      (⟨.var name builtin, pos⟩ :: tokens) := by
  refine Yields.bind rfl (Yields.bind rfl ?_)
  split
  · exact .pure _
  · exact peekLexeme_yields.bind (.pure _)

/-- A variable that names an enumeration, a dot and one of its members. -/
theorem unary_yields_member {name : String} {builtin : Option Builtin.BuiltinVariable}
    {pos dot : Position} (fuel : Nat) (known : context.enums.get? name = some members)
    (named : token.lexeme.name? = some field)
    (isMember : members.lookup field = some value)
    (ends : extendsOperand (nextLexeme rest) = false) :
    Yields context (unary expr stmt (fuel + 1))
      (⟨.var name builtin, pos⟩ :: ⟨.mark .dot, dot⟩ :: token :: rest)
      (.number pos (Double.ofInt value.toInt)) rest := by
  have first : Yields context (primary expr stmt)
      (⟨.var name builtin, pos⟩ :: ⟨.mark .dot, dot⟩ :: token :: rest)
      (.var { pos, name, builtin } []) (⟨.mark .dot, dot⟩ :: token :: rest) :=
    peek_yields.bind (advance_yields.discard.bind (.pure _))
  have second : Yields context (accesses expr (rest.length + 1 + 1 + 1)
      (.var { pos, name, builtin } [])) (⟨.mark .dot, dot⟩ :: token :: rest)
      (.number pos (Double.ofInt value.toInt)) rest :=
    eat_yields.bind ((member_yields expr rest rfl known named isMember).bind
      (accesses_yields _ _ ends))
  have accessed : Yields context (access expr stmt)
      (⟨.var name builtin, pos⟩ :: ⟨.mark .dot, dot⟩ :: token :: rest)
      (.number pos (Double.ofInt value.toInt)) rest :=
    (qualified_yields_var _).bind (first.bind (remaining_yields.bind second))
  refine unary_yields_postfixed fuel rfl (accessed.bind (peekLexeme_yields.bind ?_))
  rw [(marks_of_extendsOperand ends).2]
  exact .pure _

end Members

theorem name?_lexeme (sources : NameSources) (name : String) (beforeParen : Bool) :
    (sources.lexeme name beforeParen).name? = some name := by
  rw [NameSources.lexeme]
  split
  · rfl
  · split
    · rfl
    · split <;> rfl

/-- A member of an enumeration is read as the number that is nearest to its value. -/
theorem readExpression?_member {sources : NameSources} {enums : EnumTable}
    {name field : String} {members : List (String × Int64)} {value : Int64}
    (isVariable : sources.isVariable name = true)
    (isField : sources.isField field = true) (known : enums.get? name = some members)
    (isMember : members.lookup field = some value) :
    ∃ expr, readExpression? sources enums (name ++ "." ++ field) = some expr ∧
      ∃ pos, expr = .number pos (Double.ofInt value.toInt) := by
  have meaning := Outline.meaning_of_isVariable isVariable
  simp only [NameSources.isVariable, NameSources.isFree, NameSources.isField,
    Bool.and_eq_true, Option.isNone_iff_eq_none] at isVariable isField
  obtain ⟨⟨⟨isWord, noKeyword⟩, noMacro, -⟩, -⟩ := isVariable
  obtain ⟨⟨isFieldWord, noFieldKeyword⟩, noFieldMacro⟩ := isField
  have spells : Spells sources.target (name ++ "." ++ field).toList
      [.identifier name, .mark .dot, .identifier field] := by
    obtain ⟨c, text, spelled, start, all, isName⟩ := exists_of_isWord isWord noKeyword
    obtain ⟨d, others, spelledField, fieldStart, fieldAll, isFieldName⟩ :=
      exists_of_isWord isFieldWord noFieldKeyword
    have noDigit : isDigit d = false := Bool.eq_false_iff.mpr fun digit =>
      Bool.eq_false_iff.mp (isNameStart_of_isDigit digit) fieldStart
    have whole : (name ++ "." ++ field).toList = c :: (text ++ '.' :: d :: others) := by
      simp [spelled, spelledField]
    rw [whole, ← isName, ← isFieldName]
    exact .dotted start all noDigit (.word fieldStart fieldAll)
  obtain ⟨tokens, last, spelled, scanned⟩ := spells.scan sources.macros
  have plain : sources.ArePlain [.identifier name, .mark .dot, .identifier field] := by
    simp [NameSources.ArePlain, noMacro, noFieldMacro]
  refine readExpression?_of_scan spelled scanned plain fun tokens rest spelled ends => ?_
  obtain ⟨pos, behindName, rfl, spelledDot⟩ := spelled.cons
  obtain ⟨dot, behindDot, rfl, spelledField⟩ := spelledDot.cons
  obtain ⟨place, rfl⟩ := spelledField.single
  rw [meaning]
  have named := name?_lexeme sources field false
  refine ⟨_, parseExpression_of_yields ends (expression_yields_chain (binary_yields_operand
    (unary_yields_member _ known named isMember ?_) ?_) ?_), pos, rfl⟩ <;>
    simp [ends] <;> rfl

end GameScript.Syntax

namespace GameScript.Emission

open Bytecode Number Syntax Token

/-- The instruction pushes the integer, with 16 bits if they hold it, else with 32 if
they do, else with 64. -/
structure PushesNarrowly (value : Int) (ins : Instruction) : Prop where
  exact : ins.immediate.bind Immediate.toInt? = some value
  short : ins.opcode = .pushImmediate ∧ ins.type1 = .int16 ↔ isSignedWord 16 value = true
  word : ins.opcode = .push ∧ ins.type1 = .int32 ↔
    isSignedWord 32 value = true ∧ isSignedWord 16 value = false
  long : ins.opcode = .push ∧ ins.type1 = .int64 ↔ isSignedWord 32 value = false

/-- The expression is emitted as one instruction that pushes the integer. -/
def EmitsInteger (expr : Expr) (value : Int) : Prop :=
  ∀ (env : Environment) (s : Emitter), ∃ ins t,
    ((emitExpr expr).run env).run s = .ok ((), t) ∧ t.code = s.code.push ins ∧
      PushesNarrowly value ins

theorem isSignedWord_mono {value : Int} (short : isSignedWord 16 value = true) :
    isSignedWord 32 value = true := by
  have half : wordCount (16 - 1) = 32768 := rfl
  have word : wordCount (32 - 1) = 2147483648 := rfl
  simp only [isSignedWord, Bool.and_eq_true, decide_eq_true_eq, half, word] at *
  omega

theorem pushesNarrowly_long {long : Int64} {address : Nat} {value : Int}
    (same : long.toInt = value) (notWord : isSignedWord 32 value = false) :
    PushesNarrowly value
      { address, opcode := .push, type1 := .int64, immediate := some (.int64 long) } := by
  have notShort : isSignedWord 16 value = false :=
    Bool.eq_false_iff.mpr fun short =>
      Bool.eq_false_iff.mp notWord (isSignedWord_mono short)
  constructor <;> simp [Immediate.toInt?, same, notShort, notWord]

theorem emitsInteger_of_holds {scalar : Scalar} {value : Int} (pos : Position)
    (holds : scalar.Holds value) (word : isSignedWord 64 value = true) :
    EmitsInteger (.literal pos (literalOf { value := scalar })) value := by
  intro env s
  cases scalar with
  | string => exact holds.elim
  | int64 long =>
    obtain ⟨rfl, notWord⟩ := holds
    exact ⟨_, _, rfl, rfl, pushesNarrowly_long rfl notWord⟩
  | number double =>
    have found : integerOf? double = some value := by
      rw [integerOf?, holds, Option.filter_some, if_pos word]
    have emitted : emitExpr (.literal pos (literalOf { value := .number double })) =
        (do goTo pos; emitInteger value) := by
      change (do goTo pos; emitLiteral (.number double)) = _
      rw [emitLiteral, found]
    rw [emitted]
    have half : wordCount (32 - 1) = 2147483648 := rfl
    have quarter : wordCount (16 - 1) = 32768 := rfl
    by_cases short : isSignedWord 16 value = true
    · have same : (Int16.ofInt value).toInt = value := by
        simp only [isSignedWord, quarter, Bool.and_eq_true, decide_eq_true_eq] at short
        exact Int16.toInt_ofInt_of_le (by omega) (by omega)
      rw [emitInteger, if_pos short]
      refine ⟨_, _, rfl, rfl, ?_⟩
      constructor <;> simp [Immediate.toInt?, same, short, isSignedWord_mono short]
    by_cases isWord : isSignedWord 32 value = true
    · have same : (Int32.ofInt value).toInt = value := by
        simp only [isSignedWord, half, Bool.and_eq_true, decide_eq_true_eq] at isWord
        exact Int32.toInt_ofInt_of_le (by omega) (by omega)
      rw [emitInteger, if_neg short, if_pos isWord]
      refine ⟨_, _, rfl, rfl, ?_⟩
      constructor <;> simp [Immediate.toInt?, same, short, isWord]
    · have same : (Int64.ofInt value).toInt = value := by
        have whole : wordCount (64 - 1) = 9223372036854775808 := rfl
        simp only [isSignedWord, whole, Bool.and_eq_true, decide_eq_true_eq] at word
        exact Int64.toInt_ofInt_of_le (by omega) (by omega)
      rw [emitInteger, if_neg short, if_neg isWord]
      exact ⟨_, _, rfl, rfl, pushesNarrowly_long same (Bool.eq_false_iff.mpr isWord)⟩

/-- Whatever the session knows, the text of an integer literal is compiled to one push of
the integer, as narrow as can be. -/
theorem integer_literal_pushed_exactly (sources : NameSources) (enums : EnumTable)
    {text : String} {value : Int} (literal : IntegerLiteral text.toList value) :
    ∃ expr, readExpression? sources enums text = some expr ∧ EmitsInteger expr value := by
  obtain ⟨expr, read, pos, scalar, rfl, holds⟩ := readExpression?_integer literal
  exact ⟨_, read, emitsInteger_of_holds pos holds literal.isSignedWord⟩

/-- The least number that sixteen bits do not hold. -/
theorem eightThousand_pushed_exactly :
    IntegerLiteral "$8000".toList 32768 ∧
      ∃ expr, readExpression? ⟨default, .ofTarget default, {}, {}⟩ {} "$8000" = some expr ∧
        EmitsInteger expr 32768 := by
  have numeral :
      Numeral 16 (['8'] ++ ['0'] ++ ['0'] ++ ['0']) (16 * (16 * (16 * 8 + 0) + 0) + 0) :=
    .append (.append (.append (.digit rfl) rfl) rfl) rfl
  have literal : IntegerLiteral "$8000".toList 32768 := by
    have value : Int.bmod 32768 (wordCount 64) = 32768 := by decide
    rw [← value]
    exact .hexadecimal (.inr rfl) numeral (by decide)
  exact ⟨literal, integer_literal_pushed_exactly _ _ literal⟩

/-! Members of enumerations, which are numbers. -/

theorem emitsInteger_number_iff (pos : Position) (double : Double) {value : Int}
    (word : isSignedWord 64 value = true) :
    EmitsInteger (.literal pos (.number double)) value ↔ double.toInt? = some value := by
  refine ⟨fun emits => ?_, fun holds =>
    @emitsInteger_of_holds (.number double) _ pos holds word⟩
  obtain ⟨env, s⟩ : Environment × Emitter := ⟨⟨default, .ofTarget default, {}, ""⟩, {}⟩
  obtain ⟨ins, t, ran, pushed, narrow⟩ := emits env s
  have only {other : Instruction}
      (runs : ∃ u, ((emitExpr (.literal pos (.number double))).run env).run s =
        .ok ((), u) ∧ u.code = s.code.push other) : ins = other := by
    obtain ⟨u, ranOther, pushedOther⟩ := runs
    obtain ⟨-, rfl⟩ := Prod.mk.inj (Except.ok.inj (ranOther.symm.trans ran))
    exact (Array.push_eq_push.mp (pushed.symm.trans pushedOther)).1
  cases found : integerOf? double with
  | none =>
    have emitted : emitLiteral (.number double) =
        (do emitPushDouble double; pushType .double) := by rw [emitLiteral, found]
    have pushes : ins =
        { address := s.length, opcode := .push, type1 := .double
          immediate := some (.double double) } := only (by
      rw [emitExpr, emitted]
      exact ⟨_, rfl, rfl⟩)
    rw [pushes] at narrow
    cases narrow.exact
  | some n =>
    obtain ⟨holds, isWord⟩ := Option.filter_eq_some_iff.mp found
    obtain ⟨other, u, ranOther, pushedOther, narrowOther⟩ :=
      @emitsInteger_of_holds (.number double) _ pos holds isWord env s
    obtain rfl := only ⟨u, ranOther, pushedOther⟩
    rw [holds, ← narrow.exact, narrowOther.exact]

/-- A member of an enumeration is pushed exactly if double precision holds its value:
wherever the parser meets it, and where the text is nothing else. -/
theorem enum_member_pushed_iff {enums : EnumTable} {name field : String}
    {members : List (String × Int64)} {value : Int64}
    (known : enums.get? name = some members)
    (isMember : members.lookup field = some value) :
    (∀ (context : ParseContext) (v : Variable) (token : Token) (expr : ParseM Expr)
        (rest : List Token), context.enums = enums → v.name = name → v.owner = none →
        token.lexeme.name? = some field →
      ∃ read, Yields context (member expr (.var v [])) (token :: rest) read rest ∧
        (EmitsInteger read value.toInt ↔
          (Double.ofInt value.toInt).toInt? = some value.toInt)) ∧
    (∀ sources : NameSources, sources.isVariable name = true →
      sources.isField field = true →
      ∃ read, readExpression? sources enums (name ++ "." ++ field) = some read ∧
        (EmitsInteger read value.toInt ↔
          (Double.ofInt value.toInt).toInt? = some value.toInt)) := by
  have word : isSignedWord 64 value.toInt = true := by
    have half : wordCount (64 - 1) = 9223372036854775808 := rfl
    have least := value.le_toInt
    have most := value.toInt_lt
    simp only [isSignedWord, half, Bool.and_eq_true, decide_eq_true_eq]
    omega
  constructor
  · rintro context v token expr rest rfl rfl isPlain named
    exact ⟨_, member_yields expr rest isPlain known named isMember,
      emitsInteger_number_iff _ _ word⟩
  · intro sources isVariable isField
    obtain ⟨expr, read, pos, rfl⟩ :=
      readExpression?_member isVariable isField known isMember
    exact ⟨_, read, emitsInteger_number_iff _ _ word⟩

/-- Two neighbours, of which double precision holds the first one. -/
def powerTable : EnumTable :=
  ⟨[("Power", [("even", 9007199254740992), ("odd", 9007199254740993)])]⟩

theorem evenPower_pushed :
    (∃ read, Yields ⟨.ofTarget default, powerTable, 0⟩
        (member tooDeep (.var ⟨0, "Power", none, none⟩ []))
        [⟨.identifier "even", 6⟩] read [] ∧
      EmitsInteger read 9007199254740992) ∧
    ∃ read, readExpression? ⟨default, .ofTarget default, {}, {}⟩ powerTable "Power.even" =
        some read ∧
      EmitsInteger read 9007199254740992 := by
  have value : (9007199254740992 : Int64).toInt = 9007199254740992 := by decide
  have held :
      (Double.ofInt 9007199254740992).toInt? = some 9007199254740992 := by decide +kernel
  obtain ⟨yields, reads⟩ :=
    @enum_member_pushed_iff powerTable "Power" "even" _ 9007199254740992 rfl rfl
  rw [value] at yields reads
  obtain ⟨parsed, yields, pushed⟩ := yields ⟨.ofTarget default, powerTable, 0⟩
    ⟨0, "Power", none, none⟩ ⟨.identifier "even", 6⟩ tooDeep [] rfl rfl rfl rfl
  obtain ⟨whole, reads, pushedWhole⟩ := reads ⟨default, .ofTarget default, {}, {}⟩
    (by decide +kernel) (by decide +kernel)
  exact ⟨⟨parsed, yields, pushed.mpr held⟩, whole, reads, pushedWhole.mpr held⟩

/-- The other member is pushed as its neighbour. -/
theorem oddPower_pushed_as_even :
    ∃ read, readExpression? ⟨default, .ofTarget default, {}, {}⟩ powerTable "Power.odd" =
        some read ∧
      EmitsInteger read 9007199254740992 ∧ ¬ EmitsInteger read 9007199254740993 := by
  have value : (9007199254740993 : Int64).toInt = 9007199254740993 := by decide
  obtain ⟨expr, read, pos, rfl⟩ :=
    @readExpression?_member ⟨default, .ofTarget default, {}, {}⟩ powerTable
    "Power" "odd" _ 9007199254740993 (by decide +kernel) (by decide +kernel) rfl rfl
  rw [value] at read
  refine ⟨_, read, ?_, fun emits => ?_⟩
  · exact (emitsInteger_number_iff pos _ (by decide)).mpr (by decide +kernel)
  · exact absurd ((emitsInteger_number_iff pos _ (by decide)).mp emits) (by decide +kernel)

end GameScript.Emission
