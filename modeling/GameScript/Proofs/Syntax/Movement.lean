import GameScript.Syntax.Parser

/-! How parsers move through their tokens.

`Settles` says what a run ends with, and that its bounds were never reached.  A parser
walks if it takes no end, and strides if it takes a token as well; both are said for token
lists below some size, which a bounded loop can then be as well.  An end is meant that
carries nothing: one that carries a constant is read as the constant in a few places.  All
of this is said of two contexts at once, which have the same enumerations in different
orders: no run tells them apart. -/

namespace GameScript.Syntax

open Token (Mark Payload Lexeme)

/-! Tokens that have been taken. -/

/-- At least so many tokens have been taken from the front, none of them an end. -/
def Consumes (least : Nat) (before after : List Token) : Prop :=
  ∃ taken : List Token, before = taken ++ after ∧ least ≤ taken.length ∧
    ∀ token ∈ taken, token.lexeme ≠ .eof

namespace Consumes

variable {least more : Nat} {before middle after : List Token}

theorem refl (tokens : List Token) : Consumes 0 tokens tokens :=
  ⟨[], rfl, Nat.le_refl 0, by simp⟩

theorem trans (first : Consumes least before middle)
    (second : Consumes more middle after) : Consumes (least + more) before after := by
  obtain ⟨taken, rfl, enough, noEnd⟩ := first
  obtain ⟨later, rfl, others, noLaterEnd⟩ := second
  refine ⟨taken ++ later, (List.append_assoc ..).symm, ?_, fun token member => ?_⟩
  · simpa using Nat.add_le_add enough others
  · exact (List.mem_append.mp member).elim (noEnd token) (noLaterEnd token)

theorem mono (takes : Consumes least before after) (le : more ≤ least) :
    Consumes more before after := by
  obtain ⟨taken, rfl, enough, noEnd⟩ := takes
  exact ⟨taken, rfl, Nat.le_trans le enough, noEnd⟩

theorem zero (takes : Consumes least before after) : Consumes 0 before after :=
  takes.mono (Nat.zero_le _)

theorem length_le (takes : Consumes least before after) :
    after.length + least ≤ before.length := by
  obtain ⟨taken, rfl, enough, -⟩ := takes
  simp only [List.length_append]
  omega

theorem length_lt (takes : Consumes 1 before after) : after.length < before.length :=
  takes.length_le

theorem single {token : Token} (noEnd : token.lexeme ≠ .eof) (rest : List Token) :
    Consumes 1 (token :: rest) rest :=
  ⟨[token], rfl, Nat.le_refl 1, by simpa using noEnd⟩

end Consumes

/-- A parser ends as told, or blames the tokens: it never runs out of its bounds. -/
def Settles (context : ParseContext) (parser : ParseM α) (tokens : List Token)
    (post : α → List Token → Prop) : Prop :=
  match (parser.run context).run tokens with
  | .ok (value, rest) => post value rest
  | .error error => error.fault ≠ .tooDeep

/-- A parser that takes tokens but never an end, on fewer than `size` tokens. -/
def Strides (context : ParseContext) (size : Nat) (parser : ParseM α) : Prop :=
  ∀ tokens, tokens.length < size → Settles context parser tokens fun _ rest =>
    Consumes 1 tokens rest

/-- A context, and its enumerations in another order. -/
structure Twins where
  context : ParseContext
  enums : EnumTable
  knows : ∀ name, context.enums.get? name = enums.get? name

namespace Twins

def self (context : ParseContext) : Twins := ⟨context, context.enums, fun _ => rfl⟩

def other (twins : Twins) : ParseContext := { twins.context with enums := twins.enums }

def sees (twins : Twins) (tokens : List Token) : Token :=
  tokens.getD 0 ⟨.eof, twins.context.endPos⟩

/-- A parser runs the same in both contexts, and settles as told. -/
def Settles (twins : Twins) (parser : ParseM α) (tokens : List Token)
    (post : α → List Token → Prop) : Prop :=
  (parser.run twins.other).run tokens = (parser.run twins.context).run tokens ∧
    Syntax.Settles twins.context parser tokens post

/-- A parser that takes at least so many tokens but never an end, on fewer than `size`
tokens. -/
def Moves (twins : Twins) (least size : Nat) (parser : ParseM α) : Prop :=
  ∀ tokens, tokens.length < size → twins.Settles parser tokens fun _ rest =>
    Consumes least tokens rest

abbrev Walks (twins : Twins) (size : Nat) (parser : ParseM α) : Prop :=
  twins.Moves 0 size parser

abbrev Strides (twins : Twins) (size : Nat) (parser : ParseM α) : Prop :=
  twins.Moves 1 size parser

section Rules

variable {twins : Twins} {tokens : List Token} {least more size : Nat} {α β : Type}

namespace Settles

variable {parser : ParseM α} {post : α → List Token → Prop}

theorem mono {weaker : α → List Token → Prop} (settles : twins.Settles parser tokens post)
    (implies : ∀ value rest, post value rest → weaker value rest) :
    twins.Settles parser tokens weaker := by
  refine ⟨settles.1, ?_⟩
  have ends := settles.2
  unfold Syntax.Settles at ends ⊢
  split at ends
  case h_1 value rest ran => simpa only [ran] using implies value rest ends
  case h_2 error ran => simpa only [ran] using ends

theorem bind {next : α → ParseM β} {last : β → List Token → Prop}
    (first : twins.Settles parser tokens post)
    (second : ∀ value rest, post value rest → twins.Settles (next value) rest last) :
    twins.Settles (parser >>= next) tokens last := by
  have unfolded (context : ParseContext) : ((parser >>= next).run context).run tokens =
      ((parser.run context).run tokens).bind fun result =>
        ((next result.1).run context).run result.2 := rfl
  obtain ⟨same, ends⟩ := first
  unfold Settles
  unfold Syntax.Settles at ends ⊢
  rw [unfolded, unfolded, same]
  cases ran : (parser.run twins.context).run tokens with
  | ok result =>
    rw [ran] at ends
    exact second result.1 result.2 ends
  | error error =>
    rw [ran] at ends
    exact ⟨rfl, ends⟩

theorem map {f : α → β} (last : β → List Token → Prop)
    (settles : twins.Settles parser tokens fun value rest => last (f value) rest) :
    twins.Settles (f <$> parser) tokens last := by
  have unfolded : f <$> parser = parser >>= fun value => pure (f value) := rfl
  rw [unfolded]
  exact settles.bind fun _ _ held => ⟨rfl, held⟩

end Settles

namespace Moves

variable {parser : ParseM α} {next : α → ParseM β}

theorem pure (value : α) : twins.Walks size (pure value) := fun tokens _ =>
      ⟨rfl, .refl tokens⟩

theorem walks (strides : twins.Moves least size parser) : twins.Walks size parser :=
  fun tokens short => (strides tokens short).mono fun _ _ takes => takes.zero

theorem mono {larger : Nat} (moves : twins.Moves least larger parser)
    (le : size ≤ larger) : twins.Moves least size parser :=
  fun tokens short => moves tokens (Nat.lt_of_lt_of_le short le)

theorem andThen (first : twins.Moves least size parser)
    (second : ∀ value, twins.Moves more (size - least) (next value)) :
    twins.Moves (least + more) size (parser >>= next) :=
  fun tokens short => (first tokens short).bind fun value rest takes =>
    (second value rest (by have fewer := takes.length_le; omega)).mono
      fun _ _ later => takes.trans later

theorem bind (first : twins.Moves least size parser)
    (second : ∀ value, twins.Walks (size - least) (next value)) :
    twins.Moves least size (parser >>= next) :=
  first.andThen second

theorem strides (first : twins.Walks size parser)
    (second : ∀ value, twins.Strides size (next value)) :
    twins.Strides size (parser >>= next) :=
  first.andThen second

theorem map {f : α → β} (moves : twins.Moves least size parser) :
    twins.Moves least size (f <$> parser) :=
  fun tokens short => .map (fun _ rest => Consumes least tokens rest) (moves tokens short)

theorem discard (moves : twins.Moves least size parser) :
    twins.Moves least size (Functor.discard parser) :=
  moves.map

theorem ite {condition : Prop} [Decidable condition] {yes no : ParseM α}
    (whenTrue : twins.Moves least size yes) (whenFalse : twins.Moves least size no) :
    twins.Moves least size (if condition then yes else no) := by
  split
  · exact whenTrue
  · exact whenFalse

theorem failAt {pos : Position} {fault : ParseFault} (deep : fault ≠ .tooDeep) :
    twins.Moves least size (failAt pos fault : ParseM α) :=
  fun _ _ => ⟨rfl, deep⟩

theorem read {next : ParseContext → ParseM α}
    (same : next twins.other = next twins.context)
    (second : twins.Moves least size (next twins.context)) :
    twins.Moves least size (MonadReader.read >>= next) := by
  intro tokens short
  obtain ⟨alike, ends⟩ := second tokens short
  refine ⟨Eq.trans ?_ alike, ends⟩
  exact congrArg (fun parser => (parser.run twins.other).run tokens) same

theorem none (parser : ParseM α) : twins.Moves least 0 parser :=
  fun _ short => absurd short (Nat.not_lt_zero _)

/-- A loop that is given as many rounds as there are tokens. -/
theorem remaining {loop : Nat → ParseM α}
    (rounds : ∀ fuel ≤ size, twins.Moves least fuel (loop fuel)) :
    twins.Moves least size (remaining >>= loop) :=
  fun tokens short => rounds (tokens.length + 1) short tokens (Nat.lt_succ_self _)

end Moves

end Rules

section Tokens

variable {twins : Twins} {tokens : List Token} {size : Nat} {mark : Mark} {α : Type}

theorem settles_peek {next : Token → ParseM α} {post : α → List Token → Prop}
    (settles : twins.Settles (next (twins.sees tokens)) tokens post) :
    twins.Settles (peek >>= next) tokens post :=
  settles

theorem settles_peekLexeme {next : Lexeme → ParseM α} {post : α → List Token → Prop}
    (settles : twins.Settles (next (twins.sees tokens).lexeme) tokens post) :
    twins.Settles (peekLexeme >>= next) tokens post :=
  settles

theorem settles_isAt {next : Bool → ParseM α} {post : α → List Token → Prop}
    (settles : twins.Settles (next ((twins.sees tokens).isMark mark)) tokens post) :
    twins.Settles (isAt mark >>= next) tokens post :=
  settles

theorem settles_peekAt {count : Nat} {next : Token → ParseM α}
    {post : α → List Token → Prop}
    (settles : twins.Settles
      (next (tokens.getD count ⟨.eof, twins.context.endPos⟩)) tokens post) :
    twins.Settles (peekAt count >>= next) tokens post :=
  settles

theorem peekAt_walks (count : Nat) : twins.Walks size (peekAt count) :=
  fun tokens _ => ⟨rfl, .refl tokens⟩

theorem peekLexeme_walks : twins.Walks size peekLexeme := fun tokens _ =>
      ⟨rfl, .refl tokens⟩

theorem isAt_walks (mark : Mark) : twins.Walks size (isAt mark) :=
  fun tokens _ => ⟨rfl, .refl tokens⟩

theorem unexpected_strides (what : String) :
    twins.Strides size (unexpected what : ParseM α) :=
  fun _ _ => ⟨rfl, ParseFault.noConfusion⟩

theorem advance_settles (tokens : List Token) :
    twins.Settles advance tokens fun token rest =>
      token = twins.sees tokens ∧ (token.lexeme ≠ .eof → Consumes 1 tokens rest) := by
  cases tokens with
  | nil => exact ⟨rfl, rfl, fun noEnd => absurd rfl noEnd⟩
  | cons token rest => exact ⟨rfl, rfl, fun noEnd => .single noEnd rest⟩

theorem advance_settles_of_ne (noEnd : (twins.sees tokens).lexeme ≠ .eof) :
    twins.Settles advance tokens fun _ rest => Consumes 1 tokens rest :=
  (advance_settles tokens).mono fun _ _ taken => taken.2 (taken.1 ▸ noEnd)

theorem settles_advance {next : PUnit → ParseM α}
    (noEnd : (twins.sees tokens).lexeme ≠ .eof) (short : tokens.length < size + 1)
    (second : twins.Walks size (next ⟨⟩)) :
    twins.Settles (discard advance >>= next) tokens fun _ rest =>
      Consumes 1 tokens rest := by
  have taken : twins.Settles (discard advance) tokens fun _ rest =>
      Consumes 1 tokens rest :=
    .map (fun _ rest => Consumes 1 tokens rest) (advance_settles_of_ne noEnd)
  refine taken.bind fun _ rest takes => ?_
  exact (second rest (Nat.lt_of_lt_of_le takes.length_lt (Nat.le_of_lt_succ short))).mono
    fun _ _ later => takes.trans later

theorem settles_advance_walks {next : PUnit → ParseM α}
    (noEnd : (twins.sees tokens).lexeme ≠ .eof) (short : tokens.length < size + 1)
    (second : twins.Walks size (next ⟨⟩)) :
    twins.Settles (discard advance >>= next) tokens fun _ rest => Consumes 0 tokens rest :=
  (settles_advance noEnd short second).mono fun _ _ takes => takes.zero

theorem ne_eof_of_eq_some {meaning : Lexeme → Option α} {lexeme : Lexeme} {value : α}
    (noMeaning : meaning .eof = none) (isSome : meaning lexeme = some value) :
    lexeme ≠ .eof :=
  fun isEnd => by
    rw [isEnd, noMeaning] at isSome
    cases isSome

theorem ne_eof_of_payload {lexeme : Lexeme} {payload : Payload}
    (carries : lexeme.payload = payload) (carried : payload ≠ .none) : lexeme ≠ .eof :=
  fun isEnd => carried (carries.symm.trans (congrArg Lexeme.payload isEnd))

theorem ne_eof_of_isMark {token : Token} (isMark : token.isMark mark = true) :
    token.lexeme ≠ .eof := by
  have marked : token.lexeme.kind = .mark mark := beq_iff_eq.mp isMark
  intro isEnd
  rw [isEnd] at marked
  cases marked

theorem eat_settles (mark : Mark) (tokens : List Token) :
    twins.Settles (eat mark) tokens fun taken rest =>
      if taken then Consumes 1 tokens rest else rest = tokens := by
  refine settles_isAt ?_
  split
  case isTrue isMark =>
    have taken : twins.Settles (discard advance) tokens fun _ rest =>
        Consumes 1 tokens rest :=
      .map (fun _ rest => Consumes 1 tokens rest)
        (advance_settles_of_ne (ne_eof_of_isMark isMark))
    exact taken.bind fun _ _ takes => ⟨rfl, takes⟩
  case isFalse => exact ⟨rfl, rfl⟩

theorem eat_moves_bind {least : Nat} {next : Bool → ParseM α} (le : least ≤ 1)
    (eaten : twins.Walks (size - 1) (next true))
    (other : twins.Moves least size (next false)) :
    twins.Moves least size (eat mark >>= next) := by
  intro tokens short
  refine (eat_settles mark tokens).bind fun taken rest moved => ?_
  cases taken with
  | true =>
    have fewer : rest.length < tokens.length := Consumes.length_lt moved
    refine (eaten rest (Nat.lt_of_lt_of_le fewer (Nat.le_sub_one_of_lt short))).mono ?_
    exact fun _ _ later => (Consumes.trans moved later).mono le
  | false =>
    obtain rfl : rest = tokens := moved
    exact other rest short

theorem eat_walks (mark : Mark) : twins.Walks size (eat mark) :=
  (bind_pure (eat mark)) ▸ eat_moves_bind (Nat.zero_le 1) (.pure true) (.pure false)

theorem expect_strides (mark : Mark) (what : String) :
    twins.Strides size (expect mark what) := by
  intro tokens short
  refine settles_isAt ?_
  split
  case isTrue isMark =>
    exact (advance_settles_of_ne (ne_eof_of_isMark isMark)).bind
      fun _ _ takes => ⟨rfl, takes⟩
  case isFalse => exact unexpected_strides what tokens short

theorem name_strides (what : String) : twins.Strides size (name what) := by
  intro tokens short
  refine settles_peekLexeme ?_
  split
  case h_1 name isNamed =>
    exact (advance_settles_of_ne (ne_eof_of_eq_some rfl isNamed)).bind
      fun _ _ takes => ⟨rfl, takes⟩
  case h_2 => exact unexpected_strides what tokens short

theorem isAtFunction_walks : twins.Walks size isAtFunction := by
  exact peekLexeme_walks.bind fun _ => .pure _

theorem operatorOf_settles (ops : List (Mark × BinaryOp)) (tokens : List Token) :
    twins.Settles (operatorOf ops) tokens fun found rest =>
      rest = tokens ∧ (found ≠ none → (twins.sees tokens).lexeme ≠ .eof) := by
  refine settles_peekLexeme ?_
  obtain ⟨kind, payload⟩ := (twins.sees tokens).lexeme
  cases kind with
  | mark mark => exact ⟨rfl, rfl, fun _ => by simp⟩
  | _ => exact ⟨rfl, rfl, fun found => absurd rfl found⟩

end Tokens

end Twins

end GameScript.Syntax
