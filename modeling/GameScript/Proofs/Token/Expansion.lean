import GameScript.Token.Naming

/-! Macro expansion is substitution.

Names get their meaning in one pass that splices the body of a macro in front of the
tokens that follow and goes on there.  Replacing each use by the whole expansion of
its body, body by body, gives the same tokens. -/

namespace GameScript

namespace Token

/-- Tokens that all stand where a macro was used. -/
def placedAt (pos : Position) (tokens : List Token) : List Token :=
  tokens.map (⟨·.lexeme, pos⟩)

@[simp] theorem placedAt_nil (pos : Position) : placedAt pos [] = [] := rfl

@[simp] theorem placedAt_cons (pos : Position) (token : Token) (rest : List Token) :
    placedAt pos (token :: rest) = ⟨token.lexeme, pos⟩ :: placedAt pos rest := rfl

@[simp] theorem placedAt_append (pos : Position) (tokens others : List Token) :
    placedAt pos (tokens ++ others) = placedAt pos tokens ++ placedAt pos others :=
  List.map_append

@[simp] theorem placedAt_placedAt (pos first : Position) (tokens : List Token) :
    placedAt pos (placedAt first tokens) = placedAt pos tokens :=
  List.map_map

def opens (tokens : List Token) : Bool := tokens.head?.any (·.isMark .parenOpen)

end Token

open Token

namespace MacroTable

def Keeps (macros : MacroTable) (token : Token) : Prop :=
  ∀ name, token.lexeme = .identifier name → macros.get? name = none

/-- Replacing all macro uses of some tokens, and those in the bodies that they stand
for, takes `uses` replacements.  All that a use is replaced by stands at the use. -/
inductive Expands (macros : MacroTable) : List Token → List Token → Nat → Prop where
  | nil : Expands macros [] [] 0
  | keep {token : Token} {rest expanded : List Token} {uses : Nat}
      (kept : macros.Keeps token) (following : Expands macros rest expanded uses) :
      Expands macros (token :: rest) (token :: expanded) uses
  | use {name : String} {pos : Position} {body rest expandedBody expanded : List Token}
      {inner uses : Nat} (known : macros.get? name = some body)
      (inside : Expands macros body expandedBody inner)
      (following : Expands macros rest expanded uses) :
      Expands macros (⟨.identifier name, pos⟩ :: rest)
        (placedAt pos expandedBody ++ expanded) (inner + uses + 1)

/-- No macro expands into nothing or into an opening parenthesis in front. -/
def AreSolid (macros : MacroTable) : Prop :=
  ∀ name body expanded uses, macros.get? name = some body →
    macros.Expands body expanded uses → expanded ≠ [] ∧ opens expanded = false

variable {macros : MacroTable} {tokens others expanded : List Token} {uses : Nat}

theorem keeps_or_use (macros : MacroTable) (token : Token) :
    macros.Keeps token ∨
      ∃ name pos body, token = ⟨.identifier name, pos⟩ ∧ macros.get? name = some body := by
  by_cases kept : macros.Keeps token
  · exact .inl kept
  · simp only [Keeps, Classical.not_forall] at kept
    obtain ⟨name, isName, known⟩ := kept
    obtain ⟨body, found⟩ := Option.ne_none_iff_exists'.mp known
    exact .inr ⟨name, token.pos, body, by rw [← isName], found⟩

theorem not_keeps_use {name : String} {pos : Position} {body : List Token}
    (known : macros.get? name = some body) : ¬ macros.Keeps ⟨.identifier name, pos⟩ := by
  intro kept
  rw [kept name rfl] at known
  cases known

namespace Expands

theorem append {expandedOthers : List Token} {otherUses : Nat}
    (first : macros.Expands tokens expanded uses)
    (second : macros.Expands others expandedOthers otherUses) :
    macros.Expands (tokens ++ others) (expanded ++ expandedOthers) (uses + otherUses) := by
  induction first with
  | nil => simpa using second
  | keep kept _ induction => exact .keep kept induction
  | @use _ _ _ _ _ _ inner uses known inside _ _ induction =>
    have count : inner + uses + 1 + otherUses = inner + (uses + otherUses) + 1 := by omega
    rw [List.append_assoc, count]
    exact .use known inside induction

theorem of_append {tokens others expanded : List Token} {uses : Nat}
    (expands : macros.Expands (tokens ++ others) expanded uses) :
    ∃ front back first second, macros.Expands tokens front first ∧
      macros.Expands others back second ∧ expanded = front ++ back ∧
      uses = first + second := by
  induction tokens generalizing expanded uses with
  | nil => exact ⟨[], expanded, 0, uses, .nil, expands, rfl, by simp⟩
  | cons token rest induction =>
    cases expands with
    | keep kept following =>
      obtain ⟨front, back, first, second, whole, remaining, rfl, rfl⟩ :=
        induction following
      exact ⟨_, back, first, second, .keep kept whole, remaining, rfl, rfl⟩
    | @use name pos body _ expandedBody _ inner _ known inside following =>
      obtain ⟨front, back, first, second, whole, remaining, rfl, rfl⟩ :=
        induction following
      refine ⟨_, back, inner + first + 1, second, .use known inside whole,
        remaining, ?_, ?_⟩
      · rw [List.append_assoc]
      · omega

/-- Where a body is used does not matter for what it expands into. -/
theorem placed (expands : macros.Expands tokens expanded uses) (pos : Position) :
    macros.Expands (placedAt pos tokens) (placedAt pos expanded) uses := by
  induction expands with
  | nil => exact .nil
  | keep kept _ induction => exact .keep kept induction
  | use known inside _ _ induction =>
    rw [placedAt_append, placedAt_placedAt]
    exact .use known inside induction

variable {pos : Position} {name : String} {body rest : List Token}

theorem of_placed {tokens expanded : List Token} {uses : Nat}
    (expands : macros.Expands (placedAt pos tokens) expanded uses) :
    ∃ original, macros.Expands tokens original uses ∧
    expanded = placedAt pos original := by
  induction tokens generalizing expanded uses with
  | nil =>
    cases expands
    exact ⟨[], .nil, rfl⟩
  | cons token rest induction =>
    obtain ⟨lexeme, own⟩ := token
    cases expands with
    | keep kept following =>
      obtain ⟨original, whole, rfl⟩ := induction following
      exact ⟨_, .keep kept whole, rfl⟩
    | use known inside following =>
      obtain ⟨original, whole, rfl⟩ := induction following
      exact ⟨_, .use known inside whole, by rw [placedAt_append, placedAt_placedAt]⟩

/-- One step of the pass: the body of a use is spliced in front of what follows. -/
theorem splice (known : macros.get? name = some body)
    (expands : macros.Expands (⟨.identifier name, pos⟩ :: rest) expanded (uses + 1)) :
    macros.Expands (placedAt pos body ++ rest) expanded uses := by
  generalize count : uses + 1 = all at expands
  cases expands with
  | keep kept _ => exact absurd kept (not_keeps_use known)
  | use found inside following =>
    cases known.symm.trans found
    cases count
    exact (inside.placed pos).append following

theorem of_splice (known : macros.get? name = some body)
    (expands : macros.Expands (placedAt pos body ++ rest) expanded uses) :
    macros.Expands (⟨.identifier name, pos⟩ :: rest) expanded (uses + 1) := by
  obtain ⟨front, back, first, second, placed, following, rfl, rfl⟩ := expands.of_append
  obtain ⟨expandedBody, inside, rfl⟩ := placed.of_placed
  exact .use known inside following

theorem uses_succ (known : macros.get? name = some body)
    (expands : macros.Expands (⟨.identifier name, pos⟩ :: rest) expanded uses) :
    ∃ fewer, uses = fewer + 1 := by
  cases expands with
  | keep kept _ => exact absurd kept (not_keeps_use known)
  | use _ _ _ => exact ⟨_, rfl⟩

/-- Among solid macros a parenthesis follows in the expanded tokens only where it does
in the given ones. -/
theorem opens_eq (expands : macros.Expands tokens expanded uses)
    (solid : macros.AreSolid) : opens expanded = opens tokens := by
  cases expands with
  | nil => rfl
  | keep _ _ => rfl
  | @use name pos body rest expandedBody _ inner _ known inside _ =>
    obtain ⟨someToken, noParen⟩ := solid name body expandedBody inner known inside
    cases expandedBody with
    | nil => exact absurd rfl someToken
    | cons first _ => exact noParen

end Expands

end MacroTable

namespace Token.NameSources

open Builtin Number

/-- What a name that is no macro stands for: in front of a parenthesis a function, and
elsewhere an asset, a built-in constant or a variable, in this order. -/
inductive Denotes (sources : NameSources) (name : String) : Bool → Lexeme → Prop where
  | function : Denotes sources name true (.function name (sources.registry.function? name))
  | asset {asset : Asset} (known : sources.assets.get? name = some asset) :
      Denotes sources name false
        (.constant { value := .number (Double.ofInt asset.id), name := some name })
  | constant {value : Double} (noAsset : sources.assets.get? name = none)
      (known : sources.registry.constant? name = some value) :
      Denotes sources name false
        (.constant
          { value := .number value, name := some name
            isBoolean :=
              sources.target.hasFunctions && (name == "true" || name == "false") })
  | var (noAsset : sources.assets.get? name = none)
      (noConstant : sources.registry.constant? name = none) :
      Denotes sources name false (.var name (sources.registry.lookup? name))

/-- All names of some tokens have their meaning, and all other tokens stand as they did.
A token of the kind of names that carries no name carries nothing afterwards. -/
inductive Settles (sources : NameSources) : List Token → List Token → Prop where
  | nil : Settles sources [] []
  | name {name : String} {pos : Position} {lexeme : Lexeme} {rest settled : List Token}
      (meaning : sources.Denotes name (opens rest) lexeme)
      (following : Settles sources rest settled) :
      Settles sources (⟨.identifier name, pos⟩ :: rest) (⟨lexeme, pos⟩ :: settled)
  | nameless {payload : Payload} {pos : Position} {rest settled : List Token}
      (noName : ∀ name, payload ≠ .identifier name)
      (following : Settles sources rest settled) :
      Settles sources (⟨⟨.identifier, payload⟩, pos⟩ :: rest)
        (⟨⟨.identifier, .none⟩, pos⟩ :: settled)
  | other {token : Token} {rest settled : List Token}
      (otherKind : token.lexeme.kind ≠ .identifier)
      (following : Settles sources rest settled) :
      Settles sources (token :: rest) (token :: settled)

variable {sources : NameSources}

theorem denotes_lexeme (sources : NameSources) (name : String) (beforeParen : Bool) :
    sources.Denotes name beforeParen (sources.lexeme name beforeParen) := by
  cases beforeParen with
  | true => exact .function
  | false =>
    simp only [lexeme, Bool.false_eq_true, if_false]
    split
    · next known => exact .asset known
    · next noAsset =>
        split
        · next known => exact .constant noAsset known
        · next noConstant => exact .var noAsset noConstant

section

variable {onMacro : Token → String → List Token → List Token → List Token × List LexError}

theorem resolveUntilMacro_use {name : String} {body : List Token}
    (known : sources.macros.get? name = some body) (pos : Position) (rest : List Token) :
    sources.resolveUntilMacro onMacro (⟨.identifier name, pos⟩ :: rest) =
      onMacro ⟨.identifier name, pos⟩ name body rest := by
  rw [resolveUntilMacro]
  dsimp only
  rw [known]

/-- A token that is no use gets its meaning, and the pass goes on behind it. -/
theorem resolveUntilMacro_keep {token : Token} (kept : sources.macros.Keeps token)
    (rest : List Token) :
    ∃ lexeme,
      (∀ {following settled}, opens following = opens rest →
        sources.Settles following settled →
        sources.Settles (token :: following) (⟨lexeme, token.pos⟩ :: settled)) ∧
      sources.resolveUntilMacro onMacro (token :: rest) =
        (⟨lexeme, token.pos⟩ :: (sources.resolveUntilMacro onMacro rest).1,
          (sources.resolveUntilMacro onMacro rest).2) := by
  rw [resolveUntilMacro]
  split
  · next name isName =>
      obtain ⟨_, pos⟩ := token
      cases isName
      refine ⟨sources.lexeme name (opens rest), fun same settles => ?_, ?_⟩
      · exact .name (same ▸ sources.denotes_lexeme name (opens rest)) settles
      · rw [kept name rfl]
        rfl
  · next payload noName isNameless =>
      obtain ⟨_, pos⟩ := token
      cases isNameless
      exact ⟨_, fun _ settles =>
        .nameless (fun name same => noName name (same ▸ rfl)) settles, rfl⟩
  · next otherKind =>
      refine ⟨token.lexeme, fun _ settles => .other (fun isName => ?_) settles, rfl⟩
      exact otherKind token.lexeme.payload (isName ▸ rfl)

end

theorem resolveWithin_nil (sources : NameSources) (budget : Nat) :
    sources.resolveWithin budget [] = ([], []) := by
  cases budget <;> rfl

theorem resolveWithin_keep {token : Token} (kept : sources.macros.Keeps token)
    (budget : Nat) (rest : List Token) :
    ∃ lexeme,
      (∀ {following settled}, opens following = opens rest →
        sources.Settles following settled →
        sources.Settles (token :: following) (⟨lexeme, token.pos⟩ :: settled)) ∧
      sources.resolveWithin budget (token :: rest) =
        (⟨lexeme, token.pos⟩ :: (sources.resolveWithin budget rest).1,
          (sources.resolveWithin budget rest).2) := by
  cases budget with
  | zero => exact resolveUntilMacro_keep kept rest
  | succ budget => exact resolveUntilMacro_keep kept rest

theorem resolveWithin_use {name : String} {body : List Token}
    (known : sources.macros.get? name = some body) (budget : Nat) (pos : Position)
    (rest : List Token) :
    sources.resolveWithin (budget + 1) (⟨.identifier name, pos⟩ :: rest) =
      sources.resolveWithin budget (placedAt pos body ++ rest) :=
  resolveUntilMacro_use known pos rest

theorem resolveWithin_spent {name : String} {body : List Token}
    (known : sources.macros.get? name = some body) (pos : Position) (rest : List Token) :
    sources.resolveWithin 0 (⟨.identifier name, pos⟩ :: rest) =
      (⟨.identifier name, pos⟩ :: rest, [⟨pos, .macroDepth name⟩]) :=
  resolveUntilMacro_use known pos rest

/-- The run of the pass: it ends, keeps a token and goes on behind it, replaces a use
and goes on at the body, or stops at a use for which nothing is left. -/
theorem resolveWithin_induction (macros : MacroTable) {motive : Nat → List Token → Prop}
    (nil : ∀ budget, motive budget [])
    (keep : ∀ budget token rest, macros.Keeps token → motive budget rest →
      motive budget (token :: rest))
    (use : ∀ budget name pos body rest, macros.get? name = some body →
      motive budget (placedAt pos body ++ rest) →
      motive (budget + 1) (⟨.identifier name, pos⟩ :: rest))
    (spent : ∀ name pos body rest, macros.get? name = some body →
      motive 0 (⟨.identifier name, pos⟩ :: rest))
    (budget : Nat) (tokens : List Token) : motive budget tokens := by
  -- A use leaves more tokens but less budget; a kept token leaves fewer tokens.
  induction budget generalizing tokens with
  | zero =>
    induction tokens with
    | nil => exact nil 0
    | cons token rest behind =>
      obtain kept | ⟨name, pos, body, rfl, known⟩ := macros.keeps_or_use token
      · exact keep 0 token rest kept behind
      · exact spent name pos body rest known
  | succ budget inside =>
    induction tokens with
    | nil => exact nil (budget + 1)
    | cons token rest behind =>
      obtain kept | ⟨name, pos, body, rfl, known⟩ := macros.keeps_or_use token
      · exact keep (budget + 1) token rest kept behind
      · exact use budget name pos body rest known (inside _)

/-- Within its budget the pass gives the expanded tokens their meaning. -/
theorem resolveWithin_expands (solid : sources.macros.AreSolid) (budget : Nat)
    (tokens : List Token) :
    ∀ {expanded uses}, sources.macros.Expands tokens expanded uses → uses ≤ budget →
      ∃ settled, sources.resolveWithin budget tokens = (settled, []) ∧
        sources.Settles expanded settled := by
  induction budget, tokens using resolveWithin_induction sources.macros with
  | nil budget =>
    intro expanded uses expands _
    cases expands
    exact ⟨[], sources.resolveWithin_nil budget, .nil⟩
  | keep budget token rest kept behind =>
    intro expanded uses expands enough
    cases expands with
    | keep _ following =>
      obtain ⟨settled, resolved, settles⟩ := behind following enough
      obtain ⟨lexeme, extend, step⟩ := resolveWithin_keep kept budget rest
      rw [resolved] at step
      exact ⟨_, step, extend (following.opens_eq solid) settles⟩
    | use known _ _ => exact absurd kept (MacroTable.not_keeps_use known)
  | use budget name pos body rest known inside =>
    intro expanded uses expands enough
    obtain ⟨fewer, rfl⟩ := expands.uses_succ known
    rw [resolveWithin_use known]
    exact inside (expands.splice known) (Nat.le_of_succ_le_succ enough)
  | spent name pos body rest known =>
    intro expanded uses expands enough
    obtain ⟨fewer, rfl⟩ := expands.uses_succ known
    exact absurd enough (Nat.not_succ_le_zero fewer)

/-- The pass stopped at the use of a macro, which it names and leaves as it is. -/
def StopsAtUse (macros : MacroTable) (result : List Token × List LexError) : Prop :=
  ∃ front name pos rest,
    result = (front ++ ⟨.identifier name, pos⟩ :: rest, [⟨pos, .macroDepth name⟩]) ∧
      macros.contains name = true

/-- A pass whose budget is too small for the expansion stops at a use. -/
theorem resolveWithin_stops (sources : NameSources) (budget : Nat) (tokens : List Token) :
    (∀ expanded uses, sources.macros.Expands tokens expanded uses → budget < uses) →
      StopsAtUse sources.macros (sources.resolveWithin budget tokens) := by
  induction budget, tokens using resolveWithin_induction sources.macros with
  | nil budget =>
    intro beyond
    exact absurd (beyond [] 0 .nil) (Nat.not_lt_zero budget)
  | keep budget token rest kept behind =>
    intro beyond
    obtain ⟨front, name, pos, after, stops, known⟩ :=
      behind fun expanded uses expands => beyond _ uses (.keep kept expands)
    obtain ⟨lexeme, -, step⟩ := resolveWithin_keep kept budget rest
    rw [stops] at step
    exact ⟨_ :: front, name, pos, after, step, known⟩
  | use budget name pos body rest known inside =>
    intro beyond
    rw [resolveWithin_use known]
    exact inside fun expanded uses expands =>
      Nat.lt_of_succ_lt_succ (beyond expanded (uses + 1) (expands.of_splice known))
  | spent name pos body rest known =>
    intro _
    refine ⟨[], name, pos, rest, resolveWithin_spent known pos rest, ?_⟩
    rw [MacroTable.contains, known]
    rfl

/-- Giving names a meaning is complete substitution.  Where at most `expansionLimit` uses
are replaced and no macro expands into nothing or into an opening parenthesis in front,
there is no error and the names of the fully expanded tokens have their meaning.  Where
more would be replaced, the pass stops at a macro with one error that names it. -/
theorem resolve_substitutes (sources : NameSources) (tokens : List Token) :
    (∀ expanded uses, sources.macros.Expands tokens expanded uses → uses ≤ expansionLimit →
      sources.macros.AreSolid →
      ∃ settled, sources.resolve tokens = (settled, []) ∧
      sources.Settles expanded settled) ∧
    ((∀ expanded uses, sources.macros.Expands tokens expanded uses → expansionLimit < uses)
      → StopsAtUse sources.macros (sources.resolve tokens)) :=
  ⟨fun _ _ expands enough solid =>
    resolveWithin_expands solid expansionLimit tokens expands enough,
    sources.resolveWithin_stops expansionLimit tokens⟩

/-- `#macro TWICE -HALF - HALF`, `#macro HALF -x` and `#macro LOOP -LOOP`. -/
def nestedMacros : MacroTable :=
  ⟨[("TWICE", [⟨.mark .minus, 13⟩, ⟨.identifier "HALF", 14⟩, ⟨.mark .minus, 19⟩,
      ⟨.identifier "HALF", 21⟩]),
    ("HALF", [⟨.mark .minus, 38⟩, ⟨.identifier "x", 39⟩]),
    ("LOOP", [⟨.mark .minus, 53⟩, ⟨.identifier "LOOP", 54⟩])]⟩

theorem nestedMacros_twice (pos : Position) :
    nestedMacros.Expands [⟨.identifier "TWICE", pos⟩]
      [⟨.mark .minus, pos⟩, ⟨.mark .minus, pos⟩, ⟨.identifier "x", pos⟩,
        ⟨.mark .minus, pos⟩, ⟨.mark .minus, pos⟩, ⟨.identifier "x", pos⟩] 3 := by
  have minus (pos : Position) : nestedMacros.Keeps ⟨.mark .minus, pos⟩ :=
    fun _ isName => nomatch isName
  have plain : nestedMacros.Keeps ⟨.identifier "x", 39⟩ := by
    intro name isName
    cases isName
    rfl
  have half :
      nestedMacros.get? "HALF" = some [⟨.mark .minus, 38⟩, ⟨.identifier "x", 39⟩] := rfl
  have inner := MacroTable.Expands.keep (minus 38) (.keep plain .nil)
  exact .use (show nestedMacros.get? "TWICE" = some [_, _, _, _] from rfl)
    (.keep (minus 13) (.use half inner (.keep (minus 19) (.use half inner .nil)))) .nil

theorem nestedMacros_loop {tokens expanded : List Token} {uses : Nat}
    (expands : nestedMacros.Expands tokens expanded uses) :
    ∀ pos, ⟨.identifier "LOOP", pos⟩ ∉ tokens := by
  induction expands with
  | nil => nofun
  | keep kept _ induction =>
    intro pos member
    obtain rfl | behind := List.mem_cons.mp member
    · cases kept "LOOP" rfl
    · exact induction pos behind
  | use known _ _ inside behind =>
    intro pos member
    obtain same | member := List.mem_cons.mp member
    · cases same
      cases known
      exact inside 54 (by simp)
    · exact behind pos member

theorem nestedMacros_solid : nestedMacros.AreSolid := by
  intro name body expanded uses known expands
  have minus : ∃ pos rest, body = ⟨.mark .minus, pos⟩ :: rest := by
    obtain ⟨before, behind, entries, -⟩ := List.lookup_eq_some_iff.mp known
    have member : (name, body) ∈ nestedMacros.bodies := by simp [entries]
    simp only [nestedMacros, List.mem_cons, Prod.mk.injEq, List.not_mem_nil,
      or_false] at member
    obtain ⟨-, rfl⟩ | ⟨-, rfl⟩ | ⟨-, rfl⟩ := member
    all_goals exact ⟨_, _, rfl⟩
  obtain ⟨pos, rest, rfl⟩ := minus
  cases expands with
  | keep _ _ => exact ⟨List.cons_ne_nil _ _, rfl⟩

theorem nestedMacros_substituted :
    let sources : NameSources :=
      { target := default, registry := Registry.ofTarget default, macros := nestedMacros }
    (∃ settled, sources.resolve [⟨.identifier "TWICE", 60⟩] = (settled, []) ∧
      sources.Settles
        [⟨.mark .minus, 60⟩, ⟨.mark .minus, 60⟩, ⟨.identifier "x", 60⟩, ⟨.mark .minus, 60⟩,
          ⟨.mark .minus, 60⟩, ⟨.identifier "x", 60⟩] settled) ∧
    StopsAtUse nestedMacros (sources.resolve [⟨.identifier "LOOP", 60⟩]) := by
  intro sources
  refine ⟨(resolve_substitutes sources _).1 _ 3
    (nestedMacros_twice 60) ?_ nestedMacros_solid,
    (resolve_substitutes sources _).2 fun expanded uses expands => ?_⟩
  · decide
  · exact absurd List.mem_cons_self (nestedMacros_loop expands 60)

/-- No text is scanned into a name that carries a literal. -/
def literalName : Token := ⟨⟨.identifier, .constant { value := .int64 5 }⟩, 0⟩

/-- Such a token is no use of a macro, and it neither gets a meaning nor stands as it
did. -/
theorem literalName_altered :
    let sources : NameSources :=
  { target := default, registry := Registry.ofTarget default }
    sources.macros.Expands [literalName] [literalName] 0 ∧ sources.macros.AreSolid ∧
      sources.resolve [literalName] = ([⟨⟨.identifier, .none⟩, 0⟩], []) ∧
      (⟨⟨.identifier, .none⟩, 0⟩ : Token) ≠ literalName := by
  intro sources
  refine ⟨.keep (fun _ isName => ?_) .nil, fun _ _ _ _ known => ?_, rfl, by decide⟩
  · cases isName
  · cases known

end Token.NameSources

end GameScript
