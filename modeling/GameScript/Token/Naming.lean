import GameScript.Names
import GameScript.Token.Basic

/-! What the names of a text stand for.

A name is tried as a macro, as a function, as an asset, as a built-in constant
and as a variable, in this order. -/

namespace GameScript.Token

open Builtin Number

structure NameSources where
  target : Target
  registry : Registry
  macros : MacroTable := {}
  assets : AssetTable := {}

/-- Number of macro uses that are replaced in one text. -/
def expansionLimit : Nat := 4096

namespace NameSources

def lexeme (sources : NameSources) (name : String) (beforeParen : Bool) : Lexeme :=
  if beforeParen then .function name (sources.registry.function? name)
  else
    match sources.assets.get? name with
    | some asset =>
      .constant { value := .number (Double.ofInt asset.id), name := some name }
    | none =>
      match sources.registry.constant? name with
      | some value =>
        .constant
          { value := .number value, name := some name
            isBoolean :=
              sources.target.hasFunctions && (name == "true" || name == "false") }
      | none => .var name (sources.registry.lookup? name)

/-- Gives names a meaning up to the first macro use, which `onMacro` continues
with: it receives the use, the body and the tokens that follow. -/
def resolveUntilMacro (sources : NameSources)
    (onMacro : Token → String → List Token → List Token → List Token × List LexError) :
    List Token → List Token × List LexError
  | [] => ([], [])
  | token :: rest =>
    match token.lexeme with
    | .identifier name =>
      match sources.macros.get? name with
      | some body => onMacro token name body rest
      | none =>
        let beforeParen := rest.head?.any (·.isMark .parenOpen)
        let (resolved, errors) := sources.resolveUntilMacro onMacro rest
        (⟨sources.lexeme name beforeParen, token.pos⟩ :: resolved, errors)
    | ⟨.identifier, _⟩ =>
      let (resolved, errors) := sources.resolveUntilMacro onMacro rest
      (⟨⟨.identifier, .none⟩, token.pos⟩ :: resolved, errors)
    | _ =>
      let (resolved, errors) := sources.resolveUntilMacro onMacro rest
      (token :: resolved, errors)

/-- Gives names a meaning, replacing up to `budget` macro uses.  The tokens of a
body take the position of the use and are looked at again.  One use too many
ends the work. -/
def resolveWithin (sources : NameSources) : Nat → List Token → List Token × List LexError
  | 0 =>
    sources.resolveUntilMacro fun token name _ rest =>
      (token :: rest, [⟨token.pos, .macroDepth name⟩])
  | budget + 1 =>
    sources.resolveUntilMacro fun token _ body rest =>
      sources.resolveWithin budget (body.map (⟨·.lexeme, token.pos⟩) ++ rest)

def resolve (sources : NameSources) (tokens : List Token) : List Token × List LexError :=
  sources.resolveWithin expansionLimit tokens

end NameSources

end GameScript.Token
