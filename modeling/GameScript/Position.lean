import GameScript.Bisection
import GameScript.Number.Word

/-! Byte offsets in a source text, ranges of them, and their lines and columns. -/

namespace GameScript

/-- A byte offset from the start of the source. -/
abbrev Position := Nat

namespace Position

/-- The greatest offset that a position can hold. -/
def limit : Nat := Number.wordCount 32 - 1

/-- Offsets beyond the limit stay at the limit. -/
def ofOffset (offset : Nat) : Position := min offset limit

end Position

/-- The half-open range from `start` to `stop`. -/
structure Span where
  start : Position
  stop : Position
deriving DecidableEq, Repr

namespace Span

def length (span : Span) : Nat := span.stop - span.start

def isEmpty (span : Span) : Bool := span.stop ≤ span.start

end Span

/-- A value together with the range it was read from. -/
structure Spanned (α : Type) where
  value : α
  span : Span

namespace Spanned

def map (f : α → β) (spanned : Spanned α) : Spanned β := ⟨f spanned.value, spanned.span⟩

end Spanned

/-- Offsets at which the lines of a source start, in increasing order. -/
structure LineMap where
  starts : List Position
deriving DecidableEq, Repr

namespace LineMap

/-- Starts of the lines that follow the line feeds of `text`, which begins at
`offset`. -/
def startsAfter : List Char → Nat → List Position
  | [], _ => []
  | c :: rest, offset =>
    let next := offset + c.utf8Size
    if c = '\n' then Position.ofOffset next :: startsAfter rest next
    else startsAfter rest next

def ofText (text : String) : LineMap := ⟨0 :: startsAfter text.toList 0⟩

/-- Line and column of a position, both counted from one; columns count bytes. -/
def locate (lines : LineMap) (position : Position) : Nat × Nat :=
  let starts := lines.starts.toArray
  let reached (index : Nat) : Bool := starts[index]?.any (· ≤ position)
  let found := bisect reached 0 starts.size
  -- A position before all starts belongs to the first line.
  let index := if reached found then found else found - 1
  (index + 1, position - starts[index]?.getD 0 + 1)

end LineMap

end GameScript
