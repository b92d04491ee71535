import GameScript.Listing
import GameScript.Outline.Source
import GameScript.Session

/-! Round trips: an entry is written as source text and compiled again. -/

namespace GameScript

open Bytecode

/-- An entry's text, and the listings of the entry and of what the text compiles to. -/
structure RoundTrip where
  text : String
  before : String
  after : String
deriving DecidableEq, Repr

inductive RoundTripError where
  | recovery (error : Outline.RecoveryError)
  | compile (error : EntryError)
  | listing (error : TableError)
deriving DecidableEq, Repr

namespace RoundTrip

def isSame (trip : RoundTrip) : Bool := trip.before == trip.after

/-- The round trip of an entry of a session.  The text is compiled alone, with the
tables and assets that the session started with and all functions that it knows
in the end. -/
def run (session : Session) (start tables : NameTables) (entry : CodeEntry) :
    Except RoundTripError RoundTrip := do
  let text ← (entry.source session.target tables none).mapError .recovery
  let fresh : Session :=
    { target := session.target, assets := start.assets, functions := session.functions }
  let (results, _, freshTables) := fresh.compile [⟨entry.name, text⟩] start
  match results with
  | .ok again :: _ =>
    let before ← (entry.listing tables).mapError .listing
    let after ← (again.listing freshTables).mapError .listing
    return ⟨text, before, after⟩
  | .error error :: _ => throw (.compile error)
  | [] => return ⟨text, "", ""⟩

end RoundTrip

end GameScript
