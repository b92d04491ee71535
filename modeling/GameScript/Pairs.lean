/-! Finite maps as lists of pairs, in the order in which the keys arrived. -/

namespace GameScript

/-- Gives a key a value; a key that is already there keeps its place. -/
def putPair [DecidableEq κ] (key : κ) (value : α) : List (κ × α) → List (κ × α)
  | [] => [(key, value)]
  | entry :: rest =>
    if entry.1 = key then (key, value) :: rest else entry :: putPair key value rest

end GameScript
