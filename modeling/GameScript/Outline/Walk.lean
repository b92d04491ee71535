import GameScript.Outline.Basic

/-! Walks over the nodes of an outline, each node being met once. -/

namespace GameScript.Outline

/-- A walk from the waiting items on: `enter` may change the arena when an item's
node is met and says where the walk goes on.  Gives the nodes in the order in
which they were met, and the arena. -/
def walk (node : α → NodeId) (enter : Arena → α → Arena × List α) :
    Nat → List α → List NodeId → Arena → List NodeId × Arena
  | 0, _, met, arena => (met.reverse, arena)
  | _ + 1, [], met, arena => (met.reverse, arena)
  | fuel + 1, item :: waiting, met, arena =>
    if met.contains (node item) then walk node enter fuel waiting met arena
    else
      let (arena, next) := enter arena item
      walk node enter fuel (next ++ waiting) (node item :: met) arena

/-- More steps than a walk takes in which no node leads to more nodes than some
node of the arena has children. -/
def walkBound (arena : Arena) : Nat :=
  (arena.size + 1) *
    (arena.toList.foldr (fun node count => node.children.length + count) 0 + 1) + 1

def reachedBy (arena : Arena) (next : NodeId → List NodeId) (root : NodeId) :
    List NodeId :=
  (walk id (fun arena id => (arena, next id)) (walkBound arena) [root] [] arena).1

def reachable (arena : Arena) (root : NodeId) : List NodeId :=
  reachedBy arena arena.children root

end GameScript.Outline
