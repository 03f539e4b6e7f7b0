import JoinOrder.Item.Order
/-!
Items as collections: a single item counts as a collection of itself, and texts are single items
here although they have characters.
-/

namespace JoinOrder

/-- All pairs of an element and a later one. -/
def pairsOf {α : Type} : List α → List (α × α)
  | [] => []
  | x :: xs => xs.map (x, ·) ++ pairsOf xs

namespace Item

def isCollection (item : Item) : Bool := item.text?.isNone && item.elements?.isSome

/-- The members of a collection; anything else is its own only member. -/
def members (item : Item) : List Item :=
  if item.isCollection then item.elements?.getD [] else [item]

/-- The pairs of elements that a double loop over a collection meets. A stream is read by both loops
at once: the inner one passes over the second element and uses up the rest. -/
def pairs : Item → Except Error (List (Item × Item))
  | .group .stream (first :: _ :: rest) => .ok (rest.map (first, ·))
  | .group .stream _ => .ok []
  | item => return pairsOf (← item.elements)

/-- All parts of a collection whose size is known beforehand, the small ones first. -/
def parts : Item → Except Error (List (List Item))
  | .group .stream _ => .error .mismatch
  | item => return Subset.all (← item.elements)

end Item

namespace Plan

/-- The node that joins exactly the members of a collection. A single item stands for itself, and
what is no relation is in no node. -/
def lookup (p : Plan) (collection : Item) : Except Error (Option Plan) :=
  let members := collection.members
  if !Item.allSettled members then .error .mismatch
  else
    match members.mapM Item.relation? with
    | some relations => .ok (p.find? (IdSet.ofList relations).identities)
    | none => .ok none

/-- A relation is in a plan if a leaf scans it, a collection if a node joins it. -/
def holds (p : Plan) : Item → Except Error Bool
  | .relation r => .ok (p.relations.contains (identity r))
  | item => return (← p.lookup item).isSome

end Plan

end JoinOrder
