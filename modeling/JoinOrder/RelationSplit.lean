import JoinOrder.JoinGraph
/-!
Splits and subsets of collections of relations. The relations are brought into their order first, so
the results do not depend on the order of the collection.
-/

namespace JoinOrder.RelationSet

/-- At most so many splits. Without any to look for, the collection is not looked at. -/
def splits (order : Order) (limit : Option Nat) (collection : Item) :
    Except Error (List (RelationSet × RelationSet)) := do
  if limit = some 0 then return []
  let sorted ← Relation.sortItems collection
  let pairs :=
    match limit with
    | some k => Split.first k order sorted
    | none => Split.all order sorted
  return pairs.map fun (left, right) => (.ofList left, .ofList right)

def subsetsOfSize (machine : Machine) (size : Value) (limit : Option Nat) (collection : Item) :
    Except Error (List RelationSet) := do
  if limit = some 0 then return []
  let sorted ← Relation.sortItems collection
  let k ← Subset.sizeOfValue machine size
  let parts :=
    match limit with
    | some limit => Subset.firstOfSize limit k sorted
    | none => Subset.ofSize k sorted
  return parts.map IdSet.ofList

end JoinOrder.RelationSet
