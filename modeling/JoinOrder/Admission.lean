import JoinOrder.Collection
/-!
Which collections may be optimized: relations with distinct identities, integer tuple counts that
are not negative, and attributes that are texts, and not too many of them.
-/

namespace JoinOrder

namespace Relation

def checkTuples (r : Relation) : Except Error Unit :=
  match r.tuples with
  | .int n => if n < 0 then .error (.countNegative r.name.shown r.tuples.shown) else .ok ()
  | tuples => .error (.countNotInteger r.name.shown tuples.literal)

def checkAttributes (r : Relation) : Except Error Unit := do
  if r.attributes.toList.all Scalar.isText then return
  let wrong := r.listed.filter (!·.isText)
  throw (.attributesNotText r.name.shown (← (Item.group .list (wrong.map .scalar)).literal))

/-- The relation that an item is, if it is well formed. -/
def check : Item → Except Error Relation
  | .relation r => do
    r.checkTuples
    r.checkAttributes
    return r
  | item => do throw (.notRelation item.kindName (← item.literal))

end Relation

namespace RelationSet

/-- Identities that occur more than once, each in the form in which it comes first. -/
def repeatedIds : List Relation → List Scalar → List Scalar
  | [], found => found.reverse
  | r :: rest, found =>
    let isKnown := found.any fun id => id.atom == r.id.atom
    let comesAgain := rest.any fun s => s.id.atom == r.id.atom
    repeatedIds rest (if comesAgain && !isKnown then r.id :: found else found)

def checkIds (relations : List Relation) : Except Error Unit := do
  match repeatedIds relations [] with
  | [] => return
  | ids =>
    let sorted ← fitting (SortKey.sortBy? (fun id => .atom id.atom) ids)
    throw (.repeatedIds (Value.array (sorted.map .scalar)).literal)

/-- No limit at all is fine. -/
def checkSize (size : Nat) (limit : Value) : Except Error Unit := do
  if !limit.isNull then
    if ← fitting (limit.less? (.int size)) then throw (.tooManyRelations size limit.shown)

/-- The relations of a collection, if they can be optimized together. Each relation is looked at by
itself before they are compared with one another. -/
def checkAll (collection : Item) (limit : Value) : Except Error (List Relation) := do
  if !collection.isCollection then throw (.notRelations (← collection.literal))
  let relations ← (← collection.elements).mapM Relation.check
  if relations.isEmpty then throw .noRelations
  -- Repetitions are refused before the limit is looked at.
  checkIds relations
  checkSize relations.length limit
  return relations

def accept (collection : Item) (limit : Value) : Except Error RelationSet := do
  return IdSet.ofList (← checkAll collection limit)

end RelationSet

end JoinOrder
