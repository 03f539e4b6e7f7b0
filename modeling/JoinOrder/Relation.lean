import JoinOrder.Natural
import JoinOrder.SlotTable
/-!
Base relations: a tuple count, a set of attributes, a name and an identity. Two relations are the
same if their identities are, whatever else they say. Sets find every relation again that they have;
but a relation whose identity is no number at all is equal to none, not even to itself.

Relations that come without an identity draw one from a counter, which also takes note of every
integer identity that was given by hand.
-/

namespace JoinOrder

instance : Identified Scalar := ⟨Scalar.atom⟩

abbrev Attributes := IdSet Scalar

structure Relation where
  id : Scalar
  name : Value
  tuples : Value
  attributes : Attributes
  /-- the attributes in the order in which their set lists them -/
  listed : List Scalar

/-- Sets tell relations apart by the atoms of their identities. -/
instance : Identified Relation := ⟨fun r => r.id.atom⟩

abbrev RelationSet := IdSet Relation

/-- The largest integer identity that was drawn or given so far. -/
structure IdCounter where
  largest : Int
deriving DecidableEq, Repr

namespace IdCounter

def start : IdCounter := ⟨0⟩

def draw (counter : IdCounter) : Int × IdCounter :=
  (counter.largest + 1, ⟨counter.largest + 1⟩)

/-- Truth values count as the integers they stand for; texts and fractions leave no note. -/
def reserve (counter : IdCounter) (id : Value) : IdCounter :=
  match id.int? with
  | some n => ⟨max counter.largest n⟩
  | none => counter

/-- The identity of a new relation: the given one, or the next one if there is none. -/
def take (counter : IdCounter) (id : Value) : Value × IdCounter :=
  if id.isNull then
    let (n, counter) := counter.draw
    (.int n, counter)
  else (id, counter.reserve id)

end IdCounter

namespace Attributes

/-- What a value has for attributes; arrays and objects cannot be among them. -/
def scalarsOf (v : Value) : Except Error (List Scalar) := do
  fitting ((← fitting v.elements?).mapM Value.scalar?)

def shared (a b : Attributes) : Nat := (a.inter b).size

/-- The attributes in natural order, which have to be texts. -/
def shown (attributes : Attributes) : Except Error String := do
  let sorted ← fitting (SortKey.sortBy? Natural.ofScalar attributes.toList)
  let names ← fitting (sorted.mapM fun s => (Value.scalar s).text?)
  return ", ".intercalate names

def sorted (attributes : Attributes) : Except Error (List Scalar) :=
  fitting (SortKey.sortBy? (fun s => .atom s.atom) attributes.toList)

end Attributes

namespace Relation

/-- Whether two relations are equal when they are compared. -/
def same (r s : Relation) : Bool := (identity r).equal (identity s)

theorem same_iff {r s : Relation} :
    r.same s = true ↔ identity r ≠ .undefined ∧ identity r = identity s := Atom.equal_iff

def defaultName (id : Value) : Except Error Value := do return .text ("T" ++ (← id.written))

/-- Builds a relation. The identity is taken before anything else is looked at, so an attempt that
fails has used it up. -/
def build (counter : IdCounter) (tuples attributes id name : Value) :
    Except Error Relation × IdCounter :=
  let (id, counter) := counter.take id
  let relation := do
    let scalars ← Attributes.scalarsOf attributes
    let name ← if name.truthy then .ok name else defaultName id
    let scalar ← fitting id.scalar?
    return ⟨scalar, name, tuples, IdSet.ofList scalars, (SlotTable.ofList scalars).members⟩
  (relation, counter)

/-- Reads a relation from an object. Tuples and attributes have to be there; without them no
identity is taken. -/
def ofValue (counter : IdCounter) : Value → Except Error Relation × IdCounter
  | .object entries =>
    match entries.lookup "tuples", entries.lookup "attributes" with
    | some tuples, some attributes =>
      build counter tuples attributes ((entries.lookup "id").getD .null)
        ((entries.lookup "name").getD .null)
    | _, _ => (.error .absentKey, counter)
  | _ => (.error .mismatch, counter)

def ofSpecs (counter : IdCounter) : List Value → Except Error (List Relation) × IdCounter
  | [] => (.ok [], counter)
  | spec :: specs =>
    match spec.elements? with
    | none => (.error .mismatch, counter)
    | some [tuples, attributes] =>
      match build counter tuples attributes .null .null with
      | (.error e, counter) => (.error e, counter)
      | (.ok relation, counter) =>
        let (rest, counter) := ofSpecs counter specs
        (rest.map (relation :: ·), counter)
    | some _ => (.error .unfit, counter)

/-- Relations are ordered naturally by name, ties by identity. -/
def sortKey (r : Relation) : SortKey := .tuple [Natural.ofValue r.name, .atom r.id.atom]

def sort? (relations : List Relation) : Option (List Relation) :=
  SortKey.sortBy? sortKey relations

def sort (relations : List Relation) : Except Error (List Relation) := fitting (sort? relations)

def shown (r : Relation) : Except Error String := do
  let attributes ← r.attributes.shown
  return r.name.shown ++ "[" ++ attributes ++ "]: " ++ (← r.tuples.written)

def literal (r : Relation) : Except Error String := do
  let id ← (Value.scalar r.id).written
  let name ← r.name.writtenLiteral
  let tuples ← r.tuples.written
  let attributes ← (← r.attributes.sorted).mapM fun s => (Value.scalar s).writtenLiteral
  return "Relation(id=" ++ id ++ ", name=" ++ name ++ ", tuples=" ++ tuples ++ ", attributes=[" ++
    ", ".intercalate attributes ++ "])"

end Relation

namespace RelationSet

/-- The names of relations that are in their order already. They have to be texts. -/
def namesInOrder (sorted : List Relation) : Except Error String := do
  let names ← fitting (sorted.mapM fun r => r.name.text?)
  return "\x7b" ++ ", ".intercalate names ++ "\x7d"

def names (relations : List Relation) : Except Error String := do
  namesInOrder (← Relation.sort relations)

def ids (relations : List Relation) : Except Error (List Scalar) := do
  return (← Relation.sort relations).map (·.id)

end RelationSet

end JoinOrder
