import JoinOrder.Export
import JoinOrder.Frame
import JoinOrder.JoinGraph
import JoinOrder.Trie
/-!
Memo tables: the best plan known for each set of relations. A set is the same however it is put
together, so the increasing identities of its members serve as its key.

A table belongs to the configuration that it was bound to first, until it is reset.
-/

namespace JoinOrder

namespace Memo

structure Entry where
  relations : RelationSet
  /-- the relations in the order in which their set lists them -/
  listed : List Relation
  plan : Plan

instance : Inhabited Entry := ⟨⟨∅, [], default⟩⟩

end Memo

structure Memo where
  table : Trie Memo.Entry
  /-- nothing, as long as the table is not bound -/
  configuration : Value

namespace Memo

def empty : Memo := ⟨∅, .null⟩

instance : EmptyCollection Memo := ⟨empty⟩

instance : Inhabited Memo := ⟨empty⟩

variable (m : Memo)

def size : Nat := m.table.size

def shown : String := s!"MemoTable({m.size} entries)"

def find? (relations : RelationSet) : Option Plan :=
  (m.table.find? relations.identities).map (·.plan)

/-- Replaces the plan of a set. The members of the set stay those that came with its first plan. -/
def put (listed : List Relation) (plan : Plan) : Memo :=
  let relations : RelationSet := .ofList listed
  let renew : Option Entry → Entry
    | some old => { old with plan }
    | none => ⟨relations, listed, plan⟩
  { m with table := m.table.alter renew relations.identities }

/-- Replaces the plan of a set, which has to cover exactly that set. -/
def store (listed : List Relation) (plan : Plan) : Except Error Memo :=
  if plan.relations.same (.ofList listed) then .ok (m.put listed plan)
  else do throw (.otherRelations (← plan.shown) (← RelationSet.names listed))

/-- Binds the table, unless it is bound to something else. -/
def bind (configuration : Value) : Except Error Memo :=
  if m.configuration.isNull then .ok { m with configuration }
  else if m.configuration.same configuration then .ok m
  else .error (.boundElsewhere m.configuration.shown configuration.shown)

/-- Forgets all plans and the binding. -/
def reset (_ : Memo) : Memo := empty

/-! What callers hand over as a set of relations may be anything. Items that are no relations can be
looked for all the same, they are just in no set. -/

/-- The members of a collection that could be a key. -/
def keyMembers (collection : Item) : Except Error (List Item) := do
  let members ← collection.elements
  if Item.allSettled members then return members
  throw .mismatch

def lookup (collection : Item) : Except Error (Option Plan) := do
  match (← keyMembers collection).mapM Item.relation? with
  | some relations => return m.find? (.ofList relations)
  | none => return none

def contains (collection : Item) : Except Error Bool := do
  if collection.isCollection then return (← m.lookup collection).isSome
  return false

def get (collection : Item) : Except Error Plan := do
  match ← m.lookup collection with
  | some plan => return plan
  | none => throw (.notStored collection.literal.toOption)

def storeItem (collection plan : Item) : Except Error Memo := do
  let key ← Item.gather (.frozen SlotTable.leastSize) collection
  match plan, key.members.mapM Item.relation? with
  | .plan p, some listed => m.store listed p
  | .plan p, none => do
    let _ ← p.shown
    throw .absentMember
  | _, _ => throw .absentMember

/-- Small sets come first, sets of one size in the order of their relations. -/
def sortKey (relations : RelationSet) : Except Error SortKey := do
  let sorted ← Relation.sort relations.toList
  return .tuple [.atom (.ofInt relations.size), .tuple (sorted.map Relation.sortKey)]

def entries : Except Error (List Entry) := do
  let keyed ← m.table.values.mapM fun entry => return (← sortKey entry.relations, entry)
  return (← fitting (SortKey.sortBy? (·.1) keyed)).map (·.2)

def subsets : Except Error (List RelationSet) := do
  return (← m.entries).map (·.relations)

def Entry.row (entry : Entry) : Except Error Item := do
  let relations ← RelationSet.names entry.relations.toList
  let plan ← entry.plan.shown
  let cost ← entry.plan.cost
  return .object [("relations", .text relations), ("size", .scalar (.int entry.relations.size)),
    ("plan", .text plan), ("tuples", .ofValue entry.plan.tuples), ("cost", .ofValue cost)]

def frame : Except Error Frame := do
  Frame.ofItem (.group .list (← (← m.entries).mapM Entry.row))

def Entry.toItem (entry : Entry) : Item :=
  .object [("relations", .frozen (entry.listed.map .relation)), ("plan", .plan entry.plan)]

def toItem : Except Error Item := do
  return .object [("configuration", .ofValue m.configuration),
    ("entries", .group .list ((← m.entries).map Entry.toItem))]

end Memo

end JoinOrder
