import JoinOrder.Collection
import JoinOrder.Handles
/-!
Join graphs: relations are nodes, and an edge joins two of them that have an attribute in common.

A relation that is given twice stays twice in the list of relations but is one node; if it has
attributes at all it has an edge to itself.
-/

namespace JoinOrder

namespace Relation

def isIn (r : Relation) (relations : List Relation) : Bool :=
  relations.any fun s => identity s == identity r

/-- Of several relations with one identity the first stays. -/
def distinct (relations : List Relation) : List Relation :=
  relations.foldl (fun kept r => if r.isIn kept then kept else kept ++ [r]) []

/-- The relations that are given more than once. -/
def repetitions (relations : List Relation) : List Relation :=
  relations.filter fun r => 1 < relations.countP fun s => identity s == identity r

def ofItems (items : List Item) : Except Error (List Relation) :=
  match items.mapM Item.relation? with
  | some relations => .ok relations
  | none => .error .absentMember

def sortItems (collection : Item) : Except Error (List Relation) := do
  sort (← ofItems (← collection.elements))

end Relation

structure Edge where
  first : Relation
  second : Relation
  shared : Attributes

namespace Edge

/-- The end of an edge that is reached from a node. -/
def across (e : Edge) (node : Relation) : Option Relation :=
  if identity e.first == identity node then some e.second
  else if identity e.second == identity node then some e.first
  else none

def links (e : Edge) (a b : Relation) : Bool := (e.across a).any fun r => identity r == identity b

/-- Adds an edge to those found so far, the last of which comes first. If its ends are joined already,
what they are said to share is replaced. -/
def record (e : Edge) (found : List Edge) : List Edge :=
  if found.any (·.links e.first e.second) then
    found.map fun f => if f.links e.first e.second then { f with shared := e.shared } else f
  else e :: found

end Edge

structure JoinGraph where
  /-- all relations as given, in their order -/
  relations : List Relation
  /-- the relations without repetitions -/
  nodes : List Relation
  edges : List Edge

namespace JoinGraph

def edgesOf (relations : List Relation) : List Edge :=
  let repeated := Relation.repetitions relations
  let found := (pairsOf relations).foldl (fun found (first, second) =>
    let e : Edge := ⟨first, second, first.attributes.inter second.attributes⟩
    if e.shared.isEmpty then found
    -- Two relations that are given once each cannot be joined already.
    else if first.isIn repeated || second.isIn repeated then e.record found
    else e :: found) []
  found.reverse

/-- The graph of relations that are in their order already. -/
def ofSorted (relations : List Relation) : JoinGraph :=
  ⟨relations, Relation.distinct relations, edgesOf relations⟩

def ofItem (collection : Item) : Except Error JoinGraph := do
  return ofSorted (← Relation.sortItems collection)

variable (g : JoinGraph)

def size : Nat := g.relations.length

def shown : String := s!"JoinGraph({g.size} relations, {g.edges.length} edges)"

def neighbours (node : Relation) : List Relation := g.edges.filterMap (·.across node)

/-- The edges of each node in turn, without those to nodes whose turn is over. -/
def walkFrom (finished : List Relation) : List Relation → List Edge
  | [] => []
  | node :: rest =>
    let fresh := g.edges.filterMap fun e =>
      match e.across node with
      | some other => if other.isIn finished then none else some ⟨node, other, e.shared⟩
      | none => none
    fresh ++ walkFrom (node :: finished) rest

def walk : List Edge := g.walkFrom [] g.nodes

def grow (found : List Relation) : List Relation :=
  Relation.distinct (found ++ found.flatMap g.neighbours)

def growTimes : Nat → List Relation → List Relation
  | 0, found => found
  | n + 1, found =>
    -- A round that finds nothing new is the last one.
    let more := g.grow found
    if more.length = found.length then found else growTimes n more

/-- Everything that can be reached from a node, which no path needs more steps for than there are
nodes. -/
def reach (node : Relation) : List Relation := g.growTimes g.nodes.length [node]

def isConnected : Bool :=
  g.size ≤ 1 ||
    match g.nodes with
    | [] => true
    | node :: _ => (g.reach node).length == g.nodes.length

/-- The components in the order in which their first nodes are met. -/
def groups : List (List Relation) :=
  g.nodes.foldl (fun found node =>
    if found.any (node.isIn ·) then found else found ++ [g.reach node]) []

def components : Except Error (List RelationSet) := do
  let keyed ← g.groups.mapM fun group => do
    let sorted ← Relation.sort group
    return (SortKey.tuple ((sorted.take 1).map Relation.sortKey), IdSet.ofList group)
  return (← fitting (SortKey.sortBy? (·.1) keyed)).map (·.2)

/-- What two relations share, which is nothing if no edge joins them. -/
def sharedBetween (a b : Relation) : Attributes :=
  match g.edges.find? (·.links a b) with
  | some e => e.shared
  | none => ∅

/-- What two items share; only settled ones can be looked up. -/
def shared (a b : Item) : Except Error Attributes :=
  if !a.settled then .error .mismatch
  else
    match a.relation? with
    | none => .ok ∅
    | some first =>
      if !first.isIn g.nodes then .ok ∅
      else if !b.settled then .error .mismatch
      else .ok (b.relation?.elim ∅ (g.sharedBetween first))

def contains (item : Item) : Bool := item.relation?.any (·.isIn g.nodes)

/-- Whether an edge leads from one group to the other. The first group is read up to the first edge
that does, and everything read has to be a node. -/
def joinsBetween (second : List Relation) : List Relation → Except Error Bool
  | [] => .ok false
  | r :: rest =>
    if !r.isIn g.nodes then .error .absentKey
    else if (g.neighbours r).any (·.isIn second) then .ok true
    else joinsBetween second rest

def joins (first second : Item) : Except Error Bool := do
  let targets ← second.elements
  if !Item.allSettled targets then throw .mismatch
  let sources ← first.elements
  -- What comes after the first item that is no relation does not matter: that item ends the search.
  let known := (sources.takeWhile (·.relation?.isSome)).filterMap Item.relation?
  if ← g.joinsBetween (targets.filterMap Item.relation?) known then return true
  match sources.drop known.length with
  | [] => return false
  | item :: _ => throw (if item.settled then .absentKey else .mismatch)

/-- The relations of a plan, listed as the union of its sides lists them, and the joins whose sides no
edge connects. A side that is joined with itself brings nothing new. -/
def examine : Plan → Handles → Except Error (SlotTable Relation × List Plan)
  | .scan r _, _ => .ok (.ofList [r], [])
  | p@(.join left right _), handles => do
    let (leftHandles, rightHandles, isOne) := handles.sides
    let (leftTable, leftFound) ← examine left leftHandles
    let (rightTable, rightFound) ← examine right rightHandles
    let joined ← g.joinsBetween rightTable.members leftTable.members
    let table := if isOne then leftTable.copy else leftTable.union rightTable
    return (table, leftFound ++ rightFound ++ if joined then [] else [p])

def crossProducts (plan : Plan) (handles : Handles) : Except Error (List Plan) := do
  return (← g.examine plan handles).2

end JoinGraph

end JoinOrder
