import JoinOrder.Item
/-!
Exports items as plain values: scalars, lists and objects. Sets become lists ordered by the text of
their members; relations, plans and settings become objects.
-/

namespace JoinOrder

/-- Orders things by the texts that stand beside them, and keeps the order of ties. -/
def byText {α : Type} (texts : List (String × α)) : List α :=
  (texts.mergeSort fun a b => a.1 ≤ b.1).map (·.2)

namespace Relation

/-- The attributes are ordered by their texts; ties stay in the order in which they are listed. -/
def exported (r : Relation) : Value :=
  .object [("id", .scalar r.id), ("name", r.name), ("tuples", r.tuples),
    ("attributes", .array (byText (r.listed.map fun s => (s.shown, .scalar s))))]

end Relation

namespace Plan

def exported : Plan → Value
  | .scan r tuples => .object [("relation", r.exported), ("tuples", tuples)]
  | .join left right tuples =>
    .object [("left", left.exported), ("right", right.exported), ("tuples", tuples)]

end Plan

namespace Item

def isPlain : Item → Bool
  | .scalar _ | .group .list _ | .group .tuple _ | .object _ => true
  | _ => false

/-- Members of a set, each with its export, as a list ordered by their texts. -/
def arranged (members exports : List Item) : Item :=
  match members.mapM shown with
  | .ok texts => .group .list (byText (texts.zip exports))
  | .error e => .broken e

mutual

/-- The plain items that an item consists of. What has no such form is broken, and so is all that is
not plain already if nothing else is wanted. -/
def expanded (machine : Machine) (plainOnly : Bool) (item : Item) : Item :=
  if plainOnly && !item.isPlain then .broken .mismatch
  else
    match item with
    | .scalar s => .scalar s
    | .group .list members | .group .tuple members => .group .list (expandedAll machine plainOnly members)
    | .group (.set _) members | .group (.frozen _) members =>
      arranged members (expandedAll machine plainOnly members)
    | .object entries => .object (expandedEntries machine plainOnly entries)
    | .relation r => ofValue r.exported
    | .plan p => ofValue p.exported
    | .order o => text o.name
    | .path s => text s
    | .settings s =>
      match s.describe machine with
      | .ok v => ofValue v
      | .error e => .broken e
    | .proxy item => expanded machine plainOnly item
    | .broken e => .broken e
    | .group .stream _ | .group .view _ | .sealed => .broken .mismatch

def expandedAll (machine : Machine) (plainOnly : Bool) : List Item → List Item
  | [] => []
  | x :: xs => expanded machine plainOnly x :: expandedAll machine plainOnly xs

def expandedEntries (machine : Machine) (plainOnly : Bool) :
    List (String × Item) → List (String × Item)
  | [] => []
  | (name, x) :: rest =>
    (name, expanded machine plainOnly x) :: expandedEntries machine plainOnly rest

end

mutual

def value : Item → Except Error Value
  | .scalar s => .ok (.scalar s)
  | .group _ members => return .array (← values members)
  | .object entries => return .object (← entryValues entries)
  | .broken e => .error e
  | _ => .error .mismatch

def values : List Item → Except Error (List Value)
  | [] => .ok []
  | x :: xs => return (← value x) :: (← values xs)

def entryValues : List (String × Item) → Except Error (List (String × Value))
  | [] => .ok []
  | (name, x) :: rest => return (name, ← value x) :: (← entryValues rest)

end

mutual

def hasEntries : Item → Bool
  | .group _ members => anyHasEntries members
  | .object entries => !entries.isEmpty
  | _ => false

def anyHasEntries : List Item → Bool
  | [] => false
  | x :: xs => hasEntries x || anyHasEntries xs

end

end Item

end JoinOrder
