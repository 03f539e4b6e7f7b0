import JoinOrder.Hash
import JoinOrder.Plan
import JoinOrder.Settings
import JoinOrder.SlotTable
/-!
Items: whatever a caller may hand over before anybody has looked at it. Values nest in collections
of several kinds, next to relations, plans and settings.
-/

namespace JoinOrder

/-- How a collection was put together. Sets and views have no two equal members; a stream can be
read only once. Sets list their members in the order of a table with so many slots. -/
inductive Gathering where
  | list
  | tuple
  | set (slots : Nat)
  | frozen (slots : Nat)
  | stream
  | view
deriving DecidableEq, Repr

namespace Gathering

def isUnordered : Gathering → Bool
  | .set _ | .frozen _ | .view => true
  | _ => false

def slots? : Gathering → Option Nat
  | .set slots | .frozen slots => some slots
  | _ => none

def enclose (kind : Gathering) (members : List String) : String :=
  let inside := ", ".intercalate members
  match kind, members with
  | .list, _ => "[" ++ inside ++ "]"
  | .tuple, [single] => "(" ++ single ++ ",)"
  | .tuple, _ => "(" ++ inside ++ ")"
  | .set _, [] => "set()"
  | .set _, _ => "\x7b" ++ inside ++ "\x7d"
  | .frozen _, [] => "frozenset()"
  | .frozen _, _ => "frozenset(\x7b" ++ inside ++ "\x7d)"
  | .stream, _ => "<generator>"
  | .view, _ => "dict_keys([" ++ inside ++ "])"

end Gathering

inductive Item where
  | scalar (s : Scalar)
  | group (kind : Gathering) (members : List Item)
  | object (entries : List (String × Item))
  | relation (r : Relation)
  | plan (p : Plan)
  | order (order : Order)
  | path (s : String)
  | settings (s : Settings)
  /-- something that stands for another item when it is exported -/
  | proxy (item : Item)
  /-- something that nobody can look into -/
  | sealed
  /-- something that fails when it is exported -/
  | broken (e : Error)

namespace Item

instance : Inhabited Item := ⟨.scalar .null⟩

mutual

def ofValue : Value → Item
  | .scalar s => .scalar s
  | .array items => .group .list (ofValues items)
  | .object entries => .object (ofEntries entries)

def ofValues : List Value → List Item
  | [] => []
  | v :: vs => ofValue v :: ofValues vs

def ofEntries : List (String × Value) → List (String × Item)
  | [] => []
  | (name, v) :: rest => (name, ofValue v) :: ofEntries rest

end

def text (s : String) : Item := .scalar (.text s)

def natural (n : Nat) : Item := .scalar (.int n)

def isNull : Item → Bool
  | .scalar .null => true
  | _ => false

def text? : Item → Option String
  | .scalar (.text s) => some s
  | _ => none

def relation? : Item → Option Relation
  | .relation r => some r
  | _ => none

def truthy : Item → Bool
  | .scalar s => s.truthy
  | .group .stream _ => true
  | .group _ members => !members.isEmpty
  | .object entries => !entries.isEmpty
  | .plan p => !p.relations.isEmpty
  | _ => true

/-- What iterating over an item gives: the characters of a text, the names of an object, the
members of a collection. -/
def elements? : Item → Option (List Item)
  | .scalar (.text s) => some ((Text.letters s).map text)
  | .group _ members => some members
  | .object entries => some (entries.map fun e => text e.1)
  | _ => none

def elements (item : Item) : Except Error (List Item) := fitting item.elements?

mutual

/-- Only items that cannot change may be members of sets. -/
def settled : Item → Bool
  | .group .tuple members => allSettled members
  | .group (.frozen _) _ | .group .stream _ => true
  | .group _ _ | .object _ => false
  | .settings s => s.settled
  | _ => true

def allSettled : List Item → Bool
  | [] => true
  | x :: xs => settled x && allSettled xs

end

mutual

/-- Whether an item is taken for another one as a member of a collection. Sets agree whatever their kind
and order, lists and tuples only with their like. Streams and what nobody can look into agree with
nothing else. -/
def same : Item → Item → Bool
  | .scalar a, .scalar b => a.atom == b.atom
  | .group .list xs, .group .list ys | .group .tuple xs, .group .tuple ys => sameAll xs ys
  | .group k xs, .group l ys =>
    k.isUnordered && l.isUnordered && xs.length == ys.length && within xs ys
  | .object xs, .object ys => xs.length == ys.length && sameEntries xs ys
  | .relation r, .relation s => identity r == identity s
  | .plan p, .plan q => p.same q
  | .order a, .order b => a == b
  | .path s, .path t => s == t
  | .settings s, .settings t => s.same t
  | _, _ => false

def sameAll : List Item → List Item → Bool
  | [], [] => true
  | x :: xs, y :: ys => same x y && sameAll xs ys
  | _, _ => false

def within : List Item → List Item → Bool
  | [], _ => true
  | x :: xs, ys => ys.any (same x ·) && within xs ys

def sameEntries : List (String × Item) → List (String × Item) → Bool
  | [], _ => true
  | (name, x) :: rest, ys =>
    (match ys.lookup name with
      | some y => same x y
      | none => false) && sameEntries rest ys

end

/-- Of several equal items the first stays. -/
def distinct (items : List Item) : List Item :=
  items.foldl (fun kept item => if kept.any (same item ·) then kept else kept ++ [item]) []

mutual

/-- Hashes of items that are made of numbers, and of relations whose identities are. -/
def hash? : Item → Option Nat
  | .scalar s => Hash.ofAtom? s.atom
  | .relation r => Hash.ofAtom? (identity r)
  | .group .tuple members => return Hash.ofSequence (← hashes? members)
  | .group (.frozen _) members => return Hash.ofMembers (← hashes? members)
  | _ => none

def hashes? : List Item → Option (List Nat)
  | [] => some []
  | x :: xs => return (← hash? x) :: (← hashes? xs)

end

instance : Hashed Item := ⟨hash?, same⟩

/-- The number of slots and the members of a set that is made from a collection. -/
def tabled : Item → Except Error (Nat × List Item)
  | item => do
    let members ← item.elements
    if !allSettled members then throw .mismatch
    match item with
    | .group kind _ =>
      if let some slots := kind.slots? then return SlotTable.copyListing slots members
    | _ => pure ()
    let table := SlotTable.ofList members
    return (table.size, table.members)

/-- Gathers the elements of an item into a collection of a kind, whatever number of slots that names.
Members of sets and views have to be settled. A set that cannot change is taken as it is where such a
set is wanted. -/
def gather (kind : Gathering) (item : Item) : Except Error Item := do
  match kind with
  | .set _ => do
    let (slots, members) ← item.tabled
    return .group (.set slots) members
  | .frozen _ => do
    if item matches .group (.frozen _) _ then return item
    let (slots, members) ← item.tabled
    return .group (.frozen slots) members
  | .view => do
    let members ← item.elements
    if !allSettled members then throw .mismatch
    return .group .view (distinct members)
  | kind => return .group kind (← item.elements)

def frozen (members : List Item) : Item := .group (.frozen (SlotTable.sizeAtOnce members.length)) members

def kindName : Item → String
  | .scalar s => (Value.scalar s).kindName
  | .group .list _ => "list"
  | .group .tuple _ => "tuple"
  | .group (.set _) _ => "set"
  | .group (.frozen _) _ => "frozenset"
  | .group .stream _ => "generator"
  | .group .view _ => "dict_keys"
  | .object _ => "dict"
  | .relation _ => "Relation"
  | .plan _ => "JoinPlan"
  | .order _ => "EnumerationOrder"
  | .path _ => "PosixPath"
  | .settings _ => "OptimizerSettings"
  | .proxy _ | .sealed | .broken _ => "object"

mutual

def literal : Item → Except Error String
  | .scalar s => (Value.scalar s).writtenLiteral
  | .group kind members => return kind.enclose (← literals members)
  | .object entries => return "\x7b" ++ ", ".intercalate (← entryLiterals entries) ++ "\x7d"
  | .relation r => r.literal
  | .plan p => p.shown
  | .order o => .ok o.literal
  | .path s => .ok ("PosixPath(" ++ Text.quoted s ++ ")")
  | .settings s => .ok s.literal
  | .proxy _ | .sealed | .broken _ => .ok "<object>"

def literals : List Item → Except Error (List String)
  | [] => .ok []
  | x :: xs => return (← literal x) :: (← literals xs)

def entryLiterals : List (String × Item) → Except Error (List String)
  | [] => .ok []
  | (name, x) :: rest =>
    return (Text.quoted name ++ ": " ++ (← literal x)) :: (← entryLiterals rest)

end

def shown : Item → Except Error String
  | .scalar s => (Value.scalar s).written
  | .relation r => r.shown
  | .order o => .ok ("EnumerationOrder." ++ o.label)
  | .path s => .ok s
  | item => item.literal

/-- Joins the steps of a path; empty ones and single dots do not count. -/
def ofPath (s : String) : Item :=
  let steps := (s.splitOn "/").filter fun step => step ≠ "" && step ≠ "."
  let steps := "/".intercalate steps
  let root :=
    if s.startsWith "//" && !s.startsWith "///" then "//" else if s.startsWith "/" then "/" else ""
  .path (if root ++ steps = "" then "." else root ++ steps)

end Item

end JoinOrder
