import JoinOrder.Hash
import JoinOrder.IdSet
/-!
Tables in which every member has a slot of its own. A member asks for the slots that its hash leads
to, one after the other, and takes the first that is free. A table that has become too full is laid
out anew with more slots.

The members are listed by their slots. So what a table lists is some order of all the members that
were put in, and which one depends on how the table was made.
-/

namespace JoinOrder

instance {α : Type} [Identified α] : Hashed α where
  hash? x := Hash.ofAtom? (identity x)
  same x y := identity x == identity y

structure Seat (α : Type) where
  slot : Nat
  member : α

/-- The number of slots is a power of two. The seats are listed by their slots. -/
structure SlotTable (α : Type) where
  size : Nat
  seats : List (Seat α)
  /-- members without a hash, which take up room as well -/
  unseated : List α

namespace SlotTable

variable {α : Type}

def empty (size : Nat) : SlotTable α := ⟨size, [], []⟩

def leastSize : Nat := 8

def used (table : SlotTable α) : Nat := table.seats.length + table.unseated.length

def members (table : SlotTable α) : List α := table.seats.map (·.member) ++ table.unseated

/-! ### Finding a slot -/

def isFree (table : SlotTable α) (slot : Nat) : Bool :=
  table.seats.all fun seat => seat.slot ≠ slot

/-- Ten slots in a row are looked at, but only one where the table ends before that. -/
def row (table : SlotTable α) (slot : Nat) : List Nat :=
  if slot + 9 < table.size then List.range' slot 10 else [slot]

/-- The first free slot in the rows that a hash leads to. What is left of the hash decides where the
next row begins. -/
def freeSlot (table : SlotTable α) : Nat → Nat → Nat → Nat
  | 0, slot, _ => slot
  | rows + 1, slot, hash =>
    match (table.row slot).find? table.isFree with
    | some slot => slot
    | none =>
      let hash := hash / 32
      freeSlot table rows ((5 * slot + 1 + hash) % table.size) hash

/-- Thirteen rows use up a hash of 64 bits. From there on the rows go around the whole table. -/
def rowLimit (table : SlotTable α) : Nat := table.size + 13

def addSeat (seat : Seat α) : List (Seat α) → List (Seat α)
  | [] => [seat]
  | first :: rest =>
    if seat.slot < first.slot then seat :: first :: rest else first :: addSeat seat rest

theorem perm_addSeat (seat : Seat α) (seats : List (Seat α)) :
    (addSeat seat seats).Perm (seat :: seats) := by
  induction seats with
  | nil => exact .refl _
  | cons first rest ih =>
    unfold addSeat
    split
    · exact .refl _
    · exact (ih.cons first).trans (.swap seat first rest)

/-! ### Adding members -/

/-- Whether three out of five slots are taken. -/
def isCrowded (size used : Nat) : Bool := (size - 1) * 3 ≤ used * 5

def sizeFor (wanted : Nat) : Nat := max leastSize (Nat.pow 2 (wanted.log2 + 1))

/-- The number of slots of a table that is made for so many members at once. -/
def sizeAtOnce (members : Nat) : Nat :=
  if isCrowded leastSize members then sizeFor (2 * members) else leastSize

variable [Hashed α]

def place (table : SlotTable α) (x : α) : SlotTable α :=
  match Hashed.hash? x with
  | some hash =>
    let slot := table.freeSlot table.rowLimit (hash % table.size) hash
    { table with seats := addSeat ⟨slot, x⟩ table.seats }
  | none => { table with unseated := table.unseated ++ [x] }

def placeAll (table : SlotTable α) : List α → SlotTable α
  | [] => table
  | x :: rest => (table.place x).placeAll rest

def resize (table : SlotTable α) (size : Nat) : SlotTable α := (empty size).placeAll table.members

/-- A table that has become crowded is laid out anew. -/
def grow (table : SlotTable α) : SlotTable α :=
  let used := table.used
  if isCrowded table.size used then
    table.resize (sizeFor (if 50000 < used then used * 2 else used * 4))
  else table

def contains (table : SlotTable α) (x : α) : Bool := table.members.any (Hashed.same x)

/-- A member that is already there stays. -/
def insert (table : SlotTable α) (x : α) : SlotTable α :=
  if table.contains x then table else (table.place x).grow

def insertAll (table : SlotTable α) : List α → SlotTable α
  | [] => table
  | x :: rest => (table.insert x).insertAll rest

def ofList (xs : List α) : SlotTable α := (empty leastSize).insertAll xs

/-- A table made from another at once. With as many slots it has every member where it was. -/
def copy (table : SlotTable α) : SlotTable α :=
  let size := sizeAtOnce table.used
  if size = table.size then table else table.resize size

/-- A copy of a table that is known by the number of its slots and what it lists. -/
def copyListing (size : Nat) (members : List α) : Nat × List α :=
  let copySize := sizeAtOnce members.length
  (copySize, if copySize = size then members else ((empty copySize).placeAll members).members)

/-- Room for both tables is made first, as if they had nothing in common. -/
def union (a b : SlotTable α) : SlotTable α :=
  let table := a.copy
  let used := table.used + b.used
  (if isCrowded table.size used then table.resize (sizeFor (2 * used)) else table).insertAll b.members

/-! ### What is listed -/

theorem perm_place (table : SlotTable α) (x : α) :
    (table.place x).members.Perm (x :: table.members) := by
  unfold place
  split
  · exact ((perm_addSeat ..).map _).append_right _
  · rw [members, ← List.append_assoc]
    exact List.perm_append_singleton ..

theorem perm_placeAll (xs : List α) (table : SlotTable α) :
    (table.placeAll xs).members.Perm (xs ++ table.members) := by
  induction xs generalizing table with
  | nil => exact .refl _
  | cons x rest ih => exact (ih _).trans (((perm_place ..).append_left _).trans List.perm_middle)

theorem perm_resize (table : SlotTable α) (size : Nat) :
    (table.resize size).members.Perm table.members := by
  simpa [resize, empty, members] using perm_placeAll table.members (empty size)

theorem perm_grow (table : SlotTable α) : table.grow.members.Perm table.members := by
  unfold grow
  dsimp only
  split
  · exact perm_resize ..
  · exact .refl _

theorem perm_copy (table : SlotTable α) : table.copy.members.Perm table.members := by
  unfold copy
  dsimp only
  split
  · exact .refl _
  · exact perm_resize ..

theorem perm_insert {table : SlotTable α} {x : α} (fresh : table.contains x = false) :
    (table.insert x).members.Perm (x :: table.members) := by
  rw [insert, fresh]
  exact (perm_grow _).trans (perm_place ..)

end SlotTable

end JoinOrder
