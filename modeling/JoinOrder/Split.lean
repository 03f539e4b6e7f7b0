import JoinOrder.Value
/-!
Ways to split a list in two, and its parts of one size.

Splits are numbered by bitmasks: bit `i` of a mask says whether element `i` goes to the left. Masks
are visited in increasing order and leave out the two that put everything on one side.
-/

namespace JoinOrder

inductive Order where
  /-- only masks that put the first element to the left: each unordered split once -/
  | canonical
  /-- all masks: each unordered split twice, once from either side -/
  | reference
deriving DecidableEq, Repr

namespace Order

def name : Order → String
  | .canonical => "canonical"
  | .reference => "reference"

def label : Order → String
  | .canonical => "Canonical"
  | .reference => "Reference"

def literal (order : Order) : String :=
  "<EnumerationOrder." ++ order.label ++ ": " ++ Text.quoted order.name ++ ">"

def ofValue (v : Value) : Except Error Order :=
  match [canonical, reference].find? fun order => v.text? = some order.name with
  | some order => .ok order
  | none => .error .unfit

/-- The mask that is visited after `i` others. -/
def mask : Order → Nat → Nat
  | .canonical, i => 2 * i + 1
  | .reference, i => i + 1

end Order

namespace Split

def count (order : Order) (n : Nat) : Nat :=
  if n < 2 then 0
  else
    match order with
    | .reference => Nat.pow 2 n - 2
    | .canonical => (Nat.pow 2 n - 2) / 2

/-- The same formula for a fractional number of elements. -/
def fractionalCount (order : Order) (x : Float) : Except Error Float := do
  let masks := Float.pow 2.0 x
  if masks.isInf && !x.isInf then throw .tooLarge
  match order with
  | .reference => return masks - 2.0
  | .canonical => return ((masks - 2.0) / 2.0).floor

def countOfValue (order : Order) (n : Value) : Except Error Value := do
  if ← fitting (n.less? (.int 2)) then return .int 0
  match n with
  | .real x => return .real (← fractionalCount order x)
  | n => return .int (count order (← fitting n.int?).toNat)

variable {α : Type}

/-- The elements whose bits are set, and the others. -/
def byMask : Nat → List α → List α × List α
  | _, [] => ([], [])
  | mask, x :: xs =>
    let (left, right) := byMask (mask / 2) xs
    if mask % 2 = 1 then (x :: left, right) else (left, x :: right)

def nth (order : Order) (xs : List α) (i : Nat) : List α × List α := byMask (order.mask i) xs

def first (k : Nat) (order : Order) (xs : List α) : List (List α × List α) :=
  (List.range (min k (count order xs.length))).map (nth order xs)

def all (order : Order) (xs : List α) : List (List α × List α) :=
  first (count order xs.length) order xs

end Split

namespace Subset

variable {α : Type}

/-- The parts of a list with `k` elements, in the order of their positions. -/
def ofSize : Nat → List α → List (List α)
  | 0, _ => [[]]
  | _ + 1, [] => []
  | k + 1, x :: xs => (ofSize k xs).map (x :: ·) ++ ofSize (k + 1) xs

/-- The first `limit` of them, without working out the others. -/
def firstOfSize : Nat → Nat → List α → List (List α)
  | 0, _, _ => []
  | _ + 1, 0, _ => [[]]
  | _ + 1, _ + 1, [] => []
  | limit + 1, k + 1, x :: xs =>
    if xs.length < k then []
    else
      let withFirst := (firstOfSize (limit + 1) k xs).map (x :: ·)
      withFirst ++ firstOfSize (limit + 1 - withFirst.length) (k + 1) xs

def all (xs : List α) : List (List α) := (List.range (xs.length + 1)).flatMap fun k => ofSize k xs

/-- The size of a part, given as a value. It has to be an integer, not negative, and each of so many
positions takes a word. -/
def sizeOfValue (machine : Machine) (v : Value) : Except Error Nat := do
  let n ← fitting v.int?
  if !Word.isSigned n then throw .tooLarge
  if n < 0 then throw .unfit
  if machine.memory ≤ n.toNat * Word.bytes then throw .outOfMemory
  return n.toNat

end Subset

end JoinOrder
