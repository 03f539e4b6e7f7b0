import JoinOrder.Atom
/-!
Keys to sort by: atoms, and tuples of keys that are compared from the left.

Keys of different kinds cannot be compared, so a sort may fail. `SortKey.order` is total all the
same; it ranks the kinds, and a sorted list was comparable throughout exactly if its neighbours are.
-/

namespace JoinOrder

inductive SortKey where
  | atom (a : Atom)
  | tuple (items : List SortKey)

namespace SortKey

@[match_pattern] abbrev text (s : String) : SortKey := .atom (.text s)

mutual

def order : SortKey → SortKey → Ordering
  | .atom a, .atom b => a.order b
  | .atom _, .tuple _ => .lt
  | .tuple _, .atom _ => .gt
  | .tuple xs, .tuple ys => orderItems xs ys

/-- A proper initial part comes first. -/
def orderItems : List SortKey → List SortKey → Ordering
  | [], [] => .eq
  | [], _ :: _ => .lt
  | _ :: _, [] => .gt
  | x :: xs, y :: ys => (order x y).then (orderItems xs ys)

end

mutual

/-- Equal keys are comparable, whatever they are. -/
def comparable : SortKey → SortKey → Bool
  | .atom a, .atom b => a == b || a.comparable b
  | .tuple xs, .tuple ys => comparableItems xs ys
  | _, _ => false

/-- Only the first place that differs is compared. -/
def comparableItems : List SortKey → List SortKey → Bool
  | x :: xs, y :: ys => if order x y == .eq then comparableItems xs ys else comparable x y
  | _, _ => true

end

def atMost (a b : SortKey) : Bool := order a b != .gt

/-- All neighbours satisfy a test. -/
def linked {α : Type} (test : α → α → Bool) : List α → Bool
  | x :: y :: rest => test x y && linked test (y :: rest)
  | _ => true

/-- Sorts by a key and keeps the order of ties; `none` if two keys cannot be compared. -/
def sortBy? {α : Type} (key : α → SortKey) (xs : List α) : Option (List α) :=
  let keyed := (xs.map fun x => (key x, x)).mergeSort fun a b => atMost a.1 b.1
  if linked (fun a b => comparable a.1 b.1) keyed then some (keyed.map (·.2)) else none

end SortKey

end JoinOrder
