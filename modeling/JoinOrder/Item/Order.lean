import JoinOrder.Item
import JoinOrder.RunSort
import JoinOrder.SortKey
/-!
The order of items. Items of one kind may be comparable: numbers by size, texts and paths by code
points, lists and tuples by the first place where they differ, sets by inclusion. Items that are not
are ranked by their kinds, where an order of all items is needed.
-/

namespace JoinOrder.Item

/-- The steps of a path, its root being one of them. -/
def pathSteps (s : String) : List String :=
  let root := s.toList.takeWhile (· = '/')
  let steps := (s.splitOn "/").filter fun step => step ≠ "" && step ≠ "."
  if root.isEmpty then steps else String.ofList root :: steps

def isSet : Gathering → Bool
  | .set _ | .frozen _ | .view => true
  | _ => false

mutual

def less? : Item → Item → Option Bool
  | .scalar a, .scalar b => a.less? b
  | .group .list xs, .group .list ys | .group .tuple xs, .group .tuple ys => lessItems? xs ys
  | .group k xs, .group l ys =>
    if isSet k && isSet l then some (xs.length < ys.length && within xs ys) else none
  | .path s, .path t => some (decide (pathSteps s < pathSteps t))
  | _, _ => none

def lessItems? : List Item → List Item → Option Bool
  | _, [] => some false
  | [], _ :: _ => some true
  | x :: xs, y :: ys => if same x y then lessItems? xs ys else less? x y

end

def rank : Item → Nat
  | .scalar .null => 0
  | .proxy _ | .sealed | .broken _ => 1
  | .scalar (.bool _) => 2
  | .relation _ => 3
  | .plan _ => 4
  | .settings _ => 5
  | .object _ => 6
  | .group .view _ => 7
  | .scalar (.real _) => 8
  | .group (.frozen _) _ => 9
  | .group .stream _ => 10
  | .scalar (.int _) => 11
  | .group .list _ => 12
  | .path _ => 13
  | .group (.set _) _ => 14
  | .scalar (.text _) => 15
  | .group .tuple _ => 16
  | .order _ => 17

/-- Comparable items are compared, all others ranked. -/
def before (a b : Item) : Bool := (less? a b).getD (a.rank < b.rank)

def arrange {α : Type} (item : α → Item) (xs : List α) : List α :=
  RunSort.sort (fun a b => before (item a) (item b)) xs

def ascending (members : List Item) : Except Error (List Item) :=
  let sorted := arrange id members
  if SortKey.linked (fun a b => (less? a b).isSome) sorted then .ok sorted else .error .mismatch

end JoinOrder.Item
