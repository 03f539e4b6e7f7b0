/-!
Sorting by runs. A list is cut into runs that are sorted already, short ones are filled up by
insertion, and neighbouring runs are merged.

A comparison may contradict itself, as inclusion does if sets are listed by it. What comes out then
depends on which elements are compared, so this is part of the definitions here.
-/

namespace JoinOrder.RunSort

variable {α : Type}

/-! ### Searching -/

/-- The place between two numbers where a search by halves ends, which turns to the right at some
numbers. -/
def bisect (right : Nat → Bool) (lo hi : Nat) : Nat :=
  if lo < hi then
    let mid := lo + (hi - lo) / 2
    if right mid then bisect right (mid + 1) hi else bisect right lo mid
  else lo
termination_by hi - lo

/-- Goes on in strides that double, and gives the last number that was passed and the one where it
stopped. -/
def stride (goesOn : Nat → Bool) (limit last next : Nat) : Nat × Nat :=
  if next < limit && goesOn next then stride goesOn limit next (2 * next + 1)
  else (last, min next limit)
termination_by limit - next
decreasing_by simp_all; omega

/-- The place of something in a list, looked for from one element on, in strides to the side where it
has to be and then by halves. -/
def gallop (right : α → Bool) (xs : List α) (start : Nat) : Nat :=
  let turnsRight i := xs[i]?.any right
  if turnsRight start then
    let (last, next) := stride (fun k => turnsRight (start + k)) (xs.length - start) 0 1
    bisect turnsRight (start + last + 1) (start + next)
  else
    let (last, next) := stride (fun k => !turnsRight (start - k)) (start + 1) 0 1
    bisect turnsRight (start + 1 - next) (start - last)

variable (lt : α → α → Bool)

/-- How many elements at the beginning are not greater than `x`. -/
def countUpTo (x : α) (xs : List α) : Nat := gallop (fun y => !lt x y) xs 0

/-- How many elements at the beginning are smaller than `x`. -/
def countBelow (x : α) (xs : List α) : Nat := gallop (lt · x) xs 0

/-- How many elements at the end are greater than `x`. -/
def countAbove (x : α) (xs : List α) : Nat :=
  xs.length - gallop (fun y => !lt x y) xs (xs.length - 1)

/-- How many elements at the end are not smaller than `x`. -/
def countFrom (x : α) (xs : List α) : Nat := xs.length - gallop (lt · x) xs (xs.length - 1)

/-! ### Runs -/

/-- Puts an element behind all that are not greater. -/
def insert (sorted : List α) (x : α) : List α :=
  let place := bisect (fun i => sorted[i]?.any fun y => !lt x y) 0 sorted.length
  sorted.take place ++ x :: sorted.drop place

/-- The longest beginning in which every element is related to the one before it, and the rest. -/
def chain (related : α → α → Bool) (before : α) : List α → List α × List α
  | [] => ([], [])
  | x :: rest =>
    if related x before then
      let (others, rest) := chain related x rest
      (x :: others, rest)
    else ([], x :: rest)

/-- The first run of a list, turned around if it descends, and the rest. -/
def firstRun : List α → List α × List α
  | x :: y :: rest =>
    if lt y x then
      let (others, rest) := chain lt y rest
      ((x :: y :: others).reverse, rest)
    else
      let (others, rest) := chain (fun z before => !lt z before) y rest
      (x :: y :: others, rest)
  | xs => (xs, [])

/-- The first run, filled up to so many elements as long as there are any, and the rest. -/
def filledRun (least : Nat) (xs : List α) : List α × List α :=
  let (run, rest) := firstRun lt xs
  let missing := least - run.length
  ((rest.take missing).foldl (insert lt) run, rest.drop missing)

/-- How long runs are at least, so that a list of `n` elements has a number of them that is a power of
two or just below: the first six bits of `n`, and one more if any bit after them is set. -/
def leastRun (n carry : Nat) : Nat :=
  if n < 64 then n + carry else leastRun (n / 2) (max carry (n % 2))

/-! ### Merging

Two runs are merged element by element. If many in a row come from one side, they are counted by a
gallop instead, and so on as long as that pays. How many are many is learned on the way. -/

/-- From so many elements on a gallop pays. -/
def leastGallop : Nat := 7

/-- What was written so far, the last element first, and what is left of both runs. -/
structure Merging (α : Type) where
  out : List α
  left : List α
  right : List α

/-- How a merge goes on: it is over, or there is more to merge. -/
inductive Step (α : Type) where
  | over (merged : List α)
  | more (state : Merging α) (counts : Nat × Nat)

/-- Takes the smaller of the first elements. The last element of the left run is known to be the
greatest. -/
def takeFirst (fromLeft fromRight : Nat) : Merging α → Step α
  | ⟨out, x :: xs, y :: ys⟩ =>
    if lt y x then
      if ys.isEmpty then .over (out.reverse ++ y :: x :: xs)
      else .more ⟨y :: out, x :: xs, ys⟩ (0, fromRight + 1)
    else if xs.length = 1 then .over (out.reverse ++ x :: y :: (ys ++ xs))
    else .more ⟨x :: out, xs, y :: ys⟩ (fromLeft + 1, 0)
  | ⟨out, left, right⟩ => .over (out.reverse ++ (left ++ right))

/-- Takes all that comes before the first element on the right, that element, and all that comes before
the next element on the left together with it. -/
def gallopFirst : Merging α → Step α
  | ⟨out, left, y :: ys⟩ =>
    let k := countUpTo lt y left
    let out := (left.take k).reverse ++ out
    match left.drop k with
    | [] | [_] => .over (out.reverse ++ y :: (ys ++ left.drop k))
    | x :: xs =>
      let out := y :: out
      let m := countBelow lt x ys
      let out := (ys.take m).reverse ++ out
      let ys := ys.drop m
      if ys.isEmpty then .over (out.reverse ++ x :: xs)
      else if xs.length = 1 then .over (out.reverse ++ x :: (ys ++ xs))
      else .more ⟨x :: out, xs, ys⟩ (k, m)
  | ⟨out, left, []⟩ => .over (out.reverse ++ left)

/-- Takes the greater of the last elements. Both runs are turned around here, and the first element of
the right one is known to be the smallest. -/
def takeLast (fromLeft fromRight : Nat) : Merging α → Step α
  | ⟨out, x :: xs, y :: ys⟩ =>
    if lt y x then
      if xs.isEmpty then .over ((y :: ys).reverse ++ x :: out)
      else .more ⟨x :: out, xs, y :: ys⟩ (fromLeft + 1, 0)
    else if ys.length = 1 then .over (ys ++ ((x :: xs).reverse ++ y :: out))
    else .more ⟨y :: out, x :: xs, ys⟩ (0, fromRight + 1)
  | ⟨out, left, right⟩ => .over (right.reverse ++ (left.reverse ++ out))

/-- Takes all that comes after the last element on the right, that element, and all that comes after the
last element on the left together with it. -/
def gallopLast : Merging α → Step α
  | ⟨out, left, y :: ys⟩ =>
    let k := countAbove lt y left.reverse
    let out := (left.take k).reverse ++ out
    match left.drop k with
    | [] => .over ((y :: ys).reverse ++ out)
    | x :: xs =>
      let out := y :: out
      if ys.length = 1 then .over (ys ++ ((x :: xs).reverse ++ out))
      else
        let m := countFrom lt x ys.reverse
        let out := (ys.take m).reverse ++ out
        let ys := ys.drop m
        if ys.length ≤ 1 then .over (ys ++ ((x :: xs).reverse ++ out))
        else if xs.isEmpty then .over (ys.reverse ++ x :: out)
        else .more ⟨x :: out, xs, ys⟩ (k, m)
  | ⟨out, left, []⟩ => .over (left.reverse ++ out)

structure Taking (α : Type) where
  single : Nat → Nat → Merging α → Step α
  gallop : Merging α → Step α

/-- Merges until one run is used up. Every step takes at least one element, so there are no more steps
than elements. Galloping begins after so many elements from one side in a row as patience says; it
makes patience shorter as long as it pays, and longer when it does not. -/
def Taking.merge (taking : Taking α) : Nat → Bool → Nat → Nat × Nat → Merging α → List α × Nat
  | 0, _, patience, _, ⟨out, left, right⟩ => (out.reverse ++ (left ++ right), patience)
  | steps + 1, false, patience, (fromLeft, fromRight), state =>
    match taking.single fromLeft fromRight state with
    | .over merged => (merged, patience)
    | .more state counts =>
      if patience ≤ max counts.1 counts.2 then
        taking.merge steps true (patience + 1) (0, 0) state
      else taking.merge steps false patience counts state
  | steps + 1, true, patience, _, state =>
    let patience := if 1 < patience then patience - 1 else patience
    match taking.gallop state with
    | .over merged => (merged, patience)
    | .more state (k, m) =>
      if leastGallop ≤ max k m then taking.merge steps true patience (0, 0) state
      else taking.merge steps false (patience + 1) (0, 0) state

/-- Merges two neighbouring runs. Elements that are in their places already are left there, and the
shorter of the two is moved out of the way. -/
def merge (patience : Nat) (left right : List α) : List α × Nat :=
  match right, left.getLast? with
  | y :: _, some last =>
    let k := countUpTo lt y left
    let head := left.take k
    let left := left.drop k
    let m := right.length - countFrom lt (left.getLast?.getD last) right
    let tail := right.drop m
    match left.reverse, right.take m with
    | _, [] | [], _ => (head ++ (left ++ right), patience)
    | x :: xs, y :: ys =>
      let steps := left.length + m
      let (merged, patience) :=
        if left.length ≤ m then
          if ys.isEmpty then (y :: left, patience)
          else if left.length = 1 then (y :: (ys ++ left), patience)
          else
            (Taking.mk (takeFirst lt) (gallopFirst lt)).merge steps false patience (0, 0) ⟨[y], left, ys⟩
        else
          if xs.isEmpty then (y :: (ys ++ [x]), patience)
          else if ys.isEmpty then (y :: left, patience)
          else
            (Taking.mk (takeLast lt) (gallopLast lt)).merge steps false patience (0, 0)
              ⟨[x], xs, (y :: ys).reverse⟩
      (head ++ (merged ++ tail), patience)
  | _, _ => (left ++ right, patience)

/-! ### Which runs are merged -/

/-- A run that waits to be merged: where it begins, its elements, and how deep the border to the next
run lies in a tree of halves over the whole list. -/
structure Pending (α : Type) where
  start : Nat
  run : List α
  power : Nat

/-- How many bits two fractions of `n` have in common before the first in which they differ, and that
one. -/
def commonBits (n : Nat) : Nat → Nat → Nat → Nat
  | 0, _, _ => 0
  | bits + 1, a, b =>
    if n ≤ a then commonBits n bits (2 * (a - n)) (2 * (b - n)) + 1
    else if n ≤ b then 1
    else commonBits n bits (2 * a) (2 * b) + 1

def power (n : Nat) (run : Pending α) (next : Nat) : Nat :=
  let a := 2 * run.start + run.run.length
  commonBits n (n + 1) a (a + run.run.length + next)

/-- Merges the last runs whose borders lie deeper than so. The last run comes first. -/
def settle (depth patience : Nat) : List (Pending α) → List (Pending α) × Nat
  | last :: before :: rest =>
    if depth < before.power then
      let (run, patience) := merge lt patience before.run last.run
      settle depth patience ({ before with run } :: rest)
    else ({ last with power := depth } :: before :: rest, patience)
  | [last] => ([{ last with power := depth }], patience)
  | [] => ([], patience)
termination_by pending => pending.length

/-- Merges all that is left, the shorter neighbours first. -/
def collapse (patience : Nat) : List (Pending α) → List α
  | last :: before :: third :: rest =>
    if third.run.length < last.run.length then
      let (run, patience) := merge lt patience third.run before.run
      collapse patience (last :: { third with run } :: rest)
    else
      let (run, patience) := merge lt patience before.run last.run
      collapse patience ({ before with run } :: third :: rest)
  | [last, before] => (merge lt patience before.run last.run).1
  | [last] => last.run
  | [] => []
termination_by pending => pending.length

/-- Cuts a list into runs and merges them. There are no more runs than elements. -/
def sortRuns (n least : Nat) : Nat → Nat → Nat → List (Pending α) → List α → List α
  | 0, _, patience, pending, xs => collapse lt patience pending ++ xs
  | _ + 1, _, patience, pending, [] => collapse lt patience pending
  | runs + 1, start, patience, pending, xs =>
    let (run, rest) := filledRun lt least xs
    let depth := pending.head?.elim 0 fun last => power n last run.length
    let (pending, patience) := settle lt depth patience pending
    sortRuns n least runs (start + run.length) patience (⟨start, run, 0⟩ :: pending) rest

def sort (xs : List α) : List α :=
  sortRuns lt xs.length (leastRun xs.length 0) xs.length 0 leastGallop [] xs

end JoinOrder.RunSort
