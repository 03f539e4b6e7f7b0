import Mathlib
import JoinOrder.SortKey
/-!
The order of sort keys is a linear order, so a sort by keys has one result: the members of the list,
each as often as before, by increasing keys. It fails exactly if it meets two keys that cannot be
compared.
-/

namespace JoinOrder

namespace SortKey

/-! ### A linear order -/

mutual

theorem order_self (x : SortKey) : order x x = .eq := by
  cases x with
  | atom a => exact Atom.order_self a
  | tuple xs => exact orderItems_self xs

theorem orderItems_self (xs : List SortKey) : orderItems xs xs = .eq := by
  cases xs with
  | nil => rfl
  | cons x xs => rw [orderItems, order_self x, orderItems_self xs]; rfl

end

mutual

theorem order_swap (x y : SortKey) : order x y = (order y x).swap := by
  cases x with
  | atom a =>
    cases y with
    | atom b => exact Atom.order_swap a b
    | tuple ys => rfl
  | tuple xs =>
    cases y with
    | atom b => rfl
    | tuple ys => exact orderItems_swap xs ys

theorem orderItems_swap (xs ys : List SortKey) : orderItems xs ys = (orderItems ys xs).swap := by
  cases xs with
  | nil => cases ys <;> rfl
  | cons x xs =>
    cases ys with
    | nil => rfl
    | cons y ys =>
      rw [orderItems, orderItems, Ordering.swap_then, order_swap x y, orderItems_swap xs ys]

end

mutual

theorem eq_of_order {x y : SortKey} (same : order x y = .eq) : x = y := by
  cases x with
  | atom a =>
    cases y with
    | atom b =>
      have same : a.order b = .eq := same
      rw [Std.LawfulEqCmp.eq_of_compare same]
    | tuple ys => simp [order] at same
  | tuple xs =>
    cases y with
    | atom b => simp [order] at same
    | tuple ys =>
      have same : orderItems xs ys = .eq := same
      rw [eq_of_orderItems same]

theorem eq_of_orderItems {xs ys : List SortKey} (same : orderItems xs ys = .eq) : xs = ys := by
  cases xs with
  | nil =>
    cases ys with
    | nil => rfl
    | cons y ys => simp [orderItems] at same
  | cons x xs =>
    cases ys with
    | nil => simp [orderItems] at same
    | cons y ys =>
      rw [orderItems, Ordering.then_eq_eq] at same
      rw [eq_of_order same.1, eq_of_orderItems same.2]

end

theorem order_eq_iff {x y : SortKey} : order x y = .eq ↔ x = y :=
  ⟨eq_of_order, fun same => same ▸ order_self x⟩

mutual

theorem order_trans {x y z : SortKey} (xy : (order x y).isLE = true) (yz : (order y z).isLE = true) :
    (order x z).isLE = true := by
  cases x with
  | atom a =>
    cases z with
    | tuple zs => rfl
    | atom c =>
      cases y with
      | atom b => exact Atom.order_trans (b := b) xy yz
      | tuple ys => simp [order] at yz
  | tuple xs =>
    cases y with
    | atom b => simp [order] at xy
    | tuple ys =>
      cases z with
      | atom c => simp [order] at yz
      | tuple zs => exact @orderItems_trans xs ys zs xy yz

theorem orderItems_trans {xs ys zs : List SortKey} (xy : (orderItems xs ys).isLE = true)
    (yz : (orderItems ys zs).isLE = true) : (orderItems xs zs).isLE = true := by
  cases xs with
  | nil => cases zs <;> rfl
  | cons x xs =>
    cases ys with
    | nil => simp [orderItems] at xy
    | cons y ys =>
      cases zs with
      | nil => simp [orderItems] at yz
      | cons z zs =>
        simp only [orderItems, Ordering.isLE_then_iff_or] at xy yz ⊢
        rcases xy with below | ⟨same, xy⟩
        · have upTo : (order y z).isLE = true := by
            rcases yz with below | ⟨same, _⟩
            · rw [below]; rfl
            · rw [same]; rfl
          have atMost := order_trans (by rw [below]; rfl) upTo
          -- Were `x` and `z` one key, `y` would be above and not above it.
          cases between : order x z with
          | lt => exact .inl rfl
          | gt => rw [between] at atMost; contradiction
          | eq =>
            rw [← eq_of_order between, order_swap, below] at upTo
            contradiction
        · rw [eq_of_order same]
          rcases yz with below | ⟨same, yz⟩
          · exact .inl below
          · exact .inr ⟨same, orderItems_trans xy yz⟩

end

instance : Std.OrientedCmp order where
  eq_swap {x y} := order_swap x y

instance : Std.TransCmp order where
  isLE_trans := order_trans

instance : Std.LawfulEqCmp order where
  compare_self {x} := order_self x
  eq_of_compare := eq_of_order

abbrev Below (x y : SortKey) : Prop := order x y = .lt

theorem below_trans {x y z : SortKey} : Below x y → Below y z → Below x z :=
  Std.TransCmp.lt_trans

theorem not_below_self (x : SortKey) : ¬ Below x x := by
  rw [Below, order_self]
  exact Ordering.noConfusion

theorem atMost_iff {x y : SortKey} : atMost x y = true ↔ (order x y).isLE = true := by
  rw [atMost]
  cases order x y <;> decide

theorem below_of_atMost {x y : SortKey} (atMost : atMost x y = true) (different : x ≠ y) :
    Below x y := by
  rw [atMost_iff] at atMost
  cases between : order x y with
  | lt => exact between
  | eq => exact absurd (eq_of_order between) different
  | gt => rw [between] at atMost; contradiction

/-! ### Comparable keys -/

mutual

theorem comparable_self (x : SortKey) : comparable x x = true := by
  cases x with
  | atom a => simp [comparable]
  | tuple xs => exact comparableItems_self xs

theorem comparableItems_self (xs : List SortKey) : comparableItems xs xs = true := by
  cases xs with
  | nil => rfl
  | cons x xs => simpa [comparableItems, order_self] using comparableItems_self xs

end

/-! ### Sorting -/

section Sorting

variable {α : Type} {key : α → SortKey} {xs sorted : List α}

/-- A test of neighbours that passes for all pairs passes for the neighbours. -/
theorem linked_of_pairwise {test : α → α → Bool} (h : xs.Pairwise fun x y => test x y = true) :
    linked test xs = true := by
  induction xs with
  | nil => rfl
  | cons x xs ih =>
    cases xs with
    | nil => rfl
    | cons y ys =>
      have ⟨first, rest⟩ := List.pairwise_cons.mp h
      simp [linked, first y (by simp), ih rest]

theorem linked_map {β : Type} (test : β → β → Bool) (f : α → β) (xs : List α) :
    linked test (xs.map f) = linked (fun x y => test (f x) (f y)) xs := by
  induction xs with
  | nil => rfl
  | cons x xs ih =>
    cases xs with
    | nil => rfl
    | cons y ys =>
      rw [List.map_cons] at ih
      simp [linked, ih]

/-- The order in which a sort by keys lists what it is given. -/
def arranged (key : α → SortKey) (xs : List α) : List α :=
  ((xs.map fun x => (key x, x)).mergeSort fun a b => atMost a.1 b.1).map (·.2)

theorem arranged_perm (key : α → SortKey) (xs : List α) : (arranged key xs).Perm xs := by
  have perm := (List.mergeSort_perm (xs.map fun x => (key x, x)) fun a b => atMost a.1 b.1).map (·.2)
  simpa [arranged, Function.comp_def] using perm

/-- Every key still stands beside the element that it is the key of. -/
theorem keyed_arranged (key : α → SortKey) (xs : List α) :
    ((xs.map fun x => (key x, x)).mergeSort fun a b => atMost a.1 b.1) =
      (arranged key xs).map fun x => (key x, x) := by
  have perm := List.mergeSort_perm (xs.map fun x => (key x, x)) fun a b => atMost a.1 b.1
  rw [arranged, List.map_map]
  refine (List.map_id _).symm.trans (List.map_congr_left fun pair member => ?_)
  obtain ⟨x, _, rfl⟩ := List.mem_map.mp (perm.subset member)
  rfl

theorem arranged_pairwise (key : α → SortKey) (xs : List α) :
    (arranged key xs).Pairwise fun x y => atMost (key x) (key y) = true := by
  -- The order is total, although some keys cannot be compared by a sort.
  have sorted := @List.pairwise_mergeSort (SortKey × α) (fun a b => atMost a.1 b.1)
    (fun a b c ab bc => by
      rw [atMost_iff] at *
      exact order_trans ab bc)
    (fun a b => by
      rw [Bool.or_eq_true, atMost_iff, atMost_iff, order_swap b.1 a.1]
      cases order a.1 b.1 <;> decide)
    (xs.map fun x => (key x, x))
  rw [keyed_arranged, List.pairwise_map] at sorted
  exact sorted

theorem sortBy?_eq (key : α → SortKey) (xs : List α) :
    sortBy? key xs =
      if linked (fun x y => comparable (key x) (key y)) (arranged key xs) = true then
        some (arranged key xs)
      else none := by
  unfold sortBy?
  dsimp only
  rw [keyed_arranged, linked_map, List.map_map]
  simp [Function.comp_def]

theorem sortBy?_of_comparable
    (all : ∀ x ∈ xs, ∀ y ∈ xs, comparable (key x) (key y) = true) :
    sortBy? key xs = some (arranged key xs) := by
  have linked : linked (fun x y => comparable (key x) (key y)) (arranged key xs) = true := by
    refine linked_of_pairwise (List.pairwise_of_forall_mem_list fun x hx y hy => ?_)
    exact all x ((arranged_perm key xs).subset hx) y ((arranged_perm key xs).subset hy)
  rw [sortBy?_eq, if_pos linked]

theorem eq_arranged_of_sortBy? (found : sortBy? key xs = some sorted) :
    sorted = arranged key xs ∧ linked (fun x y => comparable (key x) (key y)) sorted = true := by
  rw [sortBy?_eq] at found
  split at found
  case isTrue linked =>
    cases found
    exact ⟨rfl, linked⟩
  case isFalse => contradiction

end Sorting

end SortKey

end JoinOrder
