import JoinOrder.Proofs.Warnings
/-!
Sorted lists and their parts. A sort compares neighbours only, but what lies between two keys that it
has compared can be compared with both, so wherever a list could be sorted every part of it can.
-/

namespace JoinOrder

namespace SortKey

theorem comparableItems_cons_self (x : SortKey) (xs ys : List SortKey) :
    comparableItems (x :: xs) (x :: ys) = comparableItems xs ys := by
  rw [comparableItems, order_self]
  rfl

/-- Only the first place that differs is compared. -/
theorem comparableItems_cons_of_ne {x y : SortKey} (apart : x ≠ y) (xs ys : List SortKey) :
    comparableItems (x :: xs) (y :: ys) = comparable x y := by
  rw [comparableItems]
  cases between : order x y with
  | eq => exact absurd (eq_of_order between) apart
  | lt | gt => rfl

mutual

theorem comparable_symm {x y : SortKey} (h : comparable x y = true) : comparable y x = true := by
  cases x with
  | atom a =>
    cases y with
    | atom b =>
      simp only [comparable, Bool.or_eq_true, beq_iff_eq] at h ⊢
      exact h.imp Eq.symm Atom.comparable_symm
    | tuple ys => simp [comparable] at h
  | tuple xs =>
    cases y with
    | atom b => simp [comparable] at h
    | tuple ys =>
      simp only [comparable] at h ⊢
      exact comparableItems_symm h

theorem comparableItems_symm {xs ys : List SortKey} (h : comparableItems xs ys = true) :
    comparableItems ys xs = true := by
  cases xs with
  | nil => cases ys <;> rfl
  | cons x xs =>
    cases ys with
    | nil => rfl
    | cons y ys =>
      by_cases same : x = y
      · subst same
        rw [comparableItems_cons_self] at h ⊢
        exact comparableItems_symm h
      · rw [comparableItems_cons_of_ne same] at h
        rw [comparableItems_cons_of_ne (Ne.symm same)]
        exact comparable_symm h

end

mutual

/-- A key between two others that can be compared with both makes them comparable. -/
theorem comparable_trans {x y z : SortKey} (xy : (order x y).isLE = true)
    (yz : (order y z).isLE = true) (hxy : comparable x y = true) (hyz : comparable y z = true) :
    comparable x z = true := by
  cases x with
  | atom a =>
    cases y with
    | tuple ys => simp [comparable] at hxy
    | atom b =>
      cases z with
      | tuple zs => simp [comparable] at hyz
      | atom c =>
        simp only [comparable, Bool.or_eq_true, beq_iff_eq] at hxy hyz ⊢
        rcases hxy with rfl | hab
        · exact hyz
        · rcases hyz with rfl | hbc
          · exact .inr hab
          · exact .inr (Atom.comparable_trans hab hbc)
  | tuple xs =>
    cases y with
    | atom b => simp [comparable] at hxy
    | tuple ys =>
      cases z with
      | atom c => simp [comparable] at hyz
      | tuple zs =>
        simp only [comparable, order] at *
        exact comparableItems_trans xy yz hxy hyz

theorem comparableItems_trans {xs ys zs : List SortKey} (xy : (orderItems xs ys).isLE = true)
    (yz : (orderItems ys zs).isLE = true) (hxy : comparableItems xs ys = true)
    (hyz : comparableItems ys zs = true) : comparableItems xs zs = true := by
  cases xs with
  | nil => cases zs <;> rfl
  | cons x xs =>
    cases zs with
    | nil => rfl
    | cons z zs =>
      cases ys with
      | nil => simp [orderItems] at xy
      | cons y ys =>
        simp only [orderItems, Ordering.isLE_then_iff_or] at xy yz
        rcases xy with belowXY | ⟨same, xy⟩
        · have apart : x ≠ y := fun same => not_below_self y (same ▸ belowXY)
          rw [comparableItems_cons_of_ne apart] at hxy
          rcases yz with belowYZ | ⟨same, _⟩
          · have apart' : y ≠ z := fun same => not_below_self z (same ▸ belowYZ)
            have around : x ≠ z := by
              rintro rfl
              exact not_below_self x (below_trans belowXY belowYZ)
            rw [comparableItems_cons_of_ne apart'] at hyz
            rw [comparableItems_cons_of_ne around]
            exact comparable_trans (by rw [belowXY]; rfl) (by rw [belowYZ]; rfl) hxy hyz
          · rw [← eq_of_order same, comparableItems_cons_of_ne apart]
            exact hxy
        · obtain rfl := eq_of_order same
          rcases yz with belowYZ | ⟨same, yz⟩
          · have apart : x ≠ z := fun same => not_below_self z (same ▸ belowYZ)
            rw [comparableItems_cons_of_ne apart] at hyz ⊢
            exact hyz
          · obtain rfl := eq_of_order same
            rw [comparableItems_cons_self] at hxy hyz ⊢
            exact comparableItems_trans xy yz hxy hyz

end

/-- What a sort by keys has put in order can be compared throughout. -/
theorem comparable_of_sortBy? {α : Type} {key : α → SortKey} {xs sorted : List α}
    (found : sortBy? key xs = some sorted) :
    ∀ x ∈ sorted, ∀ y ∈ sorted, comparable (key x) (key y) = true := by
  obtain ⟨arrangement, neighbours⟩ := eq_arranged_of_sortBy? found
  have ordered := arranged_pairwise key xs
  rw [← arrangement] at ordered
  have forward : sorted.Pairwise fun x y => comparable (key x) (key y) = true := by
    clear found arrangement
    induction sorted with
    | nil => exact .nil
    | cons x rest ih =>
      obtain ⟨atMost, orderedRest⟩ := List.pairwise_cons.mp ordered
      cases rest with
      | nil => exact List.pairwise_singleton ..
      | cons y rest =>
        rw [linked, Bool.and_eq_true] at neighbours
        have others := ih neighbours.2 orderedRest
        refine List.pairwise_cons.mpr ⟨fun z member => ?_, others⟩
        rcases List.mem_cons.mp member with rfl | member
        · exact neighbours.1
        -- Keys further behind are reached by way of the next one.
        · exact comparable_trans (atMost_iff.mp (atMost y List.mem_cons_self))
            (atMost_iff.mp ((List.pairwise_cons.mp orderedRest).1 z member)) neighbours.1
            ((List.pairwise_cons.mp others).1 z member)
  intro x hx y hy
  exact forward.forall_of_forall_of_flip (fun x _ => comparable_self (key x))
    (forward.imp comparable_symm) hx hy

end SortKey

namespace Relation

variable {relations sorted : List Relation}

/-- Relations that have been sorted can be compared throughout. -/
theorem comparable_of_sort (ok : sort relations = .ok sorted) :
    ∀ r ∈ sorted, ∀ s ∈ sorted, r.sortKey.comparable s.sortKey = true :=
  SortKey.comparable_of_sortBy? (sort_eq_ok.mp ok)

end Relation

end JoinOrder
