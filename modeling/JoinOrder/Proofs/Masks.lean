import JoinOrder.Proofs.Split
/-!
The sequence of splits. Counting through all masks of a list lists its parts on the left side, each of
them once, and the mask that is as far from the end as another is from the beginning makes the same
split with its sides exchanged.

So the splits of the reference order read the same from both ends, and those of the canonical order are
the ones among them that have the first element on the left.
-/

namespace JoinOrder

namespace Split

variable {α : Type} {xs : List α}

/-- The splits under all masks, also the two that leave one side empty. -/
def full (xs : List α) : List (List α × List α) := (List.range (2 ^ xs.length)).map (byMask · xs)

theorem range_two_mul (n : Nat) :
    List.range (2 * n) = (List.range n).flatMap fun i => [2 * i, 2 * i + 1] := by
  induction n with
  | zero => rfl
  | succ n ih =>
    rw [Nat.mul_add, Nat.mul_one, List.range_succ, List.range_succ, ih, List.range_succ (n := n),
      List.flatMap_append]
    simp

/-- The lowest bit decides about the first element, the others about the rest. -/
theorem full_cons (x : α) (xs : List α) :
    full (x :: xs) = (full xs).flatMap fun part => [(part.1, x :: part.2), (x :: part.1, part.2)] := by
  rw [full, List.length_cons, Nat.pow_succ', range_two_mul, List.map_flatMap, full,
    List.flatMap_map]
  refine congrArg (fun f => List.flatMap f (List.range (2 ^ xs.length))) (funext fun mask => ?_)
  have odd : (2 * mask + 1) / 2 = mask := by omega
  simp [byMask_cons, odd]

/-- The left sides are the parts of the list. -/
theorem map_left_full (xs : List α) : (full xs).map Prod.fst = xs.sublists := by
  induction xs with
  | nil => rfl
  | cons x xs ih =>
    rw [full_cons, List.map_flatMap, List.sublists_cons, ← ih, List.bind_eq_flatMap, List.flatMap_map]
    rfl

theorem byMask_zero (xs : List α) : byMask 0 xs = ([], xs) := by
  induction xs with
  | nil => rfl
  | cons x xs ih => simp [byMask_cons, ih]

/-- What one mask puts to the left, the mask with the other bits puts to the right. -/
theorem byMask_opposite {mask : Nat} (low : mask < 2 ^ xs.length) :
    byMask (2 ^ xs.length - 1 - mask) xs = (byMask mask xs).swap := by
  induction xs generalizing mask with
  | nil => rfl
  | cons x xs ih =>
    rw [List.length_cons, Nat.pow_succ] at low
    have half : (2 ^ (xs.length + 1) - 1 - mask) / 2 = 2 ^ xs.length - 1 - mask / 2 := by
      rw [Nat.pow_succ]
      omega
    have parity : (2 ^ (xs.length + 1) - 1 - mask) % 2 = 1 ↔ mask % 2 ≠ 1 := by
      rw [Nat.pow_succ]
      omega
    rw [List.length_cons, byMask_cons, byMask_cons, half, ih (by omega)]
    by_cases odd : mask % 2 = 1
    · rw [if_neg (fun other => parity.mp other odd), if_pos odd]
      rfl
    · rw [if_pos (parity.mpr odd), if_neg odd]
      rfl

theorem byMask_ones (xs : List α) : byMask (2 ^ xs.length - 1) xs = (xs, []) := by
  have opposite := @byMask_opposite _ xs 0 (Nat.two_pow_pos _)
  rwa [byMask_zero] at opposite

/-! ### Both orders -/

theorem four_le_of_two_le {n : Nat} (two : 2 ≤ n) : 4 ≤ 2 ^ n :=
  Nat.pow_le_pow_right (n := 2) (by decide) two

/-- The reference order leaves out the first mask and the last. -/
theorem full_eq_reference (two : 2 ≤ xs.length) :
    full xs = ([], xs) :: (all .reference xs ++ [(xs, [])]) := by
  have four := four_le_of_two_le two
  obtain ⟨count, masks⟩ : ∃ count, 2 ^ xs.length = count + 2 := ⟨2 ^ xs.length - 2, by omega⟩
  have last : byMask (count + 1) xs = (xs, []) := by
    rw [← byMask_ones, masks]
    rfl
  have inner : Split.count .reference xs.length = count := by
    rw [count_reference two, masks]
    rfl
  rw [full, masks, List.range_succ_eq_map, List.map_cons, byMask_zero, List.range_succ, List.map_append,
    List.map_append, List.map_singleton, List.map_singleton, last, all_eq, inner, List.map_map]
  rfl

theorem full_eq_canonical (x : α) (some : xs ≠ []) :
    (full xs).map (fun part => (x :: part.1, part.2)) =
      all .canonical (x :: xs) ++ [(x :: xs, [])] := by
  have two : 2 ≤ (x :: xs).length := by
    have := List.length_pos_iff.mpr some
    rw [List.length_cons]
    omega
  obtain ⟨count, masks⟩ : ∃ count, 2 ^ xs.length = count + 1 :=
    Nat.exists_eq_add_one.mpr (Nat.two_pow_pos _)
  have inner : Split.count .canonical (x :: xs).length = count := by
    rw [count_canonical two, List.length_cons, Nat.pow_succ, masks]
    omega
  have odd (mask : Nat) : byMask (2 * mask + 1) (x :: xs) =
      (x :: (byMask mask xs).1, (byMask mask xs).2) := by
    have half : (2 * mask + 1) / 2 = mask := by omega
    rw [byMask_cons, if_pos (by omega), half]
  have last : byMask count xs = (xs, []) := by
    rw [← byMask_ones, masks]
    rfl
  rw [full, masks, List.range_succ, List.map_append, List.map_append, List.map_map, List.map_singleton,
    List.map_singleton, last, all_eq, inner]
  refine congrArg (· ++ _) (List.map_congr_left fun i _ => ?_)
  exact (odd i).symm

theorem length_all (order : Order) (xs : List α) : (all order xs).length = count order xs.length := by
  rw [all_eq, List.length_map, List.length_range]

/-- Read backwards, the reference order lists its splits with their sides exchanged. -/
theorem reverse_reference (xs : List α) :
    (all .reference xs).reverse = (all .reference xs).map Prod.swap := by
  apply List.ext_getElem
  · simp
  · intro i low _
    rw [List.length_reverse, length_all] at low
    have two := two_le_of_lt_count low
    have four := four_le_of_two_le two
    have masks := count_reference two
    have bound : count .reference xs.length - 1 - i + 1 = 2 ^ xs.length - 1 - (i + 1) := by omega
    simp only [List.getElem_reverse, List.getElem_map, length_all]
    simp only [all_eq, List.getElem_map, List.getElem_range, nth, Order.mask, bound]
    exact byMask_opposite (by omega)

/-- Of all splits, those of the canonical order have the first element on the left. -/
theorem filter_reference {x : α} {p : List α → Bool} (inside : ∀ ys, p (x :: ys) = true)
    (outside : ∀ ys, ys.Sublist xs → p ys = false) :
    (all .reference (x :: xs)).filter (fun part => p part.1) = all .canonical (x :: xs) := by
  cases xs with
  | nil => rfl
  | cons y rest =>
    have odd : (full (x :: y :: rest)).filter (fun part => p part.1) =
        (full (y :: rest)).map fun part => (x :: part.1, part.2) := by
      rw [full_cons, List.filter_flatMap]
      have one : ∀ part ∈ full (y :: rest),
          [(part.1, x :: part.2), (x :: part.1, part.2)].filter (fun part => p part.1) =
            [(x :: part.1, part.2)] := by
        intro part member
        obtain ⟨mask, _, rfl⟩ := List.mem_map.mp member
        have out := outside _ (byMask_sublist_left mask (y :: rest))
        simp [inside, out]
      rw [List.flatMap_congr one]
      exact List.flatMap_pure_eq_map ..
    rw [full_eq_canonical x (List.cons_ne_nil y rest), full_eq_reference (by simp),
      List.filter_cons_of_neg (by simpa using outside [] (List.nil_sublist _)), List.filter_append,
      List.filter_cons_of_pos (by simpa using inside (y :: rest)), List.filter_nil] at odd
    exact List.append_cancel_right odd

end Split

end JoinOrder
