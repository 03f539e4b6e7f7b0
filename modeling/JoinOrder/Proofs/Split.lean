import JoinOrder.Proofs.IdSet
import JoinOrder.Split
/-!
Every split of a list is a pair of parts that together have all its elements, each where it was, and
neither part is empty. Every way to tell elements apart is met from one side or the other, so every
proper part of a list is one half of a split.
-/

namespace JoinOrder

namespace Split

variable {α : Type}

/-! ### Masks -/

theorem byMask_cons (mask : Nat) (x : α) (xs : List α) :
    byMask mask (x :: xs) =
      if mask % 2 = 1 then (x :: (byMask (mask / 2) xs).1, (byMask (mask / 2) xs).2)
      else ((byMask (mask / 2) xs).1, x :: (byMask (mask / 2) xs).2) := rfl

theorem byMask_sublist_left (mask : Nat) (xs : List α) : (byMask mask xs).1.Sublist xs := by
  induction xs generalizing mask with
  | nil => exact .slnil
  | cons x xs ih =>
    rw [byMask_cons]
    split
    · exact (ih _).cons_cons x
    · exact (ih _).cons x

theorem byMask_sublist_right (mask : Nat) (xs : List α) : (byMask mask xs).2.Sublist xs := by
  induction xs generalizing mask with
  | nil => exact .slnil
  | cons x xs ih =>
    rw [byMask_cons]
    split
    · exact (ih _).cons x
    · exact (ih _).cons_cons x

theorem byMask_perm (mask : Nat) (xs : List α) :
    ((byMask mask xs).1 ++ (byMask mask xs).2).Perm xs := by
  induction xs generalizing mask with
  | nil => exact .refl _
  | cons x xs ih =>
    rw [byMask_cons]
    split
    · exact (ih _).cons x
    · exact List.perm_middle.trans ((ih _).cons x)

/-- Only the mask without any bits leaves the left side empty. -/
theorem byMask_left_ne_nil {mask : Nat} {xs : List α} (low : 0 < mask) (high : mask < 2 ^ xs.length) :
    (byMask mask xs).1 ≠ [] := by
  induction xs generalizing mask with
  | nil =>
    rw [List.length_nil, Nat.pow_zero] at high
    omega
  | cons x xs ih =>
    rw [byMask_cons]
    rw [List.length_cons, Nat.pow_succ] at high
    split
    · exact List.cons_ne_nil _ _
    · exact ih (by omega) (by omega)

/-- Only the mask with all bits leaves the right side empty. -/
theorem byMask_right_ne_nil {mask : Nat} {xs : List α} (high : mask + 1 < 2 ^ xs.length) :
    (byMask mask xs).2 ≠ [] := by
  induction xs generalizing mask with
  | nil =>
    rw [List.length_nil, Nat.pow_zero] at high
    omega
  | cons x xs ih =>
    rw [byMask_cons]
    rw [List.length_cons, Nat.pow_succ] at high
    split
    · exact ih (by omega)
    · exact List.cons_ne_nil _ _

/-- The mask that puts to the left what passes a test. -/
def maskOf (p : α → Bool) : List α → Nat
  | [] => 0
  | x :: xs => 2 * maskOf p xs + (p x).toNat

theorem byMask_maskOf (p : α → Bool) (xs : List α) :
    byMask (maskOf p xs) xs = (xs.filter p, xs.filter (!p ·)) := by
  induction xs with
  | nil => rfl
  | cons x xs ih =>
    rw [byMask_cons, maskOf]
    cases px : p x with
    | true =>
      have half : (2 * maskOf p xs + 1) / 2 = maskOf p xs := by omega
      simp [px, half, ih]
    | false => simp [px, ih]

theorem maskOf_lt (p : α → Bool) (xs : List α) : maskOf p xs < 2 ^ xs.length := by
  induction xs with
  | nil => exact Nat.one_pos
  | cons x xs ih =>
    rw [maskOf, List.length_cons, Nat.pow_succ]
    have := Bool.toNat_le (p x)
    omega

theorem maskOf_pos {p : α → Bool} {xs : List α} (some : ∃ x ∈ xs, p x = true) : 0 < maskOf p xs := by
  induction xs with
  | nil => simp at some
  | cons x xs ih =>
    rw [maskOf]
    cases px : p x with
    | true => simp
    | false =>
      have := ih (by simpa [px] using some)
      omega

theorem maskOf_add_one_lt {p : α → Bool} {xs : List α} (some : ∃ x ∈ xs, p x = false) :
    maskOf p xs + 1 < 2 ^ xs.length := by
  induction xs with
  | nil => simp at some
  | cons x xs ih =>
    rw [maskOf, List.length_cons, Nat.pow_succ]
    have bound := maskOf_lt p xs
    cases px : p x with
    | true =>
      have := ih (by simpa [px] using some)
      simp only [Bool.toNat_true]
      omega
    | false =>
      simp only [Bool.toNat_false]
      omega

/-! ### Splits -/

variable {order : Order} {xs : List α}

theorem count_reference {n : Nat} (two : 2 ≤ n) : count .reference n = 2 ^ n - 2 := by
  rw [count, if_neg (by omega)]
  rfl

theorem count_canonical {n : Nat} (two : 2 ≤ n) : count .canonical n = (2 ^ n - 2) / 2 := by
  rw [count, if_neg (by omega)]
  rfl

theorem count_pos (order : Order) {n : Nat} (two : 2 ≤ n) : 0 < count order n := by
  have : 2 ^ 2 ≤ 2 ^ n := Nat.pow_le_pow_right (by decide) two
  cases order with
  | canonical => rw [count_canonical two]; omega
  | reference => rw [count_reference two]; omega

theorem two_le_of_lt_count {n i : Nat} (h : i < count order n) : 2 ≤ n := by
  unfold count at h
  split at h <;> omega

theorem mask_bounds {n i : Nat} (h : i < count order n) :
    0 < order.mask i ∧ order.mask i + 1 < 2 ^ n := by
  have two := two_le_of_lt_count h
  cases order with
  | canonical =>
    rw [count_canonical two] at h
    simp only [Order.mask]
    omega
  | reference =>
    rw [count_reference two] at h
    simp only [Order.mask]
    omega

theorem all_eq (order : Order) (xs : List α) :
    all order xs = (List.range (count order xs.length)).map (nth order xs) := by
  rw [all, first, Nat.min_self]

theorem mem_all {part : List α × List α} :
    part ∈ all order xs ↔ ∃ i < count order xs.length, nth order xs i = part := by
  simp [all_eq]

structure IsSplit (part : List α × List α) (xs : List α) : Prop where
  sublist_left : part.1.Sublist xs
  sublist_right : part.2.Sublist xs
  perm : (part.1 ++ part.2).Perm xs
  left_ne_nil : part.1 ≠ []
  right_ne_nil : part.2 ≠ []

theorem isSplit_nth {i : Nat} (h : i < count order xs.length) : IsSplit (nth order xs i) xs where
  sublist_left := byMask_sublist_left ..
  sublist_right := byMask_sublist_right ..
  perm := byMask_perm ..
  left_ne_nil := byMask_left_ne_nil (mask_bounds h).1 (Nat.lt_of_succ_lt (mask_bounds h).2)
  right_ne_nil := byMask_right_ne_nil (mask_bounds h).2

theorem isSplit_of_mem {part : List α × List α} (h : part ∈ all order xs) : IsSplit part xs := by
  obtain ⟨i, bound, rfl⟩ := mem_all.mp h
  exact isSplit_nth bound

namespace IsSplit

variable {part : List α × List α}

theorem length_add (h : IsSplit part xs) : part.1.length + part.2.length = xs.length := by
  rw [← List.length_append]
  exact h.perm.length_eq

theorem length_left_pos (h : IsSplit part xs) : 0 < part.1.length :=
  List.length_pos_iff.mpr h.left_ne_nil

theorem length_right_pos (h : IsSplit part xs) : 0 < part.2.length :=
  List.length_pos_iff.mpr h.right_ne_nil

theorem length_left_lt (h : IsSplit part xs) : part.1.length < xs.length := by
  have := h.length_add
  have := h.length_right_pos
  omega

theorem length_right_lt (h : IsSplit part xs) : part.2.length < xs.length := by
  have := h.length_add
  have := h.length_left_pos
  omega

end IsSplit

/-! ### Every split is met -/

theorem mem_all_of_mask {mask i : Nat} (h : order.mask i = mask) (low : 0 < mask)
    (high : mask + 1 < 2 ^ xs.length) : byMask mask xs ∈ all order xs := by
  refine mem_all.mpr ⟨i, ?_, by rw [nth, h]⟩
  have two : 2 ≤ xs.length := by
    rcases Nat.lt_or_ge xs.length 2 with small | two
    · have : 2 ^ xs.length ≤ 2 ^ 1 := Nat.pow_le_pow_right (by decide) (by omega)
      omega
    · exact two
  cases order with
  | reference =>
    rw [count_reference two]
    simp only [Order.mask] at h
    omega
  | canonical =>
    -- The largest mask is odd as well, so an odd one below it is smaller by two.
    rw [count_canonical two]
    simp only [Order.mask] at h
    obtain ⟨n, length⟩ := Nat.exists_eq_add_of_le' two
    rw [length, Nat.pow_succ] at high ⊢
    omega

theorem mem_all_reference (p : α → Bool) (left : ∃ x ∈ xs, p x = true)
    (right : ∃ x ∈ xs, p x = false) : (xs.filter p, xs.filter (!p ·)) ∈ all .reference xs := by
  rw [← byMask_maskOf]
  have low := maskOf_pos left
  exact mem_all_of_mask (i := maskOf p xs - 1) (Nat.sub_add_cancel low) low (maskOf_add_one_lt right)

/-- The canonical order meets the splits that have the first element on the left. -/
theorem mem_all_canonical (p : α → Bool) {x : α} (first : p x = true)
    (right : ∃ y ∈ xs, p y = false) :
    ((x :: xs).filter p, (x :: xs).filter (!p ·)) ∈ all .canonical (x :: xs) := by
  rw [← byMask_maskOf]
  have mask : maskOf p (x :: xs) = 2 * maskOf p xs + 1 := by rw [maskOf, first]; rfl
  obtain ⟨y, member, fails⟩ := right
  exact mem_all_of_mask (i := maskOf p xs) mask.symm (by omega)
    (maskOf_add_one_lt ⟨y, List.mem_cons_of_mem x member, fails⟩)

/-- Every way to tell elements apart is met from one side at least. -/
theorem mem_all_of_test (order : Order) (p : α → Bool) (left : ∃ x ∈ xs, p x = true)
    (right : ∃ x ∈ xs, p x = false) :
    (xs.filter p, xs.filter (!p ·)) ∈ all order xs ∨
      (xs.filter (!p ·), xs.filter p) ∈ all order xs := by
  cases order with
  | reference => exact .inl (mem_all_reference p left right)
  | canonical =>
    cases xs with
    | nil => simp at left
    | cons x xs =>
      cases px : p x with
      | true =>
        refine .inl (mem_all_canonical p px ?_)
        simpa [px] using right
      -- The first element is always on the left here, so the sides are met the other way round.
      | false =>
        have turned := @mem_all_canonical _ xs (fun y => !p y) x (by simp [px])
          (by simpa [px] using left)
        exact .inr (by simpa using turned)

/-- Every proper part of a list is one side of a split. -/
theorem exists_side [Identified α] (order : Order) {ys : List α} (distinct : Distinct xs)
    (sub : ys.Sublist xs) (some : ys ≠ []) (proper : ys ≠ xs) :
    ∃ part ∈ all order xs, part.1 = ys ∨ part.2 = ys := by
  have parts := distinct.eq_filter sub
  generalize (fun x : α => (ys.map identity).contains (identity x)) = p at parts
  have left : ∃ x ∈ xs, p x = true := by
    obtain ⟨x, member⟩ := List.exists_mem_of_ne_nil ys some
    rw [parts] at member
    exact ⟨x, List.mem_filter.mp member⟩
  have right : ∃ x ∈ xs, p x = false := by
    by_contra none
    refine proper (parts.trans (List.filter_eq_self.mpr fun x member => ?_))
    cases px : p x with
    | true => rfl
    | false => exact absurd ⟨x, member, px⟩ none
  rcases mem_all_of_test order p left right with met | met
  · exact ⟨_, met, .inl parts.symm⟩
  · exact ⟨_, met, .inr parts.symm⟩

end Split

namespace Subset

variable {α : Type}

/-- The parts of one size are those that other enumerations give, in another order. -/
theorem ofSize_perm (k : Nat) (xs : List α) : (ofSize k xs).Perm (List.sublistsLen k xs) := by
  induction xs generalizing k with
  | nil => cases k <;> simp [ofSize]
  | cons x xs ih =>
    cases k with
    | zero => simp [ofSize]
    | succ k =>
      rw [ofSize, List.sublistsLen_succ_cons]
      exact (((ih k).map _).append (ih (k + 1))).trans List.perm_append_comm

theorem mem_ofSize {k : Nat} {xs ys : List α} :
    ys ∈ ofSize k xs ↔ ys.Sublist xs ∧ ys.length = k := by
  rw [(ofSize_perm k xs).mem_iff, List.mem_sublistsLen]

theorem nodup_ofSize (k : Nat) {xs : List α} (nodup : xs.Nodup) : (ofSize k xs).Nodup :=
  (ofSize_perm k xs).nodup_iff.mpr (List.nodup_sublistsLen k nodup)

end Subset

end JoinOrder
