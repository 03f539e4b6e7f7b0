import JoinOrder.Proofs.EitherOrder
import JoinOrder.Proofs.Halvings
import JoinOrder.Proofs.Neighbours
/-!
How few tuples a join tree over some relations can have, where every attribute in common halves. This is
what the best plan has, and it says how groups of relations go together: two groups have a tree that
joins the best trees of both, and if they have no attribute in common, no tree is better than that. So
what belongs to one group only can be joined with that group at any time, the earlier the fewer bits are
rounded off.
-/

namespace JoinOrder

open CostModel Plan Search JoinGraph

variable {order : Order} {xs ys zs xs' ys' : List Relation}

/-! ### Relations without attributes in common -/

theorem attributesOf_disjoint_iff :
    Disjoint (attributesOf xs) (attributesOf ys) ↔ ¬ Bridged xs ys := by
  rw [Finset.disjoint_left]
  simp only [mem_attributesOf, Bridged, Relation.Touches]
  constructor
  · rintro apart ⟨r, inLeft, s, inRight, a, has, has'⟩
    exact apart ⟨r, inLeft, has⟩ ⟨s, inRight, has'⟩
  · rintro apart a ⟨r, inLeft, has⟩ ⟨s, inRight, has'⟩
    exact apart ⟨r, inLeft, s, inRight, a, has, has'⟩

theorem common_nil_left (xs : List Relation) : common [] xs = 0 := by simp [common, attributesOf]

theorem common_nil_right (xs : List Relation) : common xs [] = 0 := by simp [common, attributesOf]

theorem common_eq_zero (apart : ¬ Bridged xs ys) : common xs ys = 0 := by
  rw [common, Finset.disjoint_iff_inter_eq_empty.mp (attributesOf_disjoint_iff.mpr apart)]
  exact Finset.card_empty

theorem common_append_of_apart (apart : ¬ Bridged xs ys) (zs : List Relation) :
    common xs (ys ++ zs) = common xs zs := by
  have disjoint := Finset.disjoint_iff_inter_eq_empty.mp (attributesOf_disjoint_iff.mpr apart)
  rw [common, attributesOf_append, Finset.inter_union_distrib_left, disjoint, Finset.empty_union,
    common]

/-- Groups without attributes in common have each their own in common with a third one. -/
theorem common_append_left (apart : ¬ Bridged xs ys) (zs : List Relation) :
    common (xs ++ ys) zs = common xs zs + common ys zs := by
  have disjoint := attributesOf_disjoint_iff.mpr apart
  rw [common, attributesOf_append, Finset.union_inter_distrib_right,
    Finset.card_union_of_disjoint (disjoint.mono Finset.inter_subset_left Finset.inter_subset_left),
    common, common]

theorem bridged_mono (h : Bridged xs ys) (left : xs ⊆ xs') (right : ys ⊆ ys') : Bridged xs' ys' := by
  obtain ⟨r, inLeft, s, inRight, touches⟩ := h
  exact ⟨r, left inLeft, s, right inRight, touches⟩

theorem common_append_right (apart : ¬ Bridged ys zs) (xs : List Relation) :
    common xs (ys ++ zs) = common xs ys + common xs zs := by
  rw [common_comm, common_append_left apart, common_comm ys, common_comm zs]

/-- Of two groups without attributes in common, what is in the one and what is in the other are in common
with parts of the same group only. -/
theorem common_append_append {ls rs ls' rs' : List Relation} (apart : ¬ Bridged xs ys) (hl : ls ⊆ xs)
    (hr : rs ⊆ xs) (hl' : ls' ⊆ ys) (hr' : rs' ⊆ ys) :
    common (ls ++ ls') (rs ++ rs') = common ls rs + common ls' rs' := by
  have across {as bs : List Relation} (left : as ⊆ xs) (right : bs ⊆ ys) : ¬ Bridged as bs :=
    fun bridged => apart (bridged_mono bridged left right)
  rw [common_append_left (across hl hl'), common_append_right (across hr hr'),
    common_append_right (across hr hr'), common_eq_zero (across hl hr'), common_comm ls' rs,
    common_eq_zero (across hr hl'), Nat.add_zero, Nat.zero_add]

/-! ### Rounding early and late -/

section Rounding

variable {m n : Int}

/-- What is rounded off before a multiplication is missing after it. -/
theorem mul_shiftRight_le (nonneg : 0 ≤ m) (n : Int) (k : Nat) : m * (n >>> k) ≤ (m * n) >>> k := by
  rw [Int.shiftRight_eq_div_pow, Int.shiftRight_eq_div_pow,
    Int.le_ediv_iff_mul_le (by positivity), Int.mul_assoc]
  exact Int.mul_le_mul_of_nonneg_left (Int.ediv_mul_le n (by positivity)) nonneg

theorem shiftRight_mul_shiftRight_le (hm : 0 ≤ m) (hn : 0 ≤ n) (i j : Nat) :
    (m >>> i) * (n >>> j) ≤ (m * n) >>> (i + j) :=
  calc (m >>> i) * (n >>> j)
      ≤ ((m >>> i) * n) >>> j := mul_shiftRight_le (Int.le_shiftRight_of_nonneg hm) n j
    _ = (n * (m >>> i)) >>> j := by rw [Int.mul_comm]
    _ ≤ ((n * m) >>> i) >>> j := shiftRight_mono (mul_shiftRight_le hn m i) j
    _ = (m * n) >>> (i + j) := by rw [Int.mul_comm n m, Int.shiftRight_add]

end Rounding

/-! ### The fewest tuples of a tree -/

/-- What an optimizer takes: relations with counts and texts, all of them different. -/
structure IsInput (xs : List Relation) : Prop where
  distinct : Distinct xs
  valid : ∀ r ∈ xs, r.IsValid

namespace IsInput

theorem perm (h : IsInput ys) (same : xs.Perm ys) : IsInput xs :=
  ⟨h.distinct.perm same, fun r member => h.valid r (same.subset member)⟩

theorem sublist (h : IsInput ys) (sub : xs.Sublist ys) : IsInput xs :=
  ⟨h.distinct.sublist sub, fun r member => h.valid r (sub.subset member)⟩

theorem left (h : IsInput (xs ++ ys)) : IsInput xs := h.sublist (List.sublist_append_left xs ys)

theorem right (h : IsInput (xs ++ ys)) : IsInput ys := h.sublist (List.sublist_append_right xs ys)

end IsInput

/-- How many tuples the best plan of some relations has. Nothing at all makes no difference to a join, as
if it were one tuple. -/
def least (order : Order) (xs : List Relation) : Int :=
  if xs = [] then 1 else (best sharedOf order xs).estimate

theorem least_nil (order : Order) : least order [] = 1 := if_pos rfl

theorem least_eq (some : xs ≠ []) : least order xs = (best sharedOf order xs).estimate := if_neg some

theorem least_singleton (r : Relation) : least order [r] = (ofRelation r).estimate := by
  rw [least_eq (List.cons_ne_nil r []), best_one]

theorem least_nonneg (order : Order) (h : IsInput xs) : 0 ≤ least order xs := by
  by_cases none : xs = []
  · rw [none, least_nil]
    decide
  · rw [least_eq none]
    exact counts_best (Known.monotone_formula .sharedAttributes).rising h.valid none

/-- No tree has fewer. -/
theorem least_le {tree : Plan} (built : IsTree sharedOf tree) (same : tree.leaves.Perm xs)
    (h : IsInput xs) : least order xs ≤ tree.estimate := by
  have some : xs ≠ [] := fun none => tree.leaves_ne_nil (none ▸ same).eq_nil
  rw [least_eq some]
  exact best_le (Known.monotone_formula .sharedAttributes) built same h.distinct h.valid

theorem least_perm (same : xs.Perm ys) (h : IsInput ys) : least order xs = least order ys := by
  have le {xs ys : List Relation} (same : xs.Perm ys) (h : IsInput ys) :
      least order ys ≤ least order xs := by
    by_cases none : xs = []
    · rw [none] at same
      rw [none, same.symm.eq_nil]
    · rw [least_eq none]
      exact least_le (isTree_best none) ((leaves_best none).trans same) h
  exact le_antisymm (le same.symm (h.perm same)) (le same h)

/-- How many tuples two groups have together that are each joined as well as can be. -/
def joint (order : Order) (xs ys : List Relation) : Int :=
  (least order xs * least order ys) >>> common xs ys

theorem joint_comm (xs ys : List Relation) : joint order xs ys = joint order ys xs := by
  rw [joint, joint, Int.mul_comm, common_comm]

theorem joint_perm (left : xs.Perm xs') (right : ys.Perm ys') (h : IsInput xs') (h' : IsInput ys') :
    joint order xs ys = joint order xs' ys' := by
  rw [joint, joint, least_perm left h, least_perm right h', common_congr left right]

theorem estimate_joined_best (some : xs ≠ []) (some' : ys ≠ []) :
    (joined sharedOf (best sharedOf order xs) (best sharedOf order ys)).estimate =
      joint order xs ys := by
  rw [estimate_joined, sharedOf, productOf, shared_attributes, joint, least_eq some, least_eq some',
    common_congr (leaves_best some) (leaves_best some')]

/-- Two groups can always be joined like that. -/
theorem least_append_le (h : IsInput (xs ++ ys)) : least order (xs ++ ys) ≤ joint order xs ys := by
  by_cases none : xs = []
  · simp [none, joint, least_nil, common_nil_left]
  by_cases none' : ys = []
  · simp [none', joint, least_nil, common_nil_right]
  rw [← estimate_joined_best none none']
  refine least_le (.join (isTree_best none) (isTree_best none')) ?_ h
  exact (leaves_best none).append (leaves_best none')

/-- The best plan of several relations joins the best plans of the two sides of a split, and no split is
better. -/
theorem exists_split_least (order : Order) (h : IsInput xs) (two : 2 ≤ xs.length) :
    ∃ part, Split.IsSplit part xs ∧ best sharedOf order xs =
      joined sharedOf (best sharedOf order part.1) (best sharedOf order part.2) ∧
        least order xs = joint order part.1 part.2 := by
  have found : ∃ part, Split.IsSplit part xs ∧ best sharedOf order xs =
      joined sharedOf (best sharedOf order part.1) (best sharedOf order part.2) := by
    match xs, two with
    | [left, right], _ =>
      refine ⟨([left], [right]), ⟨by simp, by simp, .refl _, by simp, by simp⟩, ?_⟩
      rw [best_two, best_one, best_one]
    | x :: y :: z :: rest, _ =>
      obtain ⟨part, member, chosen, _⟩ := @exists_candidate sharedOf order (fun _ => none)
        (x :: y :: z :: rest) rfl (by simp)
      exact ⟨part, Split.isSplit_of_mem member, chosen⟩
  obtain ⟨part, split, chosen⟩ := found
  have some : xs ≠ [] := List.ne_nil_of_length_pos (Nat.zero_lt_of_lt two)
  refine ⟨part, split, chosen, ?_⟩
  rw [least_eq some, chosen, estimate_joined_best split.left_ne_nil split.right_ne_nil]

/-! ### Groups on their own -/

/-- A tree over two groups without attributes in common has at least as many tuples as the best trees of
the two groups together. -/
theorem least_mul_le {tree : Plan} (built : IsTree sharedOf tree) (apart : ¬ Bridged xs ys)
    (same : tree.leaves.Perm (xs ++ ys)) (h : IsInput (xs ++ ys)) :
    least order xs * least order ys ≤ tree.estimate := by
  induction built generalizing xs ys with
  | scan r =>
    have only : xs ++ ys = [r] := (List.singleton_perm.mp same).symm
    rcases List.append_eq_singleton_iff.mp only with ⟨rfl, rfl⟩ | ⟨rfl, rfl⟩
    · rw [least_nil, least_singleton, Int.one_mul]
    · rw [least_nil, least_singleton, Int.mul_one]
  | @join left right _ _ ihl ihr =>
    -- Each group has some relations on the left side of the tree and the others on the right side.
    obtain ⟨p, inLeft, inRight, _⟩ := exists_test_leaves h.distinct same
    rw [List.filter_append] at inLeft inRight
    have part {q : Relation → Bool} : IsInput (xs.filter q ++ ys.filter q) :=
      h.sublist (List.filter_sublist.append List.filter_sublist)
    have apartIn {q : Relation → Bool} : ¬ Bridged (xs.filter q) (ys.filter q) := fun bridged =>
      apart (bridged_mono bridged List.filter_sublist.subset List.filter_sublist.subset)
    have leLeft := ihl apartIn inLeft part
    have leRight := ihr apartIn inRight part
    have leXs : least order xs ≤ joint order (xs.filter p) (xs.filter (!p ·)) := by
      have parts := List.filter_append_perm p xs
      rw [← least_perm parts h.left]
      exact least_append_le (h.left.perm parts)
    have leYs : least order ys ≤ joint order (ys.filter p) (ys.filter (!p ·)) := by
      have parts := List.filter_append_perm p ys
      rw [← least_perm parts h.right]
      exact least_append_le (h.right.perm parts)
    have nonneg {q : Relation → Bool} {zs : List Relation} (input : IsInput zs) :
        0 ≤ least order (zs.filter q) := least_nonneg order (input.sublist List.filter_sublist)
    have both : common (xs.filter p) (xs.filter (!p ·)) + common (ys.filter p) (ys.filter (!p ·)) =
        common left.leaves right.leaves := by
      rw [common_congr inLeft inRight]
      exact (common_append_append apart List.filter_sublist.subset List.filter_sublist.subset
        List.filter_sublist.subset List.filter_sublist.subset).symm
    have nonnegLeft := Int.mul_nonneg (nonneg (q := p) h.left) (nonneg (q := p) h.right)
    have nonnegRight := Int.mul_nonneg (nonneg (q := (!p ·)) h.left) (nonneg (q := (!p ·)) h.right)
    calc least order xs * least order ys
        ≤ joint order (xs.filter p) (xs.filter (!p ·)) *
            joint order (ys.filter p) (ys.filter (!p ·)) :=
          mul_le_mul leXs leYs (least_nonneg order h.right) ((least_nonneg order h.left).trans leXs)
      _ ≤ ((least order (xs.filter p) * least order (ys.filter p)) *
            (least order (xs.filter (!p ·)) * least order (ys.filter (!p ·)))) >>>
              common left.leaves right.leaves := by
          rw [← both, mul_mul_mul_comm]
          exact shiftRight_mul_shiftRight_le (Int.mul_nonneg (nonneg h.left) (nonneg h.left))
            (Int.mul_nonneg (nonneg h.right) (nonneg h.right)) _ _
      _ ≤ (left.estimate * right.estimate) >>> common left.leaves right.leaves :=
          shiftRight_mono (mul_le_mul leLeft leRight nonnegRight (nonnegLeft.trans leLeft)) _
      _ = (joined sharedOf left right).estimate := by
          rw [estimate_joined, sharedOf, productOf, shared_attributes]

theorem least_mul_le_append (apart : ¬ Bridged xs ys) (h : IsInput (xs ++ ys)) :
    least order xs * least order ys ≤ least order (xs ++ ys) := by
  by_cases none : xs ++ ys = []
  · obtain ⟨rfl, rfl⟩ := List.append_eq_nil_iff.mp none
    simp [least_nil]
  · rw [least_eq none]
    exact least_mul_le (isTree_best none) apart (leaves_best none) h

/-- What has no attribute in common with the rest of its group may leave the group and be joined with the
others first. -/
theorem joint_le_of_apart (apart : ¬ Bridged xs ys) (h : IsInput (xs ++ ys ++ zs)) :
    joint order xs (ys ++ zs) ≤ joint order (xs ++ ys) zs := by
  have inputs : IsInput (xs ++ (ys ++ zs)) := List.append_assoc xs ys zs ▸ h
  have nonneg := least_nonneg order h.left.left
  have nonneg' := least_nonneg order h.right
  calc joint order xs (ys ++ zs)
      ≤ (least order xs * joint order ys zs) >>> common xs (ys ++ zs) :=
        shiftRight_mono (Int.mul_le_mul_of_nonneg_left (least_append_le inputs.right) nonneg) _
    _ ≤ ((least order xs * (least order ys * least order zs)) >>> common ys zs) >>>
          common xs (ys ++ zs) := shiftRight_mono (mul_shiftRight_le nonneg _ _) _
    _ = (least order xs * least order ys * least order zs) >>> common (xs ++ ys) zs := by
        rw [← Int.shiftRight_add, Int.mul_assoc, common_append_of_apart apart,
          common_append_left apart, Nat.add_comm]
    _ ≤ joint order (xs ++ ys) zs := shiftRight_mono
        (Int.mul_le_mul_of_nonneg_right (least_mul_le_append apart h.left) nonneg') _

end JoinOrder
