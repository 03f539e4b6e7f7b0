import JoinOrder.Proofs.Estimate
/-!
The depth of a plan against the number of its leaves. A plan is as deep as it has leaves if every join
takes in a base relation; a join of two joins costs depth, however far down it stands. And a plan of
some depth has no more leaves than the full tree of that depth.
-/

namespace JoinOrder

namespace Plan

theorem depth_pos (p : Plan) : 0 < p.depth := by
  cases p with
  | scan r tuples => exact Nat.zero_lt_one
  | join left right tuples => exact Nat.lt_of_lt_of_le Nat.zero_lt_one (Nat.le_add_right ..)

theorem length_leaves_pos (p : Plan) : 0 < p.leaves.length :=
  List.length_pos_iff.mpr p.leaves_ne_nil

theorem isScan_iff_length_leaves (p : Plan) : p.isScan = true ↔ p.leaves.length = 1 := by
  cases p with
  | scan r tuples => simp [isScan, leaves]
  | join left right tuples =>
    have someLeft := left.length_leaves_pos
    have someRight := right.length_leaves_pos
    simp only [isScan, leaves, List.length_append, Bool.false_eq_true, false_iff]
    omega

theorem depth_le_length_leaves (p : Plan) : p.depth ≤ p.leaves.length := by
  induction p with
  | scan r tuples => exact Nat.le_refl 1
  | join left right tuples ihl ihr =>
    have someLeft := left.length_leaves_pos
    have someRight := right.length_leaves_pos
    simp only [depth, leaves, List.length_append]
    omega

/-- No depth is lost at a join only if one side is a scan and none is lost on either side. -/
theorem depth_join_eq_iff (left right : Plan) (tuples : Value) :
    (join left right tuples).depth = (join left right tuples).leaves.length ↔
      (left.isScan = true ∨ right.isScan = true) ∧ left.depth = left.leaves.length ∧
        right.depth = right.leaves.length := by
  have deepLeft := left.depth_pos
  have deepRight := right.depth_pos
  have boundLeft := left.depth_le_length_leaves
  have boundRight := right.depth_le_length_leaves
  simp only [depth, leaves, List.length_append, isScan_iff_length_leaves]
  omega

theorem isLinear_iff_depth (p : Plan) : p.isLinear = true ↔ p.depth = p.leaves.length := by
  induction p with
  | scan r tuples => simp [isLinear, depth, leaves]
  | join left right tuples ihl ihr =>
    rw [depth_join_eq_iff, ← ihl, ← ihr]
    simp only [isLinear, Bool.and_eq_true, Bool.or_eq_true, and_assoc]

/-- The shape test only ever looks at joins one by one. -/
theorem isLinear_iff_joins (p : Plan) :
    p.isLinear = true ↔ ∀ left right tuples, join left right tuples ∈ p.joins →
      left.isScan = true ∨ right.isScan = true := by
  induction p with
  | scan r tuples => simp [isLinear, joins]
  | join left right tuples ihl ihr =>
    simp only [isLinear, Bool.and_eq_true, Bool.or_eq_true, ihl, ihr, joins, List.mem_append,
      List.mem_singleton, join.injEq]
    constructor
    · rintro ⟨⟨root, inLeft⟩, inRight⟩ l r v ((member | member) | ⟨rfl, rfl, -⟩)
      · exact inLeft l r v member
      · exact inRight l r v member
      · exact root
    · intro all
      have root := all left right tuples (.inr ⟨rfl, rfl, rfl⟩)
      have inLeft := fun l r v member => all l r v (.inl (.inl member))
      have inRight := fun l r v member => all l r v (.inl (.inr member))
      exact ⟨⟨root, inLeft⟩, inRight⟩

theorem isBushy_iff_joins (p : Plan) :
    p.isBushy = true ↔ ∃ left right tuples, join left right tuples ∈ p.joins ∧
      left.isJoin = true ∧ right.isJoin = true := by
  have notLinear : p.isBushy = true ↔ ¬ p.isLinear = true := by simp [isBushy]
  rw [notLinear, isLinear_iff_joins]
  simp only [not_forall, not_or, isJoin, Bool.not_eq_true', Bool.not_eq_true, exists_prop]

/-- A level more makes room for twice as many leaves. -/
theorem length_leaves_le (p : Plan) : p.leaves.length ≤ 2 ^ (p.depth - 1) := by
  induction p with
  | scan r tuples => exact Nat.le_refl 1
  | join left right tuples ihl ihr =>
    have deepLeft := left.depth_pos
    have level : 2 ^ (max left.depth right.depth) = 2 ^ (max left.depth right.depth - 1) * 2 := by
      rw [← Nat.pow_succ]
      congr 1
      omega
    have boundLeft : 2 ^ (left.depth - 1) ≤ 2 ^ (max left.depth right.depth - 1) :=
      Nat.pow_le_pow_right Nat.two_pos (by omega)
    have boundRight : 2 ^ (right.depth - 1) ≤ 2 ^ (max left.depth right.depth - 1) :=
      Nat.pow_le_pow_right Nat.two_pos (by omega)
    simp only [leaves, List.length_append, depth, Nat.add_sub_cancel_left, level]
    omega

/-- A linear plan is as deep as it has leaves and every other plan less deep. What is not linear has
some join of two joins. However bushy a plan is, its leaves fit into the full tree of its depth. -/
theorem linear_iff_deepest (p : Plan) :
    (p.isLinear = true ↔ p.depth = p.leaves.length) ∧
    (p.isLinear = false ↔ p.depth < p.leaves.length) ∧
    (p.isBushy = true ↔ ∃ left right tuples, join left right tuples ∈ p.joins ∧
      left.isJoin = true ∧ right.isJoin = true) ∧
    p.leaves.length ≤ 2 ^ (p.depth - 1) := by
  have shallow : p.isLinear = false ↔ p.depth < p.leaves.length := by
    have bound := p.depth_le_length_leaves
    rw [← Bool.not_eq_true, isLinear_iff_depth]
    omega
  exact ⟨p.isLinear_iff_depth, shallow, p.isBushy_iff_joins, p.length_leaves_le⟩

/-- Only the join of the two pairs is a join of joins, two levels below the top. -/
example :
    let leaf (n : Int) := Plan.ofRelation ⟨.int n, .text "A", .int 1, ∅, []⟩
    let pair (m n : Int) := Plan.join (leaf m) (leaf n) (.int 1)
    let deep := Plan.join (leaf 5) (.join (.join (pair 1 2) (pair 3 4) (.int 1)) (leaf 6) (.int 1))
      (.int 1)
    deep.isBushy = true ∧ deep.depth = 5 ∧ deep.leaves.length = 6 := by
  decide +kernel

end Plan

end JoinOrder
