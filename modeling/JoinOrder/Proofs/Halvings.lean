import JoinOrder.Proofs.Optimality
/-!
How far apart the estimates of two join trees over the same relations can be. Every join halves its
product once for each attribute that its sides have in common, and with every attribute in common the
attributes of the join are one fewer than those of its sides together. So all joins of a tree together
halve as often as the leaves have more attributes than the whole, however the tree is put together.

Trees differ by rounding alone: what is rounded off early can only be missing later.
-/

namespace JoinOrder

/-! ### Attributes of groups of relations -/

/-- The attributes of some relations, by their identities. -/
def attributesOf (xs : List Relation) : Finset Atom :=
  (xs.flatMap fun r => r.attributes.identities).toFinset

/-- How many attributes two groups of relations have in common. -/
def common (xs ys : List Relation) : Nat := (attributesOf xs ∩ attributesOf ys).card

section Groups

variable {xs ys xs' ys' : List Relation} {a : Atom}

theorem mem_attributesOf : a ∈ attributesOf xs ↔ ∃ r ∈ xs, a ∈ r.attributes.identities := by
  simp [attributesOf]

theorem attributesOf_append (xs ys : List Relation) :
    attributesOf (xs ++ ys) = attributesOf xs ∪ attributesOf ys := by
  simp [attributesOf]

theorem attributesOf_perm (same : xs.Perm ys) : attributesOf xs = attributesOf ys := by
  ext a
  simp only [mem_attributesOf, same.mem_iff]

theorem common_comm (xs ys : List Relation) : common xs ys = common ys xs := by
  rw [common, common, Finset.inter_comm]

theorem common_congr (left : xs.Perm xs') (right : ys.Perm ys') : common xs ys = common xs' ys' := by
  rw [common, common, attributesOf_perm left, attributesOf_perm right]

end Groups

/-! ### Rounding -/

section Rounding

variable {m n : Int}

theorem shiftRight_mono (le : m ≤ n) (k : Nat) : m >>> k ≤ n >>> k := by
  rw [Int.shiftRight_eq_div_pow, Int.shiftRight_eq_div_pow]
  exact Int.ediv_le_ediv (by positivity) le

theorem shiftRight_mul_two_pow_le (n : Int) (k : Nat) : n >>> k * 2 ^ k ≤ n := by
  rw [Int.shiftRight_eq_div_pow]
  exact_mod_cast Int.ediv_mul_le n (by positivity : ((2 ^ k : Nat) : Int) ≠ 0)

/-- What halving rounds off does not come back. -/
theorem shiftRight_mul_le {M N : Int} {i j : Nat} (hn : 0 ≤ n) (hM : 0 ≤ M) (left : m * 2 ^ i ≤ M)
    (right : n * 2 ^ j ≤ N) (k : Nat) : (m * n) >>> k * 2 ^ (i + j + k) ≤ M * N :=
  calc (m * n) >>> k * 2 ^ (i + j + k)
      = (m * n) >>> k * 2 ^ k * (2 ^ i * 2 ^ j) := by ring
    _ ≤ m * n * (2 ^ i * 2 ^ j) :=
      Int.mul_le_mul_of_nonneg_right (shiftRight_mul_two_pow_le (m * n) k) (by positivity)
    _ = (m * 2 ^ i) * (n * 2 ^ j) := by ring
    _ ≤ M * N := mul_le_mul left right (by positivity) hM

end Rounding

namespace IdSet

variable {α : Type} [Identified α]

theorem card_identities (s : IdSet α) : s.identities.toFinset.card = s.size := by
  rw [List.toFinset_card_of_nodup s.nodup_identities, identities, List.length_map]
  rfl

theorem identities_inter (s t : IdSet α) :
    (s.inter t).identities.toFinset = s.identities.toFinset ∩ t.identities.toFinset := by
  ext a
  simp only [List.mem_toFinset, Finset.mem_inter, mem_identities_inter]

end IdSet

namespace Problem

/-- A relation as optimizers take them. -/
def relationWith (id : Int) (name : String) (tuples : Int) (attributes : List String) : Relation :=
  { plainRelation id name with
    tuples := .int tuples, attributes := .ofList (attributes.map Scalar.text) }

theorem proper_relationWith (id : Int) (name : String) (tuples : Int) (attributes : List String) :
    (relationWith id name tuples attributes).IsNumbered ∧
      (relationWith id name tuples attributes).IsNamed := ⟨⟨id, rfl⟩, name, rfl⟩

end Problem

namespace Plan

variable {p q left right : Plan}

theorem attributes_toFinset (p : Plan) : p.attributes.identities.toFinset = attributesOf p.leaves := by
  ext a
  rw [List.mem_toFinset, mem_identities_attributes, mem_attributesOf]

theorem size_attributes (p : Plan) : p.attributes.size = (attributesOf p.leaves).card := by
  rw [← attributes_toFinset, IdSet.card_identities]

theorem shared_attributes (left right : Plan) :
    left.attributes.shared right.attributes = common left.leaves right.leaves := by
  rw [Attributes.shared, ← IdSet.card_identities, IdSet.identities_inter, attributes_toFinset,
    attributes_toFinset, common]

/-! ### Halvings -/

/-- How many attributes the two sides of a join have in common. -/
def overlap : Plan → Nat
  | .scan .. => 0
  | .join left right _ => left.attributes.shared right.attributes

/-- How often all joins of a plan together halve their products. -/
def halvings (p : Plan) : Nat := (p.joins.map overlap).sum

/-- The number of attributes of all leaves, where what several leaves have counts several times. -/
def width (p : Plan) : Nat := (p.leaves.map fun r => r.attributes.size).sum

/-- The number of tuples of the cross product of all leaves. -/
def product (p : Plan) : Int := (p.leaves.map fun r => (ofRelation r).estimate).prod

@[simp]
theorem halvings_join (left right : Plan) (tuples : Value) : (join left right tuples).halvings =
    left.halvings + right.halvings + left.attributes.shared right.attributes := by
  simp [halvings, joins, overlap, Nat.add_assoc]

@[simp]
theorem width_join (left right : Plan) (tuples : Value) :
    (join left right tuples).width = left.width + right.width := by
  simp [width, leaves]

@[simp]
theorem product_join (left right : Plan) (tuples : Value) :
    (join left right tuples).product = left.product * right.product := by
  simp [product, leaves]

theorem width_perm (same : p.leaves.Perm q.leaves) : p.width = q.width := (same.map _).sum_eq

theorem product_perm (same : p.leaves.Perm q.leaves) : p.product = q.product := (same.map _).prod_eq

/-- All joins together halve as often as the leaves have more attributes than the whole. -/
theorem halvings_add_size (p : Plan) : p.halvings + p.attributes.size = p.width := by
  induction p with
  | scan r tuples => simp [halvings, joins, width, leaves, attributes]
  | join left right tuples ihl ihr =>
    have both := Finset.card_union_add_card_inter (attributesOf left.leaves)
      (attributesOf right.leaves)
    rw [← attributesOf_append] at both
    change (attributesOf (join left right tuples).leaves).card + common left.leaves right.leaves = _
      at both
    rw [← size_attributes, ← size_attributes, ← size_attributes, ← shared_attributes] at both
    rw [halvings_join, width_join]
    omega

theorem halvings_perm (same : p.leaves.Perm q.leaves) : p.halvings = q.halvings := by
  have left := p.halvings_add_size
  have right := q.halvings_add_size
  rw [size_attributes, attributesOf_perm same, width_perm same] at left
  rw [size_attributes] at right
  omega

/-! ### Estimates -/

/-- The tuple counts of all leaves are integers that are not negative. -/
def HasCounts (p : Plan) : Prop := ∀ r ∈ p.leaves, ∃ n, 0 ≤ n ∧ r.tuples = .int n

theorem HasCounts.isCounted (h : p.HasCounts) : ∀ r ∈ p.leaves, r.IsCounted := by
  intro r leaf
  obtain ⟨n, _, is⟩ := h r leaf
  exact ⟨n, is⟩

theorem HasCounts.perm (h : p.HasCounts) (same : q.leaves.Perm p.leaves) : q.HasCounts :=
  fun r leaf => h r (same.subset leaf)

theorem estimate_ofRelation {r : Relation} {n : Int} (is : r.tuples = .int n) :
    (ofRelation r).estimate = n := by
  simp [ofRelation, estimate, tuples, is, Value.int?, Scalar.int?]

theorem product_ofRelation (r : Relation) : (ofRelation r).product = (ofRelation r).estimate := by
  simp [product, ofRelation, leaves]

theorem estimate_nonneg {known : CostModel.Known} (tree : IsTree known.formula.estimate p)
    (counts : p.HasCounts) : 0 ≤ p.estimate := by
  induction tree with
  | scan r =>
    obtain ⟨n, low, is⟩ := counts r (by simp [ofRelation, leaves])
    rwa [estimate_ofRelation is]
  | join _ _ ihl ihr =>
    exact known.monotone_formula.joins _ _ _ _
      (ihl fun r leaf => counts r (List.mem_append_left _ leaf))
      (ihr fun r leaf => counts r (List.mem_append_right _ leaf))

theorem product_nonneg (counts : p.HasCounts) : 0 ≤ p.product := by
  refine List.prod_nonneg fun n member => ?_
  obtain ⟨r, leaf, rfl⟩ := List.mem_map.mp member
  obtain ⟨n, low, is⟩ := counts r leaf
  rwa [estimate_ofRelation is]

/-- An estimate with all its halvings undone is at most the cross product. -/
theorem estimate_mul_le (tree : IsTree CostModel.sharedOf p) (counts : p.HasCounts) :
    p.estimate * 2 ^ p.halvings ≤ p.product := by
  induction tree with
  | scan r =>
    rw [product_ofRelation]
    exact (Int.mul_one _).le
  | @join left right treeLeft treeRight ihl ihr =>
    have countsLeft : left.HasCounts := fun r leaf => counts r (List.mem_append_left _ leaf)
    have countsRight : right.HasCounts := fun r leaf => counts r (List.mem_append_right _ leaf)
    have nonneg := @estimate_nonneg _ .sharedAttributes treeRight countsRight
    rw [joined, halvings_join, product_join]
    exact shiftRight_mul_le nonneg (product_nonneg countsLeft) (ihl countsLeft) (ihr countsRight) _

/-- Without halvings nothing is rounded. -/
theorem estimate_eq_product (tree : IsTree CostModel.productOf p) : p.estimate = p.product := by
  induction tree with
  | scan r => exact (product_ofRelation r).symm
  | @join left right _ _ ihl ihr =>
    rw [estimate_joined, joined, product_join, ← ihl, ← ihr, CostModel.productOf]

theorem estimate_le_floor (tree : IsTree CostModel.sharedOf p) (counts : p.HasCounts) :
    p.estimate ≤ p.product / 2 ^ p.halvings :=
  (Int.le_ediv_iff_mul_le (by positivity)).mpr (estimate_mul_le tree counts)

theorem estimate_eq_zero (tree : IsTree CostModel.sharedOf p) (counts : p.HasCounts)
    (none : ∃ r ∈ p.leaves, r.tuples = .int 0) : p.estimate = 0 := by
  obtain ⟨r, leaf, is⟩ := none
  have nothing : p.product = 0 :=
    List.prod_eq_zero (List.mem_map.mpr ⟨r, leaf, estimate_ofRelation is⟩)
  have most := estimate_le_floor tree counts
  rw [nothing, Int.zero_ediv] at most
  exact le_antisymm most (@estimate_nonneg _ .sharedAttributes tree counts)

/-- Under the model that halves, all joins of a tree together halve as often as the leaves have more
attributes than the whole, which is the same for all trees over the same leaves. Estimates of such trees
differ by rounding alone: none is above the cross product of all leaves, halved as often and rounded
down once, and with an empty relation nothing is left. Without halvings the estimate is the cross product.
Under both models plans over such leaves can always be joined. -/
theorem tuples_up_to_rounding (machine : Machine) :
    (∀ p : Plan, p.Built (.sharedAttributes machine) → p.HasCounts →
      p.halvings + p.attributes.size = p.width ∧
      (∃ n, p.tuples = .int n ∧ 0 ≤ n * 2 ^ p.halvings ∧ n * 2 ^ p.halvings ≤ p.product ∧
        ((∃ r ∈ p.leaves, r.tuples = .int 0) → n = 0)) ∧
      ∀ q : Plan, q.leaves.Perm p.leaves → q.halvings = p.halvings ∧
        (q.Built (.sharedAttributes machine) → ∃ m, q.tuples = .int m ∧ m ≤ p.product / 2 ^ p.halvings)) ∧
    (∀ p : Plan, p.Built (.crossProduct machine) → p.HasCounts → p.tuples = .int p.product) ∧
    ∀ (known : CostModel.Known) (asked : Nat) (p q : Plan), p.Built (known.model machine) →
      p.HasCounts → q.Built (known.model machine) → q.HasCounts →
        ∃ join, joinWith (known.model machine) asked p q = .ok join := by
  refine ⟨fun p built counts => ⟨p.halvings_add_size, ?_, fun q same => ?_⟩,
    fun p built counts => ?_, fun known asked p q builtLeft countsLeft builtRight countsRight => ?_⟩
  · obtain ⟨tree, counted⟩ := built.isTree CostModel.estimates_sharedAttributes counts.isCounted
    have nonneg := @estimate_nonneg _ .sharedAttributes tree counts
    exact ⟨_, counted.tuples_eq, Int.mul_nonneg nonneg (by positivity), estimate_mul_le tree counts,
      estimate_eq_zero tree counts⟩
  · refine ⟨halvings_perm same, fun built' => ?_⟩
    have counts' := counts.perm same
    obtain ⟨tree, counted⟩ := built'.isTree CostModel.estimates_sharedAttributes counts'.isCounted
    rw [← product_perm same, ← halvings_perm same]
    exact ⟨_, counted.tuples_eq, estimate_le_floor tree counts'⟩
  · obtain ⟨tree, counted⟩ := built.isTree CostModel.estimates_crossProduct counts.isCounted
    rw [counted.tuples_eq, estimate_eq_product tree]
  · obtain ⟨_, left⟩ := builtLeft.isTree known.estimates_formula countsLeft.isCounted
    obtain ⟨_, right⟩ := builtRight.isTree known.estimates_formula countsRight.isCounted
    exact ⟨_, joinWith_eq_ok left right (known.estimates_formula asked p q left right)⟩

def uneven : Relation := Problem.relationWith 1 "A" 5 ["x"]

/-- One relation joined with itself twice, where halving rounds off twice. -/
def thrice : Plan :=
  .join (.join (.ofRelation uneven) (.ofRelation uneven) (.int 12)) (.ofRelation uneven) (.int 30)

theorem tuples_up_to_rounding_thrice : thrice.halvings = 2 ∧ thrice.width = 3 ∧
    thrice.product = 125 ∧ thrice.tuples = .int 30 ∧
    ∃ n, thrice.tuples = .int n ∧ n * 2 ^ thrice.halvings ≤ thrice.product := by
  have built : thrice.Built (.sharedAttributes .small) :=
    .join 0 (.join 0 (.scan uneven) (.scan uneven) rfl) (.scan uneven) rfl
  have counts : thrice.HasCounts := by
    intro r leaf
    obtain rfl : r = uneven := by simpa [thrice, ofRelation, leaves] using leaf
    exact ⟨5, by decide, rfl⟩
  obtain ⟨_, ⟨n, is, _, most, _⟩, _⟩ := (tuples_up_to_rounding .small).1 thrice built counts
  exact ⟨by decide +kernel, by decide +kernel, by decide +kernel, rfl, n, is, most⟩

end Plan

end JoinOrder
