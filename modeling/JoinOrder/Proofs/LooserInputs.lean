import JoinOrder.Proofs.EitherOrder
import JoinOrder.Proofs.Relabel
/-!
What becomes of the best plan when its inputs get larger. A relation is looser than another one if it
has at least as many tuples and no attributes that the other one has not. Joins of looser inputs are not
smaller, so a tree over looser relations is not smaller than the tree of the same shape over the others;
and these have a best plan that is at most as large as that.
-/

namespace JoinOrder

namespace Relation

/-- At least as many tuples, and no other attributes. -/
structure IsLooser (looser r : Relation) : Prop where
  tuples : ∃ m n, r.tuples = .int m ∧ looser.tuples = .int n ∧ m ≤ n
  attributes : ∀ a ∈ looser.attributes.identities, a ∈ r.attributes.identities

end Relation

section Groups

variable {f : Relation → Relation} {xs ys : List Relation}

theorem attributesOf_subset_map (looser : ∀ r ∈ xs, r.IsLooser (f r)) :
    attributesOf xs ⊆ attributesOf (xs.map f) := by
  intro a inside
  obtain ⟨r, member, has⟩ := mem_attributesOf.mp inside
  exact mem_attributesOf.mpr ⟨f r, List.mem_map_of_mem member, (looser r member).attributes a has⟩

theorem common_le_map (left : ∀ r ∈ xs, r.IsLooser (f r)) (right : ∀ r ∈ ys, r.IsLooser (f r)) :
    common xs ys ≤ common (xs.map f) (ys.map f) :=
  Finset.card_le_card
    (Finset.inter_subset_inter (attributesOf_subset_map left) (attributesOf_subset_map right))

end Groups

/-- More tuples and fewer halvings never make less. -/
theorem shiftRight_le_shiftRight {m n : Int} {i j : Nat} (nonneg : 0 ≤ n) (le : m ≤ n)
    (fewer : i ≤ j) : m >>> j ≤ n >>> i := by
  obtain ⟨k, rfl⟩ := Nat.exists_eq_add_of_le fewer
  calc m >>> (i + k)
      ≤ n >>> (i + k) := shiftRight_mono le (i + k)
    _ = n >>> i >>> k := Int.shiftRight_add ..
    _ ≤ n >>> i := Int.shiftRight_le_of_nonneg (Int.le_shiftRight_of_nonneg nonneg)

namespace Plan

open CostModel

variable {p : Plan} {f : Relation → Relation}

theorem hasCounts_of_valid (valid : ∀ r ∈ p.leaves, r.IsValid) : p.HasCounts :=
  fun r leaf => (valid r leaf).tuples

theorem estimate_relabel_nonneg (valid : ∀ r ∈ p.leaves, (f r).IsValid) :
    0 ≤ (p.relabel sharedOf f).estimate := by
  refine @estimate_nonneg _ .sharedAttributes p.isTree_relabel (hasCounts_of_valid fun r leaf => ?_)
  rw [leaves_relabel] at leaf
  obtain ⟨s, inside, rfl⟩ := List.mem_map.mp leaf
  exact valid s inside

/-- A tree is not smaller than the tree of the same shape over relations that its own are looser than. -/
theorem estimate_relabel_le (tree : IsTree sharedOf p) (looser : ∀ r ∈ p.leaves, r.IsLooser (f r))
    (valid : ∀ r ∈ p.leaves, (f r).IsValid) : (p.relabel sharedOf f).estimate ≤ p.estimate := by
  induction tree with
  | scan r =>
    obtain ⟨m, n, is, is', le⟩ := (looser r (by simp [ofRelation, leaves])).tuples
    rwa [relabel_ofRelation, estimate_ofRelation is, estimate_ofRelation is']
  | @join left right treeLeft treeRight ihl ihr =>
    have looserLeft : ∀ r ∈ left.leaves, r.IsLooser (f r) := fun r leaf =>
      looser r (List.mem_append_left _ leaf)
    have looserRight : ∀ r ∈ right.leaves, r.IsLooser (f r) := fun r leaf =>
      looser r (List.mem_append_right _ leaf)
    have validLeft : ∀ r ∈ left.leaves, (f r).IsValid := fun r leaf =>
      valid r (List.mem_append_left _ leaf)
    have validRight : ∀ r ∈ right.leaves, (f r).IsValid := fun r leaf =>
      valid r (List.mem_append_right _ leaf)
    have leLeft := ihl looserLeft validLeft
    have leRight := ihr looserRight validRight
    have nonnegLeft := estimate_relabel_nonneg validLeft
    have nonnegRight := estimate_relabel_nonneg validRight
    rw [relabel_joined, estimate_joined, estimate_joined, sharedOf, sharedOf, shared_attributes,
      shared_attributes, leaves_relabel, leaves_relabel]
    refine shiftRight_le_shiftRight ?_ ?_ (common_le_map looserLeft looserRight)
    · exact Int.mul_nonneg (nonnegLeft.trans leLeft) (nonnegRight.trans leRight)
    · exact mul_le_mul leLeft leRight nonnegRight (nonnegLeft.trans leLeft)

end Plan

namespace Search

open CostModel Plan

variable {order order' : Order} {xs ys : List Relation} {f : Relation → Relation}

/-- In whatever order both are searched, looser relations have no smaller best plan. -/
theorem best_le_of_looser (perm : (ys.map f).Perm xs) (distinct : Distinct xs)
    (valid : ∀ r ∈ xs, r.IsValid) (looser : ∀ r ∈ ys, r.IsLooser (f r)) (nonempty : ys ≠ []) :
    (best sharedOf order xs).estimate ≤ (best sharedOf order' ys).estimate := by
  have leaves := @leaves_best sharedOf order' ys nonempty
  have same : ((best sharedOf order' ys).relabel sharedOf f).leaves.Perm xs := by
    rw [leaves_relabel]
    exact (leaves.map f).trans perm
  calc (best sharedOf order xs).estimate
      ≤ ((best sharedOf order' ys).relabel sharedOf f).estimate :=
        best_le (Known.monotone_formula .sharedAttributes) (isTree_relabel _) same distinct valid
    _ ≤ (best sharedOf order' ys).estimate :=
        estimate_relabel_le (isTree_best nonempty) (fun r leaf => looser r (leaves.subset leaf))
          fun r leaf => valid _ (perm.subset (List.mem_map_of_mem (leaves.subset leaf)))

end Search

namespace Optimizer

open CostModel Plan Search

/-- Two optimizers that halve, in whatever orders they enumerate, get relations one of which is looser
than its counterpart in the other list, for each of them. Names and identities need not go together.
Without time limits both return a plan for an empty table, unless somebody listens who cannot be told
all numbers; and the looser relations have the plan with more tuples, or with as many. -/
theorem tuples_mono {o o' : Optimizer} {pairs : List (Relation × Relation)}
    {collection collection' : Item} {machine machine' : Machine}
    (model : o.model = .sharedAttributes machine) (model' : o'.model = .sharedAttributes machine')
    (checked : RelationSet.checkAll collection o.settings.maxRelations =
      .ok (pairs.map Prod.fst))
    (checked' : RelationSet.checkAll collection' o'.settings.maxRelations =
      .ok (pairs.map Prod.snd))
    (proper : ∀ pair ∈ pairs, pair.1.IsNumbered ∧ pair.1.IsNamed)
    (proper' : ∀ pair ∈ pairs, pair.2.IsNumbered ∧ pair.2.IsNamed)
    (looser : ∀ pair ∈ pairs, pair.2.IsLooser pair.1) {clock clock' : Clock}
    {readings readings' : Nat} :
    (o.settings.timeout.isNull = true →
      ((∃ plan, (o.optimize clock readings ∅ collection).result = .ok plan) ↔
        (o.settings.verbose.truthy = true →
          ∀ sorted, Relation.sort (pairs.map Prod.fst) = .ok sorted → o.Audible sharedOf sorted))) ∧
    (o'.settings.timeout.isNull = true →
      ((∃ plan, (o'.optimize clock' readings' ∅ collection').result = .ok plan) ↔
        (o'.settings.verbose.truthy = true →
          ∀ sorted, Relation.sort (pairs.map Prod.snd) = .ok sorted →
            o'.Audible sharedOf sorted))) ∧
    ∀ plan plan', (o.optimize clock readings ∅ collection).result = .ok plan →
      (o'.optimize clock' readings' ∅ collection').result = .ok plan' →
        ∃ m n, plan.tuples = .int m ∧ plan'.tuples = .int n ∧ m ≤ n := by
  have estimates : o.model.Estimates sharedOf := model ▸ estimates_sharedAttributes
  have estimates' : o'.model.Estimates sharedOf := model' ▸ estimates_sharedAttributes
  have described : ∃ description, o.model.describe = .ok description :=
    model ▸ describe_known .sharedAttributes
  have described' : ∃ description, o'.model.describe = .ok description :=
    model' ▸ describe_known .sharedAttributes
  have ⟨_, _, _, valid, distinct, _⟩ := RelationSet.checkAll_eq_ok.mp checked
  have ⟨_, _, _, valid', distinct', _⟩ := RelationSet.checkAll_eq_ok.mp checked'
  refine ⟨fun untimed => ?_, fun untimed => ?_, fun plan plan' ok ok' => ?_⟩
  · exact optimize_isOk_iff_audible estimates described untimed checked
      (List.forall_mem_map.mpr proper)
  · exact optimize_isOk_iff_audible estimates' described' untimed checked'
      (List.forall_mem_map.mpr proper')
  · obtain ⟨table, accepted⟩ := accept_fresh described checked
    obtain ⟨table', accepted'⟩ := accept_fresh described' checked'
    obtain ⟨xs, sort, rfl⟩ := optimize_eq_best estimates.agrees accepted ok
    obtain ⟨ys, sort', rfl⟩ := optimize_eq_best estimates'.agrees accepted' ok'
    have perm := Relation.perm_of_sort sort
    have perm' := Relation.perm_of_sort sort'
    have some := sorted_ne_nil checked sort
    have some' := sorted_ne_nil checked' sort'
    -- Every looser relation is replaced by the one that it is looser than.
    have once : ((pairs.map Prod.swap).map Prod.fst).Nodup := by
      rw [List.map_map]
      exact distinct'.nodup
    obtain ⟨f, takes⟩ := exists_replacement once
    have takes : ∀ pair ∈ pairs, f pair.2 = pair.1 := fun pair member =>
      takes pair.swap (List.mem_map_of_mem member)
    have back : (ys.map f).Perm xs := by
      refine ((perm'.map f).trans (.of_eq ?_)).trans perm.symm
      rw [List.map_map]
      exact List.map_congr_left takes
    have looserThan : ∀ r ∈ ys, r.IsLooser (f r) := by
      intro r member
      obtain ⟨pair, inside, rfl⟩ := List.mem_map.mp (perm'.subset member)
      exact takes pair inside ▸ looser pair inside
    have validSorted : ∀ r ∈ xs, r.IsValid := fun r member => valid r (perm.subset member)
    have counted := (@planFrom_covers sharedOf o.settings.order _ xs sound_none
      (fun r member => (validSorted r member).isCounted) some).2
    have counted' := (@planFrom_covers sharedOf o'.settings.order _ ys sound_none
      (fun r member => (valid' r (perm'.subset member)).isCounted) some').2
    exact ⟨_, _, counted.tuples_eq, counted'.tuples_eq,
      best_le_of_looser back (distinct.perm perm) validSorted looserThan some'⟩

section Examples

open Problem

/-- Two relations with an attribute in common, and looser ones that sort the other way round. -/
def loosened : List (Relation × Relation) :=
  [(relationWith 1 "A" 3 ["x"], relationWith 4 "D" 5 []),
    (relationWith 2 "B" 3 ["x", "y"], relationWith 3 "C" 3 ["x"])]

theorem tuples_mono_loosened : ∃ (plan plan' : Plan) (m n : Int),
    (plainOptimizer.optimize (fun _ => 0) 0 ∅ (listOf (loosened.map Prod.fst))).result = .ok plan ∧
      ((plainOptimizer.inOrder .reference).optimize (fun _ => 0) 0 ∅
        (listOf (loosened.map Prod.snd))).result = .ok plan' ∧
      plan.tuples = .int m ∧ plan'.tuples = .int n ∧ m ≤ n := by
  have proper : ∀ pair ∈ loosened, (pair.1.IsNumbered ∧ pair.1.IsNamed) ∧
      pair.2.IsNumbered ∧ pair.2.IsNamed := by
    intro pair member
    rcases List.mem_pair.mp member with rfl | rfl <;>
      exact ⟨proper_relationWith .., proper_relationWith ..⟩
  have looser : ∀ pair ∈ loosened, pair.2.IsLooser pair.1 := by
    intro pair member
    rcases List.mem_pair.mp member with rfl | rfl
    · exact ⟨⟨3, 5, rfl, rfl, by decide⟩, by decide⟩
    · exact ⟨⟨3, 3, rfl, rfl, le_rfl⟩, by decide⟩
  obtain ⟨first, second, le⟩ := @tuples_mono plainOptimizer (plainOptimizer.inOrder .reference)
    loosened (listOf (loosened.map Prod.fst)) (listOf (loosened.map Prod.snd)) .small .small rfl rfl
    rfl rfl
    (fun pair member => (proper pair member).1) (fun pair member => (proper pair member).2) looser
    (fun _ => 0) (fun _ => 0) 0 0
  obtain ⟨plan, ok⟩ := (first rfl).mpr fun listens => absurd listens (by decide)
  obtain ⟨plan', ok'⟩ := (second rfl).mpr fun listens => absurd listens (by decide)
  obtain ⟨m, n, is, is', ordered⟩ := le plan plan' ok ok'
  exact ⟨plan, plan', m, n, ok, ok', is, is', ordered⟩

end Examples

end Optimizer

end JoinOrder
