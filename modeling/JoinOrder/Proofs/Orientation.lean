import JoinOrder.Proofs.Optimality
/-!
Estimates that depend on which input is the left one. The reference order meets every split of three
relations or more from either side, so it misses no tree there. Two relations are joined in their order
only: what another tree gains by joining two relations against their order, the search does not gain.
-/

namespace JoinOrder

namespace Plan

variable {est : Plan → Plan → Int} {p left right : Plan} {v : Value}

/-- Two relations that are joined with each other stand in their order. -/
def PairsInOrder : Plan → Prop
  | .scan .. => True
  | .join left right _ => left.PairsInOrder ∧ right.PairsInOrder ∧ ∀ r s, left.leaves = [r] →
      right.leaves = [s] → SortKey.Below r.sortKey s.sortKey

/-- No join of two relations against their order is smaller than it would be in their order. -/
def NoPairGains (est : Plan → Plan → Int) : Plan → Prop
  | .scan .. => True
  | .join left right _ => left.NoPairGains est ∧ right.NoPairGains est ∧ ∀ r s, left.leaves = [r] →
      right.leaves = [s] → SortKey.Below s.sortKey r.sortKey →
        est (.ofRelation s) (.ofRelation r) ≤ est (.ofRelation r) (.ofRelation s)

theorem IsTree.eq_ofRelation (tree : IsTree est p) {r : Relation} (only : p.leaves = [r]) :
    p = .ofRelation r := by
  cases tree with
  | scan s =>
    rw [List.cons.inj only |>.1]
  | @join left right _ _ =>
    have some := List.length_pos_iff.mpr left.leaves_ne_nil
    have others := List.length_pos_iff.mpr right.leaves_ne_nil
    have length := congrArg List.length only
    change (left.leaves ++ right.leaves).length = 1 at length
    rw [List.length_append] at length
    omega

end Plan

namespace Search

open Plan

variable {f : Formula} {counts : Int → Prop} {order : Order} {xs : List Relation}

/-- The search joins two relations in their order. -/
theorem pairsInOrder_best {est : Plan → Plan → Int} (ordered : Relation.Ordered xs)
    (nonempty : xs ≠ []) : (best est order xs).PairsInOrder := by
  induction length : xs.length using Nat.strongRecOn generalizing xs with
  | ind n ih =>
    match xs, nonempty with
    | [r], _ => rw [best_one]; trivial
    | [r, s], _ =>
      rw [best_two]
      refine ⟨trivial, trivial, fun a b left right => ?_⟩
      cases left
      cases right
      exact (List.pairwise_cons.mp ordered).1 _ List.mem_cons_self
    | x :: y :: z :: rest, _ =>
      obtain ⟨part, member, chosen, _⟩ := @exists_candidate est order (fun _ => none) _ rfl
        (by simp : 3 ≤ (x :: y :: z :: rest).length)
      have split := Split.isSplit_of_mem member
      have inLeft := ih _ (length ▸ split.length_left_lt) (ordered.sublist split.sublist_left)
        split.left_ne_nil rfl
      have inRight := ih _ (length ▸ split.length_right_lt) (ordered.sublist split.sublist_right)
        split.right_ne_nil rfl
      rw [best, chosen]
      refine ⟨inLeft, inRight, fun r s left right => ?_⟩
      -- Sides with one relation each would leave a third relation nowhere.
      have few := (@leaves_best est order _ split.left_ne_nil).length_eq
      have fewer := (@leaves_best est order _ split.right_ne_nil).length_eq
      have all := split.length_add
      rw [best, left, List.length_singleton] at few
      rw [best, right, List.length_singleton] at fewer
      simp only [List.length_cons] at all
      omega

/-- The reference order meets every split the way round that it has. -/
theorem best_reference_le {est : Plan → Plan → Int} (many : 3 ≤ xs.length) (p : Relation → Bool)
    (left : ∃ r ∈ xs, p r = true) (right : ∃ r ∈ xs, p r = false) :
    (best est .reference xs).estimate ≤
      est (best est .reference (xs.filter p)) (best est .reference (xs.filter (!p ·))) := by
  obtain ⟨_, _, _, smallest⟩ := @exists_candidate est .reference (fun _ => none) _ rfl many
  exact smallest _ (Split.mem_all_reference p left right)

/-- A tree over two relations has them in their order, or else it gains nothing by that. -/
theorem best_two_le {est : Plan → Plan → Int} {left right : Plan} {r s : Relation}
    (treeLeft : IsTree est left) (treeRight : IsTree est right)
    (calm : (Plan.joined est left right).NoPairGains est)
    (same : (left.leaves ++ right.leaves).Perm [r, s]) (ordered : Relation.Ordered [r, s]) :
    (best est order [r, s]).estimate ≤ (Plan.joined est left right).estimate := by
  have lengths := same.length_eq
  have some := List.length_pos_iff.mpr left.leaves_ne_nil
  have others := List.length_pos_iff.mpr right.leaves_ne_nil
  simp only [List.length_append, List.length_cons, List.length_nil] at lengths
  obtain ⟨a, only⟩ := List.length_eq_one_iff.mp (show left.leaves.length = 1 by omega)
  obtain ⟨b, other⟩ := List.length_eq_one_iff.mp (show right.leaves.length = 1 by omega)
  have below : SortKey.Below r.sortKey s.sortKey :=
    (List.pairwise_cons.mp ordered).1 s List.mem_cons_self
  rw [best_two, estimate_joined, estimate_joined, treeLeft.eq_ofRelation only,
    treeRight.eq_ofRelation other]
  rw [only, other, List.singleton_append] at same
  have first : a = r ∨ a = s := by
    simpa using same.subset (List.mem_cons_self (a := a) (l := [b]))
  rcases first with rfl | rfl
  · obtain rfl : b = s := by simpa using same
    exact le_rfl
  · obtain rfl : b = r := by
      have swapped := same.trans (List.Perm.swap ..)
      simpa using swapped
    exact calm.2.2 _ _ only other below

/-- No tree over the same relations is smaller than the best plan, unless it joins two relations against
their order and gains by that. -/
theorem best_le_of_rising (rising : f.IsRising counts) {tree : Plan} (built : IsTree f.estimate tree)
    (calm : tree.NoPairGains f.estimate) (same : tree.leaves.Perm xs)
    (ordered : Relation.Ordered xs) (distinct : Distinct xs) (valid : ∀ r ∈ xs, r.IsValid) :
    (best f.estimate .reference xs).estimate ≤ tree.estimate := by
  induction built generalizing xs with
  | scan r =>
    have only : xs = [r] := (List.singleton_perm.mp same).symm
    rw [only, best_one]
  | @join left right treeLeft treeRight ihl ihr =>
    obtain ⟨p, inLeft, inRight, someLeft, someRight⟩ := exists_test_leaves distinct same
    by_cases many : 3 ≤ xs.length
    · have validPart {q : Relation → Bool} : ∀ r ∈ xs.filter q, r.IsValid := fun r member =>
        valid r (List.mem_of_mem_filter member)
      have leLeft := ihl calm.1 inLeft (ordered.sublist List.filter_sublist)
        (distinct.sublist List.filter_sublist) validPart
      have leRight := ihr calm.2.1 inRight (ordered.sublist List.filter_sublist)
        (distinct.sublist List.filter_sublist) validPart
      have sideLeft := alike_best .reference rising treeLeft inLeft validPart
      have sideRight := alike_best .reference rising treeRight inRight validPart
      calc (best f.estimate .reference xs).estimate
          ≤ f.estimate (best f.estimate .reference (xs.filter p))
              (best f.estimate .reference (xs.filter (!p ·))) :=
            best_reference_le many p someLeft someRight
        _ = f (best f.estimate .reference (xs.filter p)).estimate left.attributes
              (best f.estimate .reference (xs.filter (!p ·))).estimate right.attributes := by
            rw [Formula.estimate, sideLeft.attributes, sideRight.attributes]
        _ ≤ f left.estimate left.attributes right.estimate right.attributes :=
            rising.le sideLeft.countsBest sideLeft.countsTree sideRight.countsBest
              sideRight.countsTree leLeft leRight
    · have lengths := same.length_eq
      have some := List.length_pos_iff.mpr left.leaves_ne_nil
      have others := List.length_pos_iff.mpr right.leaves_ne_nil
      change (left.leaves ++ right.leaves).length = xs.length at lengths
      rw [List.length_append] at lengths
      obtain ⟨r, s, rfl⟩ := List.length_eq_two.mp (show xs.length = 2 by omega)
      exact best_two_le treeLeft treeRight calm same ordered

end Search

namespace Optimizer

open Search

variable {o : Optimizer} {f : Formula} {counts : Int → Prop} {clock : Clock} {readings : Nat}
  {collection : Item} {relations : List Relation}

/-- Under a rising formula, symmetric or not, the plan that the reference order finds is at most as large
as any tree that the model builds over the relations, unless the tree gains by joining two relations
against their order. The plan itself has them in their order. Without a time limit there is a plan,
unless somebody listens who cannot be told all numbers. -/
theorem optimize_reference (estimates : o.model.Estimates f.estimate) (rising : f.IsRising counts)
    (reference : o.settings.order = .reference)
    (described : ∃ description, o.model.describe = .ok description)
    (checked : RelationSet.checkAll collection o.settings.maxRelations = .ok relations)
    (proper : ∀ r ∈ relations, r.IsNumbered ∧ r.IsNamed) :
    (o.settings.timeout.isNull = true →
        ((∃ plan, (o.optimize clock readings ∅ collection).result = .ok plan) ↔
          (o.settings.verbose.truthy = true → ∀ sorted, Relation.sort relations = .ok sorted →
            o.Audible f.estimate sorted))) ∧
      ∀ plan, (o.optimize clock readings ∅ collection).result = .ok plan →
        plan.Built o.model ∧ plan.leaves.Perm relations ∧ plan.PairsInOrder ∧
          ∀ tree : Plan, tree.Built o.model → tree.leaves.Perm relations →
            tree.NoPairGains f.estimate →
              ∃ m n, plan.tuples = .int m ∧ tree.tuples = .int n ∧ m ≤ n := by
  have ⟨_, _, _, valid, distinct, _⟩ := RelationSet.checkAll_eq_ok.mp checked
  obtain ⟨table, accepted⟩ := accept_fresh described checked
  refine ⟨fun untimed => optimize_isOk_iff_audible estimates described untimed checked proper,
    fun plan ok => ?_⟩
  obtain ⟨sorted, sort, rfl⟩ := optimize_eq_best estimates.agrees accepted ok
  rw [reference]
  have perm := Relation.perm_of_sort sort
  have some := sorted_ne_nil checked sort
  have ordered := Relation.ordered_of_sort distinct sort
  have leaves := (@leaves_best f.estimate .reference _ some).trans perm
  obtain ⟨built, isCounted⟩ := (@isTree_best .reference _ f.estimate some).built estimates
    fun r leaf => (valid r (leaves.subset leaf)).isCounted
  refine ⟨built, leaves, pairsInOrder_best ordered some, fun tree builtTree same calm => ?_⟩
  obtain ⟨isTree, countedTree⟩ := builtTree.isTree estimates
    fun r leaf => (valid r (same.subset leaf)).isCounted
  have le := best_le_of_rising rising isTree calm (same.trans perm.symm) ordered
    (distinct.perm perm) fun r member => valid r (perm.subset member)
  exact ⟨_, _, isCounted.tuples_eq, countedTree.tuples_eq, le⟩

/-- A model to which the left input counts twice. -/
def leaning : CostModel where
  name := "LeaningModel"
  describe := .ok (.object [("name", .text "leaning")])
  estimate _ left right := .ok (.int (2 * left.estimate + right.estimate))

def leaningFormula : Formula := fun m _ n _ => 2 * m + n

theorem rising_leaningFormula : leaningFormula.IsRising (0 ≤ ·) where
  relations _ low := low
  joins m _ n _ hm hn := by
    simp only [leaningFormula]
    omega
  left m m' _ n _ _ _ _ le := by
    simp only [leaningFormula]
    omega
  right m _ n n' _ _ _ _ le := by
    simp only [leaningFormula]
    omega

def leaningOptimizer : Optimizer :=
  ⟨{ Settings.default with order := .reference }, leaning, 0, none⟩

def large : Relation := { Problem.plainRelation 1 "A" with tuples := .int 10 }

def small : Relation := { Problem.plainRelation 2 "B" with tuples := .int 1 }

theorem proper_uneven : ∀ r ∈ [large, small], r.IsNumbered ∧ r.IsNamed := by
  intro r member
  simp only [List.mem_cons, List.not_mem_nil, or_false] at member
  rcases member with rfl | rfl <;> exact ⟨⟨_, rfl⟩, _, rfl⟩

theorem checkAll_uneven : RelationSet.checkAll (listOf [large, small])
    leaningOptimizer.settings.maxRelations = .ok [large, small] := rfl

theorem estimates_leaning : leaning.Estimates leaningFormula.estimate := fun _ _ _ _ _ => rfl

theorem optimize_reference_uneven : ∃ plan : Plan,
    (leaningOptimizer.optimize (fun _ => 0) 0 ∅ (listOf [large, small])).result = .ok plan ∧
      plan.PairsInOrder ∧ ∀ tree : Plan, tree.Built leaning → tree.leaves.Perm [large, small] →
        tree.NoPairGains leaningFormula.estimate →
          ∃ m n, plan.tuples = .int m ∧ tree.tuples = .int n ∧ m ≤ n := by
  obtain ⟨returned, least⟩ := @optimize_reference leaningOptimizer _ _ (fun _ => 0) 0 _ _
    estimates_leaning rising_leaningFormula rfl ⟨_, rfl⟩ checkAll_uneven proper_uneven
  obtain ⟨plan, ok⟩ := (returned rfl).mpr fun listens => absurd listens (by decide)
  exact ⟨plan, ok, (least plan ok).2.2⟩

/-- Two relations are joined in their order, although the model would make less of the join the other way
round. -/
theorem optimize_reference_leaning :
    leaning.Estimates leaningFormula.estimate ∧ leaningFormula.IsRising (0 ≤ ·) ∧
      ∃ plan tree : Plan,
        (leaningOptimizer.optimize (fun _ => 0) 0 ∅ (listOf [large, small])).result = .ok plan ∧
          plan.tuples = .int 21 ∧ tree.Built leaning ∧ tree.leaves.Perm [large, small] ∧
            tree.tuples = .int 12 := by
  have sorts : Relation.sort [large, small] = .ok [large, small] :=
    Relation.sort_of_ordered (fun r member => (proper_uneven r member).2)
      (Relation.pairwise_comparable fun r member => (proper_uneven r member).1) (by decide)
      (List.pairwise_pair.mpr (by decide +kernel))
  obtain ⟨table, accepted⟩ := accept_fresh (o := leaningOptimizer) ⟨_, rfl⟩ checkAll_uneven
  obtain ⟨plan, ok⟩ := (@optimize_isOk_iff_audible leaningOptimizer _ (fun _ => 0) 0 _ _
    estimates_leaning ⟨_, rfl⟩ rfl checkAll_uneven proper_uneven).mpr fun listens =>
      absurd listens (by decide)
  obtain ⟨sorted, sort, best⟩ := optimize_eq_best estimates_leaning.agrees accepted ok
  obtain rfl : [large, small] = sorted := Except.ok.inj (sorts.symm.trans sort)
  rw [best_two] at best
  refine ⟨estimates_leaning, rising_leaningFormula, plan,
    .joined leaningFormula.estimate (.ofRelation small) (.ofRelation large), ok, ?_, ?_, ?_, rfl⟩
  · rw [best]
    rfl
  · exact .join 0 (.scan small) (.scan large) rfl
  · exact List.Perm.swap ..

end Optimizer

end JoinOrder
