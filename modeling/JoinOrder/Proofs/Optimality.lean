import JoinOrder.Proofs.Formula
import JoinOrder.Proofs.Fresh
/-!
The best plan is not larger than any join tree over the same relations, if the model follows a
monotone formula. A tree splits its relations in some way, and the search tries that split from one
side or the other; both parts have best plans with the attributes of the two subtrees and at most as
many tuples, so their join is at most as large as the tree.
-/

namespace JoinOrder

namespace Plan

variable {p q : Plan} {a : Atom}

/-! ### Attributes of trees -/

theorem mem_identities_attributes :
    a ∈ p.attributes.identities ↔ ∃ r ∈ p.leaves, a ∈ r.attributes.identities := by
  induction p with
  | scan r tuples => simp [leaves, attributes]
  | join left right tuples ihl ihr =>
    change a ∈ (left.attributes.union right.attributes).identities ↔ _
    rw [IdSet.mem_identities_union, ihl, ihr]
    simp only [leaves, List.mem_append, or_and_right, exists_or]

theorem exists_leaf_of_mem_attributes {s : Scalar} (member : s ∈ p.attributes.toList) :
    ∃ r ∈ p.leaves, s ∈ r.attributes.toList := by
  induction p with
  | scan r tuples => exact ⟨r, by simp [leaves], member⟩
  | join left right tuples ihl ihr =>
    rcases Increasing.mem_merge member with inLeft | inRight
    · obtain ⟨r, leaf, inside⟩ := ihl inLeft
      exact ⟨r, List.mem_append_left _ leaf, inside⟩
    · obtain ⟨r, leaf, inside⟩ := ihr inRight
      exact ⟨r, List.mem_append_right _ leaf, inside⟩

/-- Attributes that are texts depend on the leaves alone. -/
theorem attributes_eq (same : p.leaves.Perm q.leaves)
    (texts : ∀ r ∈ p.leaves, ∀ s ∈ r.attributes.toList, s.isText = true) :
    p.attributes = q.attributes := by
  apply IdSet.eq_of_identities
  · apply IdSet.identities_eq
    intro a
    simp only [mem_identities_attributes, same.mem_iff]
  · intro x hx y hy equal
    obtain ⟨r, leaf, inside⟩ := exists_leaf_of_mem_attributes hx
    obtain ⟨s, leaf', inside'⟩ := exists_leaf_of_mem_attributes hy
    obtain ⟨x, rfl⟩ := Scalar.isText_iff.mp (texts r leaf x inside)
    obtain ⟨y, rfl⟩ := Scalar.isText_iff.mp (texts s (same.mem_iff.mpr leaf') y inside')
    exact congrArg Scalar.text (Atom.text.inj equal)

/-! ### Trees that a model builds -/

/-- Scans of relations, and joins of what was built before, however often the model was asked. -/
inductive Built (model : CostModel) : Plan → Prop where
  | scan (r : Relation) : Built model (.ofRelation r)
  | join {left right plan : Plan} (asked : Nat) : Built model left → Built model right →
      joinWith model asked left right = .ok plan → Built model plan

/-- Scans of relations, and joins under estimates. -/
inductive IsTree (est : Plan → Plan → Int) : Plan → Prop where
  | scan (r : Relation) : IsTree est (.ofRelation r)
  | join {left right : Plan} : IsTree est left → IsTree est right →
      IsTree est (.joined est left right)

theorem Built.isTree {model : CostModel} {est : Plan → Plan → Int} (built : Built model p)
    (estimates : model.Estimates est) (counted : ∀ r ∈ p.leaves, r.IsCounted) :
    IsTree est p ∧ p.IsCounted := by
  induction built with
  | scan r => exact ⟨.scan r, isCounted_ofRelation (counted r (by simp [ofRelation, leaves]))⟩
  | @join left right plan asked _ _ ok ihl ihr =>
    obtain ⟨v, estimate, rfl⟩ := eq_join_of_joinWith ok
    obtain ⟨treeLeft, countedLeft⟩ := ihl fun r member => counted r (List.mem_append_left _ member)
    obtain ⟨treeRight, countedRight⟩ :=
      ihr fun r member => counted r (List.mem_append_right _ member)
    rw [estimates asked left right countedLeft countedRight] at estimate
    cases estimate
    exact ⟨.join treeLeft treeRight, isCounted_joined countedLeft countedRight⟩

theorem IsTree.built {model : CostModel} {est : Plan → Plan → Int} (tree : IsTree est p)
    (estimates : model.Estimates est) (counted : ∀ r ∈ p.leaves, r.IsCounted) :
    Built model p ∧ p.IsCounted := by
  induction tree with
  | scan r => exact ⟨.scan r, isCounted_ofRelation (counted r (by simp [ofRelation, leaves]))⟩
  | join _ _ ihl ihr =>
    obtain ⟨builtLeft, countedLeft⟩ := ihl fun r member => counted r (List.mem_append_left _ member)
    obtain ⟨builtRight, countedRight⟩ :=
      ihr fun r member => counted r (List.mem_append_right _ member)
    have ok := joinWith_eq_ok countedLeft countedRight (estimates 0 _ _ countedLeft countedRight)
    exact ⟨.join 0 builtLeft builtRight ok, isCounted_joined countedLeft countedRight⟩

end Plan

namespace Search

open Plan

variable {f : Formula} {counts : Int → Prop} {order : Order} {xs : List Relation}

/-! ### The principle of optimality -/

theorem isTree_best {est : Plan → Plan → Int} (nonempty : xs ≠ []) :
    IsTree est (best est order xs) :=
  best_induction (motive := fun _ => IsTree est) .scan
    (fun _ _ _ _ _ _ left right => .join left right) nonempty

/-- The counts of relations and joins are all of the kind that a formula is rising for. -/
theorem counts_of_isTree (rising : f.IsRising counts) {tree : Plan} (built : IsTree f.estimate tree)
    (valid : ∀ r ∈ tree.leaves, r.IsValid) : counts tree.estimate := by
  induction built with
  | scan r =>
    obtain ⟨n, low, is⟩ := (valid r (by simp [ofRelation, leaves])).tuples
    have : (ofRelation r).estimate = n := by simp [ofRelation, Plan.estimate, tuples, is, Value.int?,
      Scalar.int?]
    rw [this]
    exact rising.relations n low
  | join _ _ ihl ihr =>
    exact rising.joins _ _ _ _ (ihl fun r member => valid r (List.mem_append_left _ member))
      (ihr fun r member => valid r (List.mem_append_right _ member))

theorem counts_best (rising : f.IsRising counts) (valid : ∀ r ∈ xs, r.IsValid) (nonempty : xs ≠ []) :
    counts (best f.estimate order xs).estimate :=
  counts_of_isTree rising (isTree_best nonempty) fun r leaf =>
    valid r ((leaves_best nonempty).subset leaf)

/-- The best plan is at most as large as the join of the best plans of any two parts, whether the
search tries this split or the one the other way round. -/
theorem best_le_split (mono : f.IsMonotone counts) (valid : ∀ r ∈ xs, r.IsValid)
    (p : Relation → Bool) (left : ∃ r ∈ xs, p r = true) (right : ∃ r ∈ xs, p r = false) :
    (best f.estimate order xs).estimate ≤
      f.estimate (best f.estimate order (xs.filter p)) (best f.estimate order (xs.filter (!p ·))) := by
  have some : xs.filter p ≠ [] := by
    obtain ⟨r, member, test⟩ := left
    exact List.ne_nil_of_mem (List.mem_filter.mpr ⟨member, test⟩)
  have others : xs.filter (!p ·) ≠ [] := by
    obtain ⟨r, member, test⟩ := right
    exact List.ne_nil_of_mem (List.mem_filter.mpr ⟨member, by simp [test]⟩)
  have counts_part {q : Relation → Bool} (nonempty : xs.filter q ≠ []) :
      counts (best f.estimate order (xs.filter q)).estimate :=
    counts_best mono.rising (fun r member => valid r (List.mem_of_mem_filter member)) nonempty
  have symm : f.estimate (best f.estimate order (xs.filter (!p ·)))
        (best f.estimate order (xs.filter p)) =
      f.estimate (best f.estimate order (xs.filter p)) (best f.estimate order (xs.filter (!p ·))) :=
    mono.symm _ _ _ _ (counts_part others) (counts_part some)
  match xs with
  | [] => exact absurd rfl some
  | [r] =>
    obtain ⟨s, inLeft, yes⟩ := left
    obtain ⟨t, inRight, no⟩ := right
    rw [List.mem_singleton.mp inLeft] at yes
    rw [List.mem_singleton.mp inRight, yes] at no
    contradiction
  | [r, s] =>
    have one (r : Relation) : best f.estimate order [r] = .ofRelation r := best_one r
    cases first : p r with
    | true =>
      cases second : p s with
      | true => simp [first, second] at right
      | false =>
        simp only [List.filter, first, second, Bool.not_true, Bool.not_false, best_two, one,
          estimate_joined, le_refl]
    | false =>
      cases second : p s with
      | true =>
        rw [← symm]
        simp only [List.filter, first, second, Bool.not_true, Bool.not_false, best_two, one,
          estimate_joined, le_refl]
      | false => simp [first, second] at left
  | x :: y :: z :: rest =>
    obtain ⟨_, _, _, smallest⟩ := @exists_candidate f.estimate order (fun _ => none)
      (x :: y :: z :: rest) rfl (by simp)
    -- If the search meets the split from the other side only, the estimate is the same.
    rcases Split.mem_all_of_test order p left right with met | met
    · exact smallest _ met
    · exact symm ▸ smallest _ met

/-- What the best plan has in common with a tree over the same relations. -/
structure Alike (counts : Int → Prop) (best tree : Plan) : Prop where
  countsBest : counts best.estimate
  countsTree : counts tree.estimate
  attributes : best.attributes = tree.attributes

theorem alike_best (order : Order) (rising : f.IsRising counts) {tree : Plan}
    (built : IsTree f.estimate tree) (same : tree.leaves.Perm xs) (valid : ∀ r ∈ xs, r.IsValid) :
    Alike counts (best f.estimate order xs) tree := by
  have nonempty : xs ≠ [] := by
    intro none
    subst none
    exact tree.leaves_ne_nil same.eq_nil
  have leaves := (@leaves_best f.estimate order _ nonempty).trans same.symm
  constructor
  · exact counts_best rising valid nonempty
  · exact counts_of_isTree rising built fun r leaf => valid r (same.subset leaf)
  · exact attributes_eq leaves fun r leaf =>
      (valid r ((leaves_best nonempty).subset leaf)).attributes

theorem exists_test {ls rs : List Relation} (distinct : Distinct xs) (same : (ls ++ rs).Perm xs) :
    ∃ p : Relation → Bool, ls.Perm (xs.filter p) ∧ rs.Perm (xs.filter (!p ·)) := by
  have apart : Distinct (ls ++ rs) := distinct.perm same
  rw [Distinct, List.map_append, List.nodup_append] at apart
  obtain ⟨_, _, disjoint⟩ := apart
  -- Relations of the right side pass the test only if they share an identity with the left side.
  let p (r : Relation) : Bool := (ls.map identity).contains (identity r)
  have yes : ∀ r ∈ ls, p r = true := by
    intro r member
    exact List.contains_iff_mem.mpr (List.mem_map_of_mem member)
  have no : ∀ r ∈ rs, p r = false := by
    intro r member
    by_contra inside
    have inside := List.contains_iff_mem.mp (by simpa using inside)
    exact disjoint _ inside _ (List.mem_map_of_mem member) rfl
  refine ⟨p, ?_, ?_⟩
  · have parts := same.filter p
    rwa [List.filter_append, List.filter_eq_self.mpr yes,
      List.filter_eq_nil_iff.mpr (fun r member => by simp [no r member]), List.append_nil] at parts
  · have parts := same.filter (!p ·)
    rwa [List.filter_append, List.filter_eq_nil_iff.mpr (fun r member => by simp [yes r member]),
      List.filter_eq_self.mpr (fun r member => by simp [no r member]), List.nil_append] at parts

theorem exists_test_leaves {left right : Plan} (distinct : Distinct xs)
    (same : (left.leaves ++ right.leaves).Perm xs) :
    ∃ p : Relation → Bool, left.leaves.Perm (xs.filter p) ∧ right.leaves.Perm (xs.filter (!p ·)) ∧
      (∃ r ∈ xs, p r = true) ∧ ∃ r ∈ xs, p r = false := by
  obtain ⟨p, inLeft, inRight⟩ := exists_test distinct same
  obtain ⟨r, first⟩ := List.exists_mem_of_ne_nil _ left.leaves_ne_nil
  obtain ⟨s, second⟩ := List.exists_mem_of_ne_nil _ right.leaves_ne_nil
  have first := List.mem_filter.mp (inLeft.subset first)
  have second := List.mem_filter.mp (inRight.subset second)
  exact ⟨p, inLeft, inRight, ⟨r, first⟩, s, second.1, by simpa using second.2⟩

/-- No tree over the same relations is smaller than the best plan. -/
theorem best_le (mono : f.IsMonotone counts) {tree : Plan} (built : IsTree f.estimate tree)
    (same : tree.leaves.Perm xs) (distinct : Distinct xs) (valid : ∀ r ∈ xs, r.IsValid) :
    (best f.estimate order xs).estimate ≤ tree.estimate := by
  -- The two sides of a tree are trees over two parts of the list.
  induction built generalizing xs with
  | scan r =>
    have only : xs = [r] := (List.singleton_perm.mp same).symm
    rw [only, best_one]
  | @join left right treeLeft treeRight ihl ihr =>
    obtain ⟨p, inLeft, inRight, someLeft, someRight⟩ := exists_test_leaves distinct same
    have validPart {q : Relation → Bool} : ∀ r ∈ xs.filter q, r.IsValid := fun r member =>
      valid r (List.mem_of_mem_filter member)
    have leLeft := ihl inLeft (distinct.sublist List.filter_sublist) validPart
    have leRight := ihr inRight (distinct.sublist List.filter_sublist) validPart
    have sideLeft := alike_best order mono.rising treeLeft inLeft validPart
    have sideRight := alike_best order mono.rising treeRight inRight validPart
    calc (best f.estimate order xs).estimate
        ≤ f.estimate (best f.estimate order (xs.filter p))
            (best f.estimate order (xs.filter (!p ·))) :=
          best_le_split mono valid p someLeft someRight
      _ = f (best f.estimate order (xs.filter p)).estimate left.attributes
            (best f.estimate order (xs.filter (!p ·))).estimate right.attributes := by
          rw [Formula.estimate, sideLeft.attributes, sideRight.attributes]
      _ ≤ f left.estimate left.attributes right.estimate right.attributes :=
          mono.le sideLeft.countsBest sideLeft.countsTree sideRight.countsBest sideRight.countsTree
            leLeft leRight

end Search

namespace CostModel

/-- The estimates of the model follow a monotone formula. -/
def IsMonotone (model : CostModel) (f : Formula) : Prop :=
  model.Estimates f.estimate ∧ ∃ counts, f.IsMonotone counts

theorem isMonotone_known (machine : Machine) (known : Known) :
    (known.model machine).IsMonotone known.formula :=
  ⟨known.estimates_formula, (0 ≤ ·), known.monotone_formula⟩

end CostModel

namespace Optimizer

open Search

/-- The known models are monotone. Under a monotone model and without a time limit, an empty table
gets a plan that the model builds over the relations, unless somebody listens who cannot be told all
numbers, and no other tree that the model builds over them has fewer tuples. -/
theorem optimize_optimal :
    (∀ (machine : Machine) (known : CostModel.Known),
      (known.model machine).IsMonotone known.formula) ∧
      ∀ (o : Optimizer) (f : Formula) (clock : Clock) (readings : Nat) (collection : Item)
        (relations : List Relation), o.model.IsMonotone f →
        (∃ description, o.model.describe = .ok description) →
        o.settings.timeout.isNull = true → collection.isCollection = true →
        collection.elements = .ok (relations.map .relation) → relations ≠ [] → Distinct relations →
        (∀ r ∈ relations, r.IsNumbered ∧ r.IsNamed ∧ r.IsValid) →
        RelationSet.checkSize relations.length o.settings.maxRelations = .ok () →
          ((∃ plan, (o.optimize clock readings ∅ collection).result = .ok plan) ↔
            (o.settings.verbose.truthy = true → ∀ sorted, Relation.sort relations = .ok sorted →
              o.Audible f.estimate sorted)) ∧
          ∀ plan, (o.optimize clock readings ∅ collection).result = .ok plan →
            plan.Built o.model ∧ plan.leaves.Perm relations ∧
              ∀ tree : Plan, tree.Built o.model → tree.leaves.Perm relations →
                ∃ m n, plan.tuples = .int m ∧ tree.tuples = .int n ∧ m ≤ n := by
  refine ⟨CostModel.isMonotone_known, ?_⟩
  intro o f clock readings collection relations ⟨estimates, counts, mono⟩ described untimed
    given elements nonempty distinct proper small
  have valid : ∀ r ∈ relations, r.IsValid := fun r member => (proper r member).2.2
  have counted : ∀ r ∈ relations, r.IsCounted := fun r member => (valid r member).isCounted
  have checked : RelationSet.checkAll collection o.settings.maxRelations = .ok relations :=
    RelationSet.checkAll_eq_ok.mpr ⟨given, elements, nonempty, valid, distinct, small⟩
  obtain ⟨memo', accepted⟩ := accept_fresh described checked
  have comparable : relations.Pairwise Relation.Comparable := by
    apply List.pairwise_of_forall_mem_list
    intro r hr s hs
    exact Relation.comparable_of_numbered (proper r hr).1 (proper s hs).1
  constructor
  · rw [optimize_isOk_iff estimates untimed accepted]
    exact ⟨fun ⟨_, _, audible⟩ => audible,
      fun audible => ⟨fun r member => (proper r member).2.1, comparable, audible⟩⟩
  · intro plan ok
    obtain ⟨sorted, sort, rfl⟩ := optimize_eq_best estimates.agrees accepted ok
    have perm := Relation.perm_of_sort sort
    have some := sorted_ne_nil checked sort
    have leaves := (@leaves_best f.estimate o.settings.order _ some).trans perm
    have tree := @isTree_best o.settings.order _ f.estimate some
    obtain ⟨built, isCounted⟩ := tree.built estimates fun r leaf =>
      counted r (leaves.subset leaf)
    refine ⟨built, leaves, fun other builtOther same => ?_⟩
    obtain ⟨treeOther, countedOther⟩ := builtOther.isTree estimates fun r leaf =>
      counted r (same.subset leaf)
    have le := @best_le f counts o.settings.order _ mono _ treeOther (same.trans perm.symm)
      (distinct.perm perm) fun r member => valid r (perm.subset member)
    exact ⟨_, _, isCounted.tuples_eq, countedOther.tuples_eq, le⟩

def threeRelations : List Relation :=
  [Problem.plainRelation 1 "A", Problem.plainRelation 2 "B", Problem.plainRelation 3 "C"]

theorem proper_three : ∀ r ∈ threeRelations, r.IsNumbered ∧ r.IsNamed := by
  intro r member
  simp only [threeRelations, List.mem_cons, List.not_mem_nil, or_false] at member
  rcases member with rfl | rfl | rfl <;> exact ⟨⟨_, rfl⟩, _, rfl⟩

theorem optimize_optimal_three :
    ∃ plan, (plainOptimizer.optimize (fun _ => 0) 0 ∅ (listOf threeRelations)).result = .ok plan ∧
      ∀ tree : Plan, tree.Built (.sharedAttributes .small) → tree.leaves.Perm threeRelations →
        ∃ m n, plan.tuples = .int m ∧ tree.tuples = .int n ∧ m ≤ n := by
  have proper : ∀ r ∈ threeRelations, r.IsNumbered ∧ r.IsNamed ∧ r.IsValid := by
    have plain (id : Int) (name : String) : (Problem.plainRelation id name).IsNumbered ∧
        (Problem.plainRelation id name).IsNamed ∧ (Problem.plainRelation id name).IsValid :=
      ⟨⟨id, rfl⟩, ⟨name, rfl⟩, ⟨10, by decide, rfl⟩, fun s member => absurd member List.not_mem_nil⟩
    intro r member
    simp only [threeRelations, List.mem_cons, List.not_mem_nil, or_false] at member
    rcases member with rfl | rfl | rfl <;> exact plain _ _
  obtain ⟨returned, least⟩ := optimize_optimal.2 plainOptimizer
    (CostModel.Known.formula .sharedAttributes) (fun _ => 0) 0 (listOf threeRelations) threeRelations
    (CostModel.isMonotone_known .small .sharedAttributes) (describe_known .sharedAttributes) rfl rfl rfl
    (by simp [threeRelations]) (by decide) proper rfl
  obtain ⟨plan, ok⟩ := returned.mpr fun listens => absurd listens (by decide)
  exact ⟨plan, ok, (least plan ok).2.2⟩

end Optimizer

end JoinOrder
