import JoinOrder.Proofs.Finished
import JoinOrder.Proofs.Optimality
/-!
Both orders of enumeration come to the same tuple counts, if the model follows a symmetric formula.
They visit other candidates and may keep other plans, but each split that one of them visits is visited
by the other from one side or the other, so no count is missed. The formula need not be monotone.
-/

namespace JoinOrder

namespace Formula

/-- It does not matter which input is the left one. -/
def IsSymmetric (f : Formula) : Prop := ∀ m A n B, f m A n B = f n B m A

end Formula

/-- Plans that no formula tells apart. -/
structure Plan.Equivalent (p q : Plan) : Prop where
  estimate : p.estimate = q.estimate
  attributes : p.attributes = q.attributes

theorem Plan.Equivalent.estimate_congr {f : Formula} {p p' q q' : Plan} (hp : p.Equivalent p')
    (hq : q.Equivalent q') : f.estimate p q = f.estimate p' q' := by
  rw [Formula.estimate, Formula.estimate, hp.estimate, hp.attributes, hq.estimate, hq.attributes]

namespace Split

variable {xs : List Relation} {part : List Relation × List Relation}

/-- A split is made by a test that tells its sides apart. -/
theorem IsSplit.exists_filter (h : IsSplit part xs) (distinct : Distinct xs) :
    ∃ p : Relation → Bool, part.1 = xs.filter p ∧ part.2 = xs.filter (!p ·) := by
  obtain ⟨p, left, right⟩ := Search.exists_test distinct h.perm
  refine ⟨p, ?_, ?_⟩
  · exact distinct.eq_of_sublist h.sublist_left List.filter_sublist fun _ =>
      (left.map identity).mem_iff
  · exact distinct.eq_of_sublist h.sublist_right List.filter_sublist fun _ =>
      (right.map identity).mem_iff

/-- Every split is met in every order, from one side or the other. -/
theorem IsSplit.mem_all (h : IsSplit part xs) (distinct : Distinct xs) (order : Order) :
    part ∈ all order xs ∨ part.swap ∈ all order xs := by
  obtain ⟨p, left, right⟩ := h.exists_filter distinct
  have inLeft : ∃ x ∈ xs, p x = true := by
    obtain ⟨x, member⟩ := List.exists_mem_of_ne_nil _ h.left_ne_nil
    exact ⟨x, List.mem_filter.mp (left ▸ member)⟩
  have inRight : ∃ x ∈ xs, p x = false := by
    obtain ⟨x, member⟩ := List.exists_mem_of_ne_nil _ h.right_ne_nil
    obtain ⟨inside, fails⟩ := List.mem_filter.mp (right ▸ member)
    exact ⟨x, inside, by simpa using fails⟩
  have met := mem_all_of_test order p inLeft inRight
  rw [← left, ← right] at met
  exact met

end Split

namespace Search

variable {f : Formula} {xs : List Relation}

theorem attributes_best (valid : ∀ r ∈ xs, r.IsValid) (nonempty : xs ≠ []) (order order' : Order) :
    (best f.estimate order xs).attributes = (best f.estimate order' xs).attributes :=
  Plan.attributes_eq ((leaves_best nonempty).trans (leaves_best nonempty).symm)
    (Optimizer.texts_best valid nonempty)

/-- Whatever split the best plan in one order joins, the best plan in another order is no larger: the
split is among its candidates, or its mirror image is. -/
theorem best_le_best (symm : f.IsSymmetric) (distinct : Distinct xs) (many : 3 ≤ xs.length)
    (order order' : Order) (sides : ∀ part, Split.IsSplit part xs →
      (best f.estimate order part.1).Equivalent (best f.estimate order' part.1) ∧
        (best f.estimate order part.2).Equivalent (best f.estimate order' part.2)) :
    (best f.estimate order xs).estimate ≤ (best f.estimate order' xs).estimate := by
  obtain ⟨part, met, chosen, _⟩ := @exists_candidate f.estimate order' (fun _ => none) xs rfl many
  obtain ⟨_, _, _, smallest⟩ := @exists_candidate f.estimate order (fun _ => none) xs rfl many
  have split := Split.isSplit_of_mem met
  obtain ⟨left, right⟩ := sides part split
  have same : f.estimate (best f.estimate order part.1) (best f.estimate order part.2) =
      (best f.estimate order' xs).estimate :=
    calc f.estimate (best f.estimate order part.1) (best f.estimate order part.2)
        = f.estimate (best f.estimate order' part.1) (best f.estimate order' part.2) :=
          left.estimate_congr right
      _ = (best f.estimate order' xs).estimate := congrArg Plan.estimate chosen.symm
  rcases split.mem_all distinct order with met' | met'
  · exact same ▸ smallest part met'
  · have mirrored : f.estimate (best f.estimate order part.2) (best f.estimate order part.1) =
        (best f.estimate order' xs).estimate := (symm _ _ _ _).trans same
    exact mirrored ▸ smallest part.swap met'

theorem equivalent_best (symm : f.IsSymmetric) (distinct : Distinct xs)
    (valid : ∀ r ∈ xs, r.IsValid) (nonempty : xs ≠ []) (order order' : Order) :
    (best f.estimate order xs).Equivalent (best f.estimate order' xs) := by
  refine ⟨?_, attributes_best valid nonempty order order'⟩
  induction length : xs.length using Nat.strongRecOn generalizing xs order order' with
  | ind n ih =>
    match xs, nonempty with
    | [r], _ => rw [best_one, best_one]
    | [left, right], _ => rw [best_two, best_two]
    | x :: y :: z :: rest, _ =>
      have smaller {ys : List Relation} (sub : ys.Sublist (x :: y :: z :: rest)) (some : ys ≠ [])
          (less : ys.length < (x :: y :: z :: rest).length) (order order' : Order) :
          (best f.estimate order ys).Equivalent (best f.estimate order' ys) := by
        have validPart : ∀ r ∈ ys, r.IsValid := fun r member => valid r (sub.subset member)
        exact ⟨ih _ (length ▸ less) (distinct.sublist sub) validPart some order order' rfl,
          attributes_best validPart some order order'⟩
      have sides (order order' : Order) part (split : Split.IsSplit part (x :: y :: z :: rest)) :=
        And.intro (smaller split.sublist_left split.left_ne_nil split.length_left_lt order order')
          (smaller split.sublist_right split.right_ne_nil split.length_right_lt order order')
      apply le_antisymm
      · exact best_le_best symm distinct (by simp) order order' (sides order order')
      · exact best_le_best symm distinct (by simp) order' order (sides order' order)

theorem tuples_best_eq (symm : f.IsSymmetric) (distinct : Distinct xs)
    (valid : ∀ r ∈ xs, r.IsValid) (nonempty : xs ≠ []) (order order' : Order) :
    (best f.estimate order xs).tuples = (best f.estimate order' xs).tuples := by
  have counted (order : Order) : (best f.estimate order xs).IsCounted :=
    (planFrom_covers sound_none (fun r member => (valid r member).isCounted) nonempty).2
  rw [(counted order).tuples_eq, (counted order').tuples_eq,
    (equivalent_best symm distinct valid nonempty order order').estimate]

end Search

namespace Problem

open Search

/-- Two problems for the same relations, from empty tables, whose orders may differ. -/
structure Counterparts (f : Formula) (P P' : Problem) : Prop where
  symmetric : f.IsSymmetric
  root : P'.root = P.root
  formula : P.est = f.estimate
  formula' : P'.est = f.estimate
  fresh : ∀ K, P.table.find? K = none
  fresh' : ∀ K, P'.table.find? K = none
  valid : ∀ r ∈ P.root, r.IsValid

variable {f : Formula} {P P' : Problem} {xs : List Relation} {m m' : Memo} {K : RelationSet}
  {p : Plan}

namespace Counterparts

theorem symm (h : Counterparts f P P') : Counterparts f P' P :=
  ⟨h.symmetric, h.root.symm, h.formula', h.formula, h.fresh', h.fresh, h.root ▸ h.valid⟩

theorem tuples_best_eq (h : Counterparts f P P') (sub : xs.Sublist P.root) (some : xs ≠ []) :
    (best P.est P.order xs).tuples = (best P'.est P'.order xs).tuples := by
  rw [h.formula, h.formula']
  exact Search.tuples_best_eq h.symmetric (P.distinct.sublist sub) (fun r member =>
    h.valid r (sub.subset member)) some P.order P'.order

/-- Where one order finds a plan, the other finds one of the same size. -/
theorem exists_find? (h : Counterparts f P P') (finished : P.Finished m)
    (finished' : P'.Finished m') (found : m.find? K = some p) :
    ∃ q, m'.find? K = some q ∧ p.tuples = q.tuples := by
  obtain ⟨xs, part, same, rfl⟩ := (finished.find?_fresh h.fresh).mp found
  have part' : P'.IsPart xs := ⟨h.root ▸ part.sublist, part.two⟩
  exact ⟨_, (finished'.find?_fresh h.fresh').mpr ⟨xs, part', same, rfl⟩,
    h.tuples_best_eq part.sublist part.ne_nil⟩

theorem tuples_find?_eq (h : Counterparts f P P') (finished : P.Finished m)
    (finished' : P'.Finished m') (K : RelationSet) :
    (m.find? K).map Plan.tuples = (m'.find? K).map Plan.tuples := by
  cases found : m.find? K with
  | some p =>
    obtain ⟨q, found', same⟩ := h.exists_find? finished finished' found
    rw [found', Option.map_some, Option.map_some, same]
  | none =>
    cases found' : m'.find? K with
    | none => rfl
    | some q =>
      obtain ⟨p, found'', _⟩ := h.symm.exists_find? finished' finished found'
      rw [found] at found''
      contradiction

end Counterparts

end Problem

namespace Optimizer

open Search

def inOrder (o : Optimizer) (order : Order) : Optimizer :=
  { o with settings := { o.settings with order } }

variable {o : Optimizer} {f : Formula} {collection : Item} {relations sorted : List Relation}

/-- What has to be told in one order has as many digits in the other. -/
theorem Audible.inOrder (h : o.Audible f.estimate sorted) (symm : f.IsSymmetric)
    (distinct : Distinct sorted) (valid : ∀ r ∈ sorted, r.IsValid) (order : Order) :
    (o.inOrder order).Audible f.estimate sorted where
  relations := h.relations
  plans := fun xs sub two => by
    have some : xs ≠ [] := List.ne_nil_of_length_pos (Nat.zero_lt_of_lt two)
    have same := tuples_best_eq symm (distinct.sublist sub)
      (fun r member => valid r (sub.subset member)) some o.settings.order order
    exact same ▸ h.plans xs sub two
  layers := h.layers

theorem optimize_inOrder_isOk_iff (estimates : o.model.Estimates f.estimate) (symm : f.IsSymmetric)
    (described : ∃ description, o.model.describe = .ok description)
    (untimed : o.settings.timeout.isNull = true)
    (checked : RelationSet.checkAll collection o.settings.maxRelations = .ok relations)
    (proper : ∀ r ∈ relations, r.IsNumbered ∧ r.IsNamed) {order : Order} {clock : Clock}
    {readings : Nat} :
    (∃ p, ((o.inOrder order).optimize clock readings ∅ collection).result = .ok p) ↔
      (o.settings.verbose.truthy = true → ∀ sorted, Relation.sort relations = .ok sorted →
        o.Audible f.estimate sorted) := by
  have ⟨_, _, _, valid, distinct, _⟩ := RelationSet.checkAll_eq_ok.mp checked
  obtain ⟨table, accepted⟩ := accept_fresh (o := o.inOrder order) described checked
  have turns {o : Optimizer} {sorted : List Relation} (sort : Relation.sort relations = .ok sorted)
      (audible : o.Audible f.estimate sorted) (order : Order) :
      (o.inOrder order).Audible f.estimate sorted := by
    have perm := Relation.perm_of_sort sort
    exact audible.inOrder symm (distinct.perm perm) (fun r member => valid r (perm.subset member))
      order
  rw [optimize_isOk_iff (o := o.inOrder order) estimates untimed accepted]
  constructor
  · rintro ⟨_, _, audible⟩ listens sorted sort
    exact turns sort (audible listens sorted sort) o.settings.order
  · intro audible
    exact ⟨fun r member => (proper r member).2,
      Relation.pairwise_comparable fun r member => (proper r member).1,
      fun listens sorted sort => turns sort (audible listens sorted sort) order⟩

/-- Under a model that follows a symmetric formula, and without a time limit, both orders return a plan
for the same inputs: for all, unless somebody listens who cannot be told all numbers. The plans have
as many tuples, and so have the plans that are left in the two tables, for the same sets. -/
theorem optimize_inOrder (estimates : o.model.Estimates f.estimate) (symm : f.IsSymmetric)
    (described : ∃ description, o.model.describe = .ok description)
    (untimed : o.settings.timeout.isNull = true)
    (checked : RelationSet.checkAll collection o.settings.maxRelations = .ok relations)
    (proper : ∀ r ∈ relations, r.IsNumbered ∧ r.IsNamed) :
    (∀ order clock readings,
        (∃ p, ((o.inOrder order).optimize clock readings ∅ collection).result = .ok p) ↔
          (o.settings.verbose.truthy = true → ∀ sorted, Relation.sort relations = .ok sorted →
            o.Audible f.estimate sorted)) ∧
      ∀ order order' clock clock' readings readings' p q,
        ((o.inOrder order).optimize clock readings ∅ collection).result = .ok p →
        ((o.inOrder order').optimize clock' readings' ∅ collection).result = .ok q →
          p.tuples = q.tuples ∧ ∀ K,
            (((o.inOrder order).optimize clock readings ∅ collection).memo.find? K).map Plan.tuples =
              (((o.inOrder order').optimize clock' readings' ∅ collection).memo.find? K).map
                Plan.tuples := by
  refine ⟨fun order clock readings =>
    optimize_inOrder_isOk_iff estimates symm described untimed checked proper, ?_⟩
  intro order order' clock clock' readings readings' p q ok ok'
  have ⟨_, _, _, valid, _⟩ := RelationSet.checkAll_eq_ok.mp checked
  obtain ⟨table, accepted⟩ := accept_fresh (o := o.inOrder order) described checked
  obtain ⟨table', accepted'⟩ := accept_fresh (o := o.inOrder order') described checked
  obtain ⟨schedules, single⟩ := (o.inOrder order).exists_optimizeBy clock readings ∅ collection
  obtain ⟨schedules', single'⟩ := (o.inOrder order').exists_optimizeBy clock' readings' ∅ collection
  obtain ⟨sorted, sort, finds⟩ :=
    exists_finds (o := o.inOrder order) estimates.agrees accepted single ok
  obtain ⟨sorted', sort', finds'⟩ :=
    exists_finds (o := o.inOrder order') estimates.agrees accepted' single' ok'
  obtain rfl : sorted' = sorted := Except.ok.inj (sort'.symm.trans sort)
  have pair : Problem.Counterparts f
      (posed f.estimate order table (sound_of_fresh (fresh_of_accept accepted)) checked sort)
      (posed f.estimate order' table' (sound_of_fresh (fresh_of_accept accepted')) checked sort) :=
    ⟨symm, rfl, rfl, rfl, fresh_of_accept accepted, fresh_of_accept accepted', fun r member =>
      valid r ((Relation.perm_of_sort sort).subset member)⟩
  constructor
  · rw [finds.plan.trans (Problem.plan_fresh pair.fresh),
      finds'.plan.trans (Problem.plan_fresh pair.fresh')]
    exact pair.tuples_best_eq (.refl _) (sorted_ne_nil checked sort)
  · exact pair.tuples_find?_eq finds.finished finds'.finished

/-- A model whose estimates go up and down. -/
def moody : CostModel where
  name := "MoodyModel"
  describe := .ok (.object [("name", .text "moody")])
  estimate _ left right := .ok (.int (left.estimate * right.estimate % 7))

def moodyOutcome (order : Order) : Outcome :=
  (Optimizer.inOrder ⟨.default, moody, 0, none⟩ order).optimize (fun _ => 0) 0 ∅
    (listOf threeRelations)

theorem optimize_inOrder_moody : ∃ p q : Plan,
    (moodyOutcome .canonical).result = .ok p ∧ (moodyOutcome .reference).result = .ok q ∧
      p.tuples = q.tuples ∧ ∀ K, ((moodyOutcome .canonical).memo.find? K).map Plan.tuples =
        ((moodyOutcome .reference).memo.find? K).map Plan.tuples := by
  let f : Formula := fun m _ n _ => m * n % 7
  have symm : f.IsSymmetric := fun m _ n _ => congrArg (· % 7) (Int.mul_comm m n)
  have estimates : moody.Estimates f.estimate := fun _ _ _ _ _ => rfl
  have proper : ∀ r ∈ threeRelations, r.IsNumbered ∧ r.IsNamed := by
    intro r member
    simp only [threeRelations, List.mem_cons, List.not_mem_nil, or_false] at member
    rcases member with rfl | rfl | rfl <;> exact ⟨⟨_, rfl⟩, _, rfl⟩
  obtain ⟨returned, same⟩ := @optimize_inOrder ⟨.default, moody, 0, none⟩ f (listOf threeRelations)
    threeRelations estimates symm ⟨_, rfl⟩ rfl rfl proper
  obtain ⟨p, ok⟩ := (returned .canonical (fun _ => 0) 0).mpr fun listens => absurd listens (by decide)
  obtain ⟨q, ok'⟩ := (returned .reference (fun _ => 0) 0).mpr fun listens => absurd listens (by decide)
  exact ⟨p, q, ok, ok', same _ _ _ _ _ _ p q ok ok'⟩

end Optimizer

end JoinOrder
