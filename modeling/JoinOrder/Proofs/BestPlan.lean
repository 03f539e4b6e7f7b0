import JoinOrder.Proofs.Estimate
import JoinOrder.Proofs.Memo
import JoinOrder.Proofs.Split
/-!
The plan that a search has to find. What is known already is taken as it is; of all other lists with
more than two relations every split is tried, and the first of the smallest candidates wins.

Nothing is known to `best`: it is the search without a table.
-/

namespace JoinOrder

namespace Plan

/-- The plan with the fewest tuples, of several the first one. -/
def fewest : List Plan → Option Plan :=
  @List.argmin Plan Int Int.instLinearOrder.toPreorder (fun m n => Int.decLt m n) estimate

variable {p q : Plan} {plans : List Plan}

theorem fewest_mem (h : fewest plans = some p) : p ∈ plans := List.argmin_mem h

theorem fewest_le (h : fewest plans = some p) (member : q ∈ plans) : p.estimate ≤ q.estimate :=
  List.le_of_mem_argmin member h

theorem exists_fewest (nonempty : plans ≠ []) : ∃ p, fewest plans = some p := by
  apply Option.ne_none_iff_exists'.mp
  intro none
  exact nonempty (List.argmin_eq_none.mp none)

/-- A new plan only counts if it has fewer tuples than all before. -/
theorem fewest_concat (plans : List Plan) (p : Plan) : fewest (plans ++ [p]) =
    match fewest plans with
    | none => some p
    | some q => if p.estimate < q.estimate then some p else some q := by
  unfold fewest
  rw [List.argmin_concat]
  split <;> rename_i found <;> simp only [found]

end Plan

namespace Search

variable (est : Plan → Plan → Int) (order : Order) (known : RelationSet → Option Plan)

/-- The plan of relations in their order, where some sets have known plans. -/
def planFrom (relations : List Relation) : Plan :=
  match known (.ofList relations) with
  | some plan => plan
  | none =>
    match relations with
    | [] => default
    | [r] => .ofRelation r
    | [left, right] => .joined est (.ofRelation left) (.ofRelation right)
    | relations =>
      let candidates := (Split.all order relations).attach.map fun ⟨part, member⟩ =>
        have := (Split.isSplit_of_mem member).length_left_lt
        have := (Split.isSplit_of_mem member).length_right_lt
        Plan.joined est (planFrom part.1) (planFrom part.2)
      (Plan.fewest candidates).getD default
termination_by relations.length

/-- The joins of the two sides of a split. -/
def candidateOf (part : List Relation × List Relation) : Plan :=
  .joined est (planFrom est order known part.1) (planFrom est order known part.2)

/-- All joins that are tried for a list, in the order of its splits. -/
def candidates (relations : List Relation) : List Plan :=
  (Split.all order relations).map (candidateOf est order known)

/-- The plan of relations in their order, where nothing is known. -/
def best (relations : List Relation) : Plan := planFrom est order (fun _ => none) relations

variable {est order known} {relations : List Relation}

theorem planFrom_known {plan : Plan} (found : known (.ofList relations) = some plan) :
    planFrom est order known relations = plan := by
  unfold planFrom
  rw [found]

theorem planFrom_one {r : Relation} (new : known (.ofList [r]) = none) :
    planFrom est order known [r] = .ofRelation r := by
  unfold planFrom
  rw [new]

theorem planFrom_two {left right : Relation} (new : known (.ofList [left, right]) = none) :
    planFrom est order known [left, right] =
      .joined est (.ofRelation left) (.ofRelation right) := by
  unfold planFrom
  rw [new]

theorem planFrom_many (new : known (.ofList relations) = none) (many : 3 ≤ relations.length) :
    planFrom est order known relations =
      (Plan.fewest (candidates est order known relations)).getD default := by
  obtain ⟨x, y, z, rest, rfl⟩ : ∃ x y z rest, relations = x :: y :: z :: rest := by
    match relations, many with
    | x :: y :: z :: rest, _ => exact ⟨x, y, z, rest, rfl⟩
  conv => lhs; unfold planFrom
  rw [new]
  simp only [candidates, List.map_subtype, List.unattach_attach]
  rfl

theorem fewest_candidates (new : known (.ofList relations) = none) (many : 3 ≤ relations.length) :
    Plan.fewest (candidates est order known relations) = some (planFrom est order known relations) := by
  have nonempty : candidates est order known relations ≠ [] := by
    rw [ne_eq, candidates, List.map_eq_nil_iff, Split.all_eq, List.map_eq_nil_iff,
      List.range_eq_nil]
    exact Nat.ne_of_gt (Split.count_pos order (by omega))
  obtain ⟨plan, found⟩ := Plan.exists_fewest nonempty
  rw [planFrom_many new many, found]
  rfl

/-- With more than two relations the plan is one of the candidates, and no candidate is smaller. -/
theorem exists_candidate (new : known (.ofList relations) = none) (many : 3 ≤ relations.length) :
    ∃ part ∈ Split.all order relations,
      planFrom est order known relations = candidateOf est order known part ∧
        ∀ other ∈ Split.all order relations,
          (planFrom est order known relations).estimate ≤
            (candidateOf est order known other).estimate := by
  have found := @fewest_candidates est order known relations new many
  obtain ⟨part, member, is⟩ := List.mem_map.mp (Plan.fewest_mem found)
  exact ⟨part, member, is.symm, fun other met => Plan.fewest_le found (List.mem_map_of_mem met)⟩

/-! ### What plans cover -/

/-- What is known of a set joins exactly this set. -/
def Sound (known : RelationSet → Option Plan) : Prop :=
  ∀ K plan, known K = some plan → plan.relations.identities = K.identities ∧ plan.IsCounted

theorem covers_joined {xs ys : List Relation} {left right : Plan}
    (perm : (xs ++ ys).Perm relations)
    (hl : left.relations.identities = (IdSet.ofList xs).identities)
    (hr : right.relations.identities = (IdSet.ofList ys).identities) :
    (Plan.joined est left right).relations.identities = (IdSet.ofList relations).identities := by
  refine IdSet.identities_eq fun a => ?_
  rw [Plan.relations_joined, IdSet.mem_identities_union, hl, hr, IdSet.mem_identities_ofList,
    IdSet.mem_identities_ofList, IdSet.mem_identities_ofList, ← (perm.map identity).mem_iff,
    List.map_append, List.mem_append]

theorem covers_ofRelation (r : Relation) :
    (Plan.ofRelation r).relations.identities = (IdSet.ofList [r]).identities := rfl

/-- The plan of some relations is known, a scan, or a join of the plans of two parts that have all of
them together. -/
theorem planFrom_induction {motive : List Relation → Plan → Prop}
    (found : ∀ xs plan, known (.ofList xs) = some plan → motive xs plan)
    (one : ∀ r, motive [r] (.ofRelation r))
    (join : ∀ xs ys zs left right, (xs ++ ys).Perm zs → motive xs left → motive ys right →
      motive zs (.joined est left right))
    (nonempty : relations ≠ []) : motive relations (planFrom est order known relations) := by
  induction length : relations.length using Nat.strongRecOn generalizing relations with
  | ind n ih =>
    cases new : known (.ofList relations) with
    | some plan =>
      rw [planFrom_known new]
      exact found relations plan new
    | none =>
      match relations, nonempty with
      | [r], _ =>
        rw [planFrom_one new]
        exact one r
      | [left, right], _ =>
        rw [planFrom_two new]
        exact join _ _ _ _ _ (.refl _) (one left) (one right)
      | x :: y :: z :: rest, _ =>
        obtain ⟨part, member, chosen, _⟩ := @exists_candidate est order _ _ new
          (by simp)
        have split := Split.isSplit_of_mem member
        rw [chosen]
        exact join _ _ _ _ _ split.perm
          (ih _ (length ▸ split.length_left_lt) split.left_ne_nil rfl)
          (ih _ (length ▸ split.length_right_lt) split.right_ne_nil rfl)

theorem planFrom_covers (sound : Sound known) (counted : ∀ r ∈ relations, r.IsCounted)
    (nonempty : relations ≠ []) :
    (planFrom est order known relations).relations.identities = (IdSet.ofList relations).identities ∧
      (planFrom est order known relations).IsCounted := by
  refine planFrom_induction (motive := fun xs plan => (∀ r ∈ xs, r.IsCounted) →
    plan.relations.identities = (IdSet.ofList xs).identities ∧ plan.IsCounted)
    (fun xs plan found _ => sound _ plan found)
    (fun r counted => ⟨covers_ofRelation r, Plan.isCounted_ofRelation (counted r (by simp))⟩)
    (fun xs ys zs left right perm hl hr counted => ?_) nonempty counted
  have left := hl fun r member => counted r (perm.subset (List.mem_append_left ys member))
  have right := hr fun r member => counted r (perm.subset (List.mem_append_right xs member))
  exact ⟨covers_joined perm left.1 right.1, Plan.isCounted_joined left.2 right.2⟩

theorem sound_none : Sound fun _ => none := fun _ _ found => nomatch found

/-! ### Tables of best plans -/

theorem best_induction {motive : List Relation → Plan → Prop} (one : ∀ r, motive [r] (.ofRelation r))
    (join : ∀ xs ys zs left right, (xs ++ ys).Perm zs → motive xs left → motive ys right →
      motive zs (.joined est left right))
    (nonempty : relations ≠ []) : motive relations (best est order relations) :=
  planFrom_induction (fun _ _ found => nomatch found) one join nonempty

theorem leaves_best (nonempty : relations ≠ []) :
    (best est order relations).leaves.Perm relations :=
  best_induction (motive := fun xs plan => plan.leaves.Perm xs) (fun _ => .refl _)
    (fun _ _ _ _ _ perm hl hr => (hl.append hr).trans perm) nonempty

theorem best_one (r : Relation) : best est order [r] = .ofRelation r := planFrom_one rfl

theorem best_two (left right : Relation) :
    best est order [left, right] = .joined est (.ofRelation left) (.ofRelation right) :=
  planFrom_two rfl

theorem best_many (many : 3 ≤ relations.length) :
    best est order relations =
      (Plan.fewest ((Split.all order relations).map fun part =>
        Plan.joined est (best est order part.1) (best est order part.2))).getD default :=
  planFrom_many rfl many

/-- Where only best plans are known, the search finds what it would find without them. -/
theorem planFrom_eq_best
    (h : ∀ ys plan, ys.Sublist relations → known (.ofList ys) = some plan →
      plan = best est order ys) :
    planFrom est order known relations = best est order relations := by
  induction length : relations.length using Nat.strongRecOn generalizing relations with
  | ind n ih =>
    cases new : known (.ofList relations) with
    | some plan =>
      rw [planFrom_known new]
      exact h relations plan (.refl _) new
    | none =>
      match relations with
      | [] => unfold best planFrom; rw [new]
      | [r] => rw [planFrom_one new, best_one]
      | [left, right] => rw [planFrom_two new, best_two]
      | x :: y :: z :: rest =>
        rw [planFrom_many new (by simp), best, planFrom_many rfl (by simp)]
        -- Candidate by candidate the plans are the same, so the first of the smallest is as well.
        refine congrArg (fun plans => (Plan.fewest plans).getD default)
          (List.map_congr_left fun part member => ?_)
        have split := Split.isSplit_of_mem member
        have left := ih _ (length ▸ split.length_left_lt)
          (fun ys plan sub => h ys plan (sub.trans split.sublist_left)) rfl
        have right := ih _ (length ▸ split.length_right_lt)
          (fun ys plan sub => h ys plan (sub.trans split.sublist_right)) rfl
        rw [candidateOf, left, right]
        rfl

end Search

end JoinOrder
