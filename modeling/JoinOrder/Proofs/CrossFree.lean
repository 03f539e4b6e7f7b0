import JoinOrder.Proofs.FirstSplit
/-!
Cross products in the plans that an optimizer finds. It compares how many tuples candidates have, and
whether they are cross products makes no difference to it. So a plan for connected relations can have some
where a plan without any would be just as good.

It has them in right inputs only, because left inputs are connected. Where the relations that remain for
the right input are always connected as well, it has none.
-/

namespace JoinOrder

open CostModel Plan Search JoinGraph

/-! ### Relations that can be taken apart from the front -/

section Peeling

variable {r s : Relation} {xs ys before rest : List Relation}

/-- Whenever linked relations lose a linked part that has the first of them, the others stay linked. -/
def Peelable (xs : List Relation) : Prop :=
  ∀ r rest, (r :: rest).Sublist xs → Linked (r :: rest) → ∀ p : Relation → Bool, p r = true →
    Linked ((r :: rest).filter p) → Linked ((r :: rest).filter (!p ·))

theorem Peelable.sublist (h : Peelable ys) (sub : xs.Sublist ys) : Peelable xs :=
  fun r rest part => h r rest (part.trans sub)

theorem crossJoins_best_eq_nil (h : IsInput xs) (some : xs ≠ []) (linked : Linked xs)
    (peelable : Peelable xs) : (best sharedOf .canonical xs).crossJoins = [] := by
  refine best_canonical_induction (motive := fun xs plan => IsInput xs → Linked xs → Peelable xs →
    plan.crossJoins = []) (fun _ _ _ _ => rfl) ?_ h some h linked peelable
  intro r rest p yes someLeft someRight left noneLeft noneRight h linked peelable
  have right := peelable r rest (.refl _) linked p yes left
  have parts := List.filter_append_perm p (r :: rest)
  have bridged := (linked.perm parts.symm).bridged (h.perm parts).distinct.nodup someLeft someRight
  rw [joined, crossJoins_join,
    noneLeft (h.sublist List.filter_sublist) left (peelable.sublist List.filter_sublist),
    noneRight (h.sublist List.filter_sublist) right (peelable.sublist List.filter_sublist),
    if_pos ((bridged_congr (leaves_best someLeft) (leaves_best someRight)).mpr bridged)]
  rfl

/-- Only neighbours in the list have attributes in common. -/
def IsChain (xs : List Relation) : Prop := ∀ r s t, [r, s, t].Sublist xs → ¬ r.Touches t

theorem IsChain.sublist (h : IsChain ys) (sub : xs.Sublist ys) : IsChain xs :=
  fun r s t part => h r s t (part.trans sub)

theorem IsChain.apart (h : IsChain (before ++ s :: rest)) {t u : Relation} (ht : t ∈ before)
    (hu : u ∈ rest) : ¬ t.Touches u := by
  have part : [t, s, u].Sublist (before ++ s :: rest) :=
    (List.singleton_sublist.mpr ht).append ((List.singleton_sublist.mpr hu).cons_cons s)
  exact h t s u part

/-- What is left of a linked chain when a beginning is cut off is linked. -/
theorem IsChain.linked_rest (h : IsChain (before ++ s :: rest)) (nodup : (before ++ s :: rest).Nodup)
    (linked : Linked (before ++ s :: rest)) : Linked (s :: rest) := by
  classical
  intro p ⟨t, inRest, yes⟩ ⟨u, inRest', no⟩
  -- What was cut off is put on the side of the relation that it was cut off from.
  let q (v : Relation) : Bool := if v ∈ s :: rest then p v else p s
  have inside {v : Relation} (member : v ∈ s :: rest) : q v = p v := if_pos member
  have outside {v : Relation} (member : v ∈ before) : q v = p s :=
    if_neg fun inside => List.disjoint_of_nodup_append nodup member inside
  obtain ⟨v, member, w, member', here, there, touches⟩ := linked q
    ⟨t, List.mem_append_right _ inRest, (inside inRest).trans yes⟩
    ⟨u, List.mem_append_right _ inRest', (inside inRest').trans no⟩
  rcases List.mem_append.mp member with inBefore | inRest
  · rw [outside inBefore] at here
    rcases List.mem_append.mp member' with inBefore' | inRest'
    · rw [outside inBefore', here] at there
      contradiction
    · rw [inside inRest'] at there
      rcases List.mem_cons.mp inRest' with rfl | later
      · rw [here] at there
        contradiction
      · exact absurd touches (h.apart inBefore later)
  · rw [inside inRest] at here
    rcases List.mem_append.mp member' with inBefore' | inRest'
    · rw [outside inBefore'] at there
      rcases List.mem_cons.mp inRest with rfl | later
      · rw [here] at there
        contradiction
      · exact absurd touches.symm (h.apart inBefore' later)
    · rw [inside inRest'] at there
      exact ⟨v, inRest, w, inRest', here, there, touches⟩

/-- A linked part of a chain has no gaps. -/
theorem IsChain.all_after (h : IsChain (before ++ s :: rest)) (nodup : (before ++ s :: rest).Nodup)
    {p : Relation → Bool} (first : r ∈ before) (all : ∀ t ∈ before, p t = true) (no : p s = false)
    (linked : Linked ((before ++ s :: rest).filter p)) : ∀ t ∈ rest, p t = false := by
  classical
  intro t member
  by_contra passes
  have beyond : t ∉ before := fun inBefore =>
    List.disjoint_of_nodup_append nodup inBefore (List.mem_cons_of_mem s member)
  obtain ⟨u, _, v, inside, here, there, touches⟩ := linked (fun u => decide (u ∈ before))
    ⟨r, List.mem_filter.mpr ⟨List.mem_append_left _ first, all r first⟩, by simpa using first⟩
    ⟨t, List.mem_filter.mpr ⟨by simp [member], by simpa using passes⟩, by simpa using beyond⟩
  obtain ⟨inside, yes⟩ := List.mem_filter.mp inside
  have later := (List.mem_append.mp inside).resolve_left (of_decide_eq_false there)
  rcases List.mem_cons.mp later with rfl | later
  · rw [no] at yes
    contradiction
  · exact h.apart (of_decide_eq_true here) later touches

theorem IsChain.peelable (h : IsChain xs) (nodup : xs.Nodup) : Peelable xs := by
  intro r rest sub linked p yes part
  by_cases some : ∃ s ∈ r :: rest, p s = false
  · obtain ⟨s, member, no⟩ := some
    obtain ⟨s, before, after, all, no, is, -⟩ :=
      List.exists_of_eraseP (p := fun s => !p s) member (by simp [no])
    have no : p s = false := by simpa using no
    have all : ∀ t ∈ before, p t = true := by simpa using all
    have first : r ∈ before := by
      cases before with
      | nil =>
        obtain ⟨rfl, -⟩ := List.cons.inj is
        rw [yes] at no
        contradiction
      | cons t before =>
        obtain ⟨rfl, -⟩ := List.cons.inj is
        exact List.mem_cons_self
    rw [is] at sub linked part ⊢
    have chain := h.sublist sub
    have once := nodup.sublist sub
    have others := chain.all_after once first all no part
    have rest_is : (before ++ s :: after).filter (!p ·) = s :: after := by
      rw [List.filter_append, List.filter_eq_nil_iff.mpr (by simpa using all), List.nil_append,
        List.filter_eq_self.mpr (by simpa [no] using others)]
    rw [rest_is]
    exact chain.linked_rest once linked
  · have none : (r :: rest).filter (!p ·) = [] := by
      simpa [List.filter_eq_nil_iff] using some
    rw [none]
    rintro q ⟨t, member, _⟩
    exact nomatch member

end Peeling

/-! ### Calls for connected relations -/

namespace Plan

variable {p : Plan}

theorem not_isCross_of_linked (linked : Linked p.leaves) (nodup : p.leaves.Nodup) : ¬ p.IsCross := by
  cases p with
  | scan r tuples => exact id
  | join left right tuples =>
    exact not_not_intro (linked.bridged nodup left.leaves_ne_nil right.leaves_ne_nil)

theorem isCross_of_mem_crossJoins {join : Plan} (member : join ∈ p.crossJoins) : join.IsCross :=
  of_decide_eq_true (List.mem_filter.mp member).2

/-- Leaves of inputs are leaves of the plan, where they were. -/
theorem sublist_leaves_of_mem_joins {left right : Plan} {tuples : Value}
    (member : .join left right tuples ∈ p.joins) : left.leaves.Sublist p.leaves := by
  induction p with
  | scan r tuples => exact nomatch member
  | join l r v ihl ihr =>
    rw [joins, List.mem_append, List.mem_append, List.mem_singleton] at member
    rcases member with (inLeft | inRight) | here
    · exact (ihl inLeft).trans (List.sublist_append_left ..)
    · exact (ihr inRight).trans (List.sublist_append_right ..)
    · obtain ⟨rfl, -, -⟩ := Plan.join.inj here
      exact List.sublist_append_left ..

end Plan

namespace Optimizer

variable {o : Optimizer} {collection : Item} {relations : List Relation} {g : JoinGraph}

/-- An optimizer that halves and splits in the canonical order gets relations whose graph is connected.
Without a time limit it returns a plan for an empty table, unless somebody listens who cannot be told all
numbers. Some tree without cross products has as many tuples as this plan, so cross products never make
it better. It may have some all the same, but neither the plan itself nor any left input is one, because
the relations of every left input are connected. It has none if taking linked parts away from the front
always leaves linked relations behind, as it does if only neighbours in the order of the relations have
attributes in common. -/
theorem crossProducts_optimize {machine : Machine} (model : o.model = .sharedAttributes machine)
    (order : o.settings.order = .canonical)
    (checked : RelationSet.checkAll collection o.settings.maxRelations = .ok relations)
    (proper : ∀ r ∈ relations, r.IsNumbered ∧ r.IsNamed) (graph : JoinGraph.ofItem collection = .ok g)
    (connected : g.isConnected = true) {clock : Clock} {readings : Nat} :
    (o.settings.timeout.isNull = true →
      ((∃ plan, (o.optimize clock readings ∅ collection).result = .ok plan) ↔
        (o.settings.verbose.truthy = true →
          ∀ sorted, Relation.sort relations = .ok sorted → o.Audible sharedOf sorted))) ∧
    ∀ plan, (o.optimize clock readings ∅ collection).result = .ok plan →
      (∃ tree handles, tree.Built (.sharedAttributes machine) ∧ tree.leaves.Perm relations ∧
        tree.tuples = plan.tuples ∧ Handles.Tells handles tree ∧
          g.crossProducts tree handles = .ok []) ∧
      ∀ handles : Handles, handles.Tells plan →
        ∃ crossed, g.crossProducts plan handles = .ok crossed ∧ plan ∉ crossed ∧
          (∀ left right tuples, .join left right tuples ∈ plan.joins →
            Linked left.leaves ∧ left ∉ crossed) ∧
          ∀ sorted, Relation.sort relations = .ok sorted → Peelable sorted ∨ IsChain sorted →
            crossed = [] := by
  have estimates : o.model.Estimates sharedOf := model ▸ estimates_sharedAttributes
  have described : ∃ description, o.model.describe = .ok description :=
    model ▸ describe_known .sharedAttributes
  have ⟨_, elements, _, valid, distinct, _⟩ := RelationSet.checkAll_eq_ok.mp checked
  refine ⟨fun untimed => optimize_isOk_iff_audible estimates described untimed checked proper,
    fun plan ok => ?_⟩
  obtain ⟨table, accepted⟩ := accept_fresh described checked
  obtain ⟨xs, sort, rfl⟩ := optimize_eq_best estimates.agrees accepted ok
  obtain ⟨xs', sort', rfl⟩ := (ofItem_eq_ok_iff elements).mp graph
  obtain rfl : xs' = xs := Except.ok.inj (sort'.symm.trans sort)
  have perm := Relation.perm_of_sort sort
  have some := sorted_ne_nil checked sort
  have input : IsInput xs' :=
    ⟨distinct.perm perm, fun r member => valid r (perm.subset member)⟩
  have linked := (isConnected_iff_linked input.distinct some).mp connected
  rw [order]
  have leaves := @leaves_best sharedOf .canonical xs' some
  have crossed {tree : Plan} {handles : Handles} (same : tree.leaves.Perm xs')
      (tells : handles.Tells tree) :
      (ofSorted xs').crossProducts tree handles = .ok tree.crossJoins :=
    crossProducts_eq input.distinct same.subset (input.distinct.perm same) tells
  constructor
  · obtain ⟨tree, built, same, none, fewest⟩ := exists_tree_linked .canonical input linked some
    obtain ⟨builtBy, counted⟩ := built.built estimates_sharedAttributes fun r leaf =>
      (input.valid r (same.subset leaf)).isCounted
    have counted' := (@planFrom_covers sharedOf .canonical _ xs' sound_none
      (fun r member => (input.valid r member).isCounted) some).2
    have tells := Handles.tells_number tree
    refine ⟨tree, _, builtBy, same.trans perm, ?_, tells, none ▸ crossed same tells⟩
    rw [counted.tuples_eq, fewest, least_eq some]
    exact counted'.tuples_eq.symm
  · intro handles tells
    have once := (input.distinct.perm leaves).nodup
    refine ⟨_, crossed leaves tells, fun itself => ?_, fun left right tuples member => ?_,
      fun sorted sort' shape => ?_⟩
    · exact not_isCross_of_linked (linked.perm leaves.symm) once (isCross_of_mem_crossJoins itself)
    · have linkedLeft := linked_left_of_mem_joins input some member
      exact ⟨linkedLeft, fun inside => not_isCross_of_linked linkedLeft
        (once.sublist (sublist_leaves_of_mem_joins member)) (isCross_of_mem_crossJoins inside)⟩
    · obtain rfl : sorted = xs' := Except.ok.inj (sort'.symm.trans sort)
      have peelable := shape.elim id fun chain => chain.peelable input.distinct.nodup
      exact crossJoins_best_eq_nil input some linked peelable

section Examples

open Problem

/-- Three relations in a row. -/
def row : List Relation :=
  [relationWith 1 "A" 4 ["x"], relationWith 2 "B" 4 ["x", "y"], relationWith 3 "C" 4 ["y"]]

/-- The same in another order: the relation that touches both others is the first one. -/
def hub : List Relation :=
  [relationWith 1 "A" 4 ["x", "y"], relationWith 2 "B" 4 ["x"], relationWith 3 "C" 4 ["y"]]

theorem crossProducts_optimize_row : ∃ g plan handles, JoinGraph.ofItem (listOf row) = .ok g ∧
    g.isConnected = true ∧
      (plainOptimizer.optimize (fun _ => 0) 0 ∅ (listOf row)).result = .ok plan ∧
        Handles.Tells handles plan ∧ g.crossProducts plan handles = .ok [] := by
  have proper : ∀ r ∈ row, r.IsNumbered ∧ r.IsNamed := by
    intro r member
    simp only [row, List.mem_cons, List.not_mem_nil, or_false] at member
    rcases member with rfl | rfl | rfl <;> exact proper_relationWith ..
  have sorts : Relation.sort row = .ok row :=
    Relation.sort_of_proper proper (by decide) (by unfold Relation.Ordered; decide +kernel)
  have made : JoinGraph.ofItem (listOf row) = .ok (ofSorted row) :=
    (ofItem_eq_ok_iff rfl).mpr ⟨row, sorts, rfl⟩
  have connected : (ofSorted row).isConnected = true := by decide +kernel
  have chain : IsChain row := by
    intro r s t sub
    have whole : [r, s, t] = row := sub.eq_of_length rfl
    simp only [row, List.cons.injEq, and_true] at whole
    obtain ⟨rfl, rfl, rfl⟩ := whole
    decide +kernel
  obtain ⟨returned, plans⟩ := @crossProducts_optimize plainOptimizer (listOf row) row _ .small rfl rfl
    rfl proper made connected (fun _ => 0) 0
  obtain ⟨plan, ok⟩ := (returned rfl).mpr fun listens => absurd listens (by decide)
  have tells := Handles.tells_number plan
  obtain ⟨crossed, found, _, _, none⟩ := (plans plan ok).2 _ tells
  exact ⟨_, plan, _, made, connected, ok, tells, none row sorts (.inr chain) ▸ found⟩

/-- The two relations that do not touch one another. -/
def outerProduct : Plan :=
  .join (.ofRelation (relationWith 2 "B" 4 ["x"])) (.ofRelation (relationWith 3 "C" 4 ["y"]))
    (.int 16)

/-- All ways to join the three relations come to as many tuples, and this one is tried first. -/
def hubPlan : Plan :=
  .join (.ofRelation (relationWith 1 "A" 4 ["x", "y"])) outerProduct (.int 16)

theorem best_hub : best sharedOf .canonical hub = hubPlan := by
  have splits (r s t : Relation) : Split.all .canonical [r, s, t] =
      [([r], [s, t]), ([r, s], [t]), ([r, t], [s])] := by
    have three : Split.count .canonical 3 = 3 := rfl
    simp [Split.all_eq, three, List.range_succ, Split.nth, Split.byMask, Order.mask]
  rw [hub, best_many (by simp), splits]
  simp only [List.map_cons, List.map_nil, best_one, best_two]
  rfl

/-- The graph of the three relations is connected, and still the plan has a cross product. -/
theorem crossProducts_hub :
    RelationSet.checkAll (listOf hub) plainOptimizer.settings.maxRelations = .ok hub ∧
      (∀ r ∈ hub, r.IsNumbered ∧ r.IsNamed) ∧
      ∃ g handles, JoinGraph.ofItem (listOf hub) = .ok g ∧ g.isConnected = true ∧
        (plainOptimizer.optimize (fun _ => 0) 0 ∅ (listOf hub)).result = .ok hubPlan ∧
        Handles.Tells handles hubPlan ∧ g.crossProducts hubPlan handles = .ok [outerProduct] := by
  have proper : ∀ r ∈ hub, r.IsNumbered ∧ r.IsNamed := by
    intro r member
    simp only [hub, List.mem_cons, List.not_mem_nil, or_false] at member
    rcases member with rfl | rfl | rfl <;> exact proper_relationWith ..
  have checked : RelationSet.checkAll (listOf hub) plainOptimizer.settings.maxRelations = .ok hub :=
    rfl
  have sorts : Relation.sort hub = .ok hub :=
    Relation.sort_of_proper proper (by decide) (by unfold Relation.Ordered; decide +kernel)
  have described : ∃ description, plainOptimizer.model.describe = .ok description :=
    describe_known .sharedAttributes
  obtain ⟨table, accepted⟩ := accept_fresh described checked
  have returned : ∃ plan,
      (plainOptimizer.optimize (fun _ => 0) 0 ∅ (listOf hub)).result = .ok plan :=
    (optimize_isOk_iff_audible estimates_sharedAttributes described rfl checked proper).mpr
      fun listens => absurd listens (by decide)
  obtain ⟨plan, ok⟩ := returned
  obtain ⟨xs, sort, rfl⟩ := optimize_eq_best estimates_sharedAttributes.agrees accepted ok
  obtain rfl : hub = xs := Except.ok.inj (sorts.symm.trans sort)
  have found : best sharedOf plainOptimizer.settings.order hub = hubPlan := best_hub
  rw [found] at ok
  have tells := Handles.tells_number hubPlan
  refine ⟨checked, proper, _, _, (ofItem_eq_ok_iff rfl).mpr ⟨hub, sorts, rfl⟩, by decide +kernel, ok,
    tells, ?_⟩
  rw [crossProducts_eq (by decide) (List.Subset.refl hub) (by decide) tells]
  have inner : outerProduct.IsCross := by decide +kernel
  have outer : ¬ hubPlan.IsCross := by decide +kernel
  have joins : hubPlan.joins = [outerProduct, hubPlan] := rfl
  simp [crossJoins, joins, inner, outer]

end Examples

end Optimizer

end JoinOrder
