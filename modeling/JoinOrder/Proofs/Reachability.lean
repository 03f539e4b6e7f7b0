import JoinOrder.Proofs.CrossProducts
import JoinOrder.Proofs.Halvings
import JoinOrder.Proofs.PlanMap
/-!
Components as classes of relations that can be reached from one another by way of attributes in common.
A group that has grown by neighbours until none was missing holds whatever a chain leads to from one of
its relations, and a chain leads to each of them, from whichever relation the group has grown.

The components are listed by their first relations. No two of them have one first relation, so the
list is the same however the relations were given.
-/

namespace JoinOrder

theorem SortKey.atMost_singleton (x y : SortKey) : atMost (.tuple [x]) (.tuple [y]) = atMost x y := by
  rw [atMost, atMost, order, orderItems, orderItems, Ordering.then_eq]

namespace JoinGraph

variable {xs group : List Relation} {r s t : Relation}

/-! ### Chains -/

/-- Relations of a list from one to another, where neighbours have an attribute in common. -/
def Chained (xs : List Relation) (r s : Relation) : Prop :=
  ∃ chain : List Relation, chain ⊆ xs ∧ chain.IsChain Relation.Touches ∧
    chain.head? = some r ∧ chain.getLast? = some s

theorem Chained.refl (member : r ∈ xs) : Chained xs r r :=
  ⟨[r], List.cons_subset.mpr ⟨member, List.nil_subset xs⟩, .singleton r, rfl, rfl⟩

theorem Chained.step (h : Chained xs r s) (member : t ∈ xs) (touches : s.Touches t) :
    Chained xs r t := by
  obtain ⟨chain, sub, linked, first, last⟩ := h
  refine ⟨chain ++ [t], ?_, ?_, ?_, List.getLast?_concat⟩
  · exact List.append_subset.mpr ⟨sub, List.cons_subset.mpr ⟨member, List.nil_subset xs⟩⟩
  · refine linked.append (.singleton t) fun u isLast v isFirst => ?_
    rw [last] at isLast
    cases isLast
    cases isFirst
    exact touches
  · rw [List.head?_append, first]
    rfl

theorem Chained.mono {ys : List Relation} (sub : xs ⊆ ys) : Chained xs r s → Chained ys r s :=
  fun ⟨chain, inside, others⟩ => ⟨chain, List.Subset.trans inside sub, others⟩

/-- A chain does not leave a group that has all neighbours. -/
theorem ClosedIn.of_chained (closed : ClosedIn xs group) (member : r ∈ group)
    (chained : Chained xs r s) : s ∈ group := by
  obtain ⟨chain, sub, linked, first, last⟩ := chained
  induction chain generalizing r with
  | nil => contradiction
  | cons t rest ih =>
    obtain rfl : t = r := Option.some.inj first
    obtain ⟨_, subRest⟩ := List.cons_subset.mp sub
    cases rest with
    | nil => exact Option.some.inj last ▸ member
    | cons u rest =>
      obtain ⟨touches, linked⟩ := List.isChain_cons_cons.mp linked
      exact ih (closed t member u (subRest List.mem_cons_self) touches) subRest linked rfl last

/-- A group consists of what chains lead to from any of its relations. -/
theorem IsGroup.mem_iff_chained (h : IsGroup xs group) (member : r ∈ group) :
    s ∈ group ↔ Chained xs r s := by
  classical
  constructor
  · -- What chains lead to has all neighbours too, so a group cannot be left over in part.
    have closed : ClosedIn xs (xs.filter fun t => Chained xs r t) := by
      intro t inside u known touches
      refine List.mem_filter.mpr ⟨known, decide_eq_true ?_⟩
      exact (of_decide_eq_true (List.mem_filter.mp inside).2).step known touches
    have start : r ∈ xs.filter fun t => Chained xs r t :=
      List.mem_filter.mpr ⟨h.subset member, decide_eq_true (.refl (h.subset member))⟩
    intro inside
    have all := h.grown.subset_of_closed h.subset closed member start
    exact of_decide_eq_true (List.mem_filter.mp (all inside)).2
  · exact h.closed.of_chained member

/-! ### Groups as sets -/

/-- The first relation of a set in the order of relations. -/
def IsFirst (c : RelationSet) (r : Relation) : Prop := ∃ rest, Relation.sort c.toList = .ok (r :: rest)

/-- A group is listed by the key of its first relation. -/
theorem IsGroup.exists_first (orderly : Relation.Orderly xs) (h : IsGroup xs group) :
    ∃ r ∈ group, IsFirst (.ofList group) r ∧ keyed group = (.tuple [r.sortKey], .ofList group) := by
  have inGroup := orderly.subset h.subset
  have sorts : Relation.sort group = .ok (SortKey.arranged Relation.sortKey group) :=
    Relation.sort_eq_ok.mpr (SortKey.sortBy?_of_comparable inGroup.comparable)
  have perm := SortKey.arranged_perm Relation.sortKey group
  cases arranged : SortKey.arranged Relation.sortKey group with
  | nil =>
    rw [arranged] at perm
    exact absurd perm.symm.eq_nil h.grown.ne_nil
  | cons r rest =>
    rw [arranged] at sorts perm
    refine ⟨r, perm.subset List.mem_cons_self, ⟨rest, ?_⟩, ?_⟩
    · rw [← sorts]
      exact (inGroup.sort_congr h.distinct (IdSet.perm_ofList h.distinct).symm).symm
    · rw [keyed, arranged]
      rfl

variable {groups : List (List Relation)}

/-- As sets, groups without common relations that leave none out divide the relations. -/
theorem AreApart.mem_iff_exists_set (h : AreApart xs groups)
    (all : ∀ r ∈ xs, ∃ group ∈ groups, r ∈ group) :
    r ∈ xs ↔ ∃ c ∈ groups.map IdSet.ofList, r ∈ c.toList := by
  simp only [List.mem_map, exists_exists_and_eq_and]
  constructor
  · intro member
    obtain ⟨group, known, inside⟩ := all r member
    exact ⟨group, known, (IdSet.mem_ofList_iff (h.isGroup group known).distinct).mpr inside⟩
  · rintro ⟨group, known, inside⟩
    have isGroup := h.isGroup group known
    exact isGroup.subset ((IdSet.mem_ofList_iff isGroup.distinct).mp inside)

/-- Two relations are in one of the sets exactly if a chain leads from one to the other. -/
theorem AreApart.together_iff_chained (h : AreApart xs groups)
    (all : ∀ r ∈ xs, ∃ group ∈ groups, r ∈ group) (member : r ∈ xs) :
    (∃ c ∈ groups.map IdSet.ofList, r ∈ c.toList ∧ s ∈ c.toList) ↔ Chained xs r s := by
  simp only [List.mem_map, exists_exists_and_eq_and]
  constructor
  · rintro ⟨group, known, inside, inside'⟩
    have isGroup := h.isGroup group known
    rw [IdSet.mem_ofList_iff isGroup.distinct] at inside inside'
    exact (isGroup.mem_iff_chained inside).mp inside'
  · intro chain
    obtain ⟨group, known, inside⟩ := all r member
    have isGroup := h.isGroup group known
    refine ⟨group, known, (IdSet.mem_ofList_iff isGroup.distinct).mpr inside, ?_⟩
    exact (IdSet.mem_ofList_iff isGroup.distinct).mpr ((isGroup.mem_iff_chained inside).mpr chain)

theorem AreApart.set_ne_nil (h : AreApart xs groups) {c : RelationSet}
    (member : c ∈ groups.map IdSet.ofList) : c.toList ≠ [] := by
  obtain ⟨group, known, rfl⟩ := List.mem_map.mp member
  have isGroup := h.isGroup group known
  exact fun none => isGroup.grown.ne_nil ((none ▸ IdSet.perm_ofList isGroup.distinct).nil_eq.symm)

/-- Groups without common relations have no first relation in common, so their keys put them in a strict
order. -/
theorem AreApart.pairwise_arranged (orderly : Relation.Orderly xs) (distinct : Distinct xs)
    (h : AreApart xs groups) : (SortKey.arranged Prod.fst (groups.map keyed)).Pairwise fun c d =>
      c.2.identities.Disjoint d.2.identities ∧
        ∃ r s, IsFirst c.2 r ∧ IsFirst d.2 s ∧ SortKey.Below r.sortKey s.sortKey := by
  have perm := SortKey.arranged_perm Prod.fst (groups.map keyed)
  have apart : (SortKey.arranged Prod.fst (groups.map keyed)).Pairwise fun c d =>
      c.2.identities.Disjoint d.2.identities := by
    refine (List.Perm.pairwise_iff List.Disjoint.symm perm).mpr (List.pairwise_map.mpr ?_)
    refine h.disjoint.imp_of_mem fun {group group'} member member' disjoint a left right => ?_
    obtain ⟨r, inside, rfl⟩ := List.mem_map.mp (IdSet.mem_identities_ofList.mp left)
    obtain ⟨s, inside', same⟩ := List.mem_map.mp (IdSet.mem_identities_ofList.mp right)
    have one := distinct.eq_of_identity ((h.isGroup _ member').subset inside')
      ((h.isGroup _ member).subset inside) same
    exact disjoint inside (one ▸ inside')
  refine ((SortKey.arranged_pairwise Prod.fst (groups.map keyed)).and apart).imp_of_mem ?_
  intro c d hc hd ⟨atMost, disjoint⟩
  obtain ⟨group, member, rfl⟩ := List.mem_map.mp (perm.subset hc)
  obtain ⟨group', member', rfl⟩ := List.mem_map.mp (perm.subset hd)
  obtain ⟨r, inGroup, first, key⟩ := (h.isGroup group member).exists_first orderly
  obtain ⟨s, inGroup', first', key'⟩ := (h.isGroup group' member').exists_first orderly
  refine ⟨disjoint, r, s, first, first', ?_⟩
  refine Relation.below_sortKey_of_atMost ?_ fun same => ?_
  · rwa [key, key', SortKey.atMost_singleton] at atMost
  · exact disjoint (IdSet.mem_identities_ofList.mpr (List.mem_map_of_mem inGroup))
      (IdSet.mem_identities_ofList.mpr (same ▸ List.mem_map_of_mem inGroup'))

/-- The components of relations in their order are their groups, strictly by their first relations. -/
theorem components_of_distinct (orderly : Relation.Orderly xs) (distinct : Distinct xs) :
    ∃ components, (ofSorted xs).components = .ok components ∧
      components.Perm ((ofSorted xs).groups.map .ofList) ∧ components.Pairwise fun c d =>
        c.identities.Disjoint d.identities ∧
          ∃ r s, IsFirst c r ∧ IsFirst d s ∧ SortKey.Below r.sortKey s.sortKey := by
  refine ⟨_, components_eq orderly.comparable, perm_arranged_keyed _, ?_⟩
  exact List.pairwise_map.mpr ((areApart_groups distinct).1.pairwise_arranged orderly distinct)

theorem isConnected_iff_length_groups_le (distinct : Distinct xs) :
    (ofSorted xs).isConnected = true ↔ (ofSorted xs).groups.length ≤ 1 := by
  by_cases nonempty : xs = []
  · subst nonempty
    exact iff_of_true rfl (Nat.zero_le 1)
  · obtain ⟨r, member⟩ := List.exists_mem_of_ne_nil xs nonempty
    obtain ⟨group, known, _⟩ := (areApart_groups distinct).2 r member
    have some := List.length_pos_of_mem known
    rw [isConnected_iff distinct nonempty]
    omega

/-- Relations with numbers for their identities and texts for their names have a join graph, and it has
components: sets that are not empty, have no relation in common and leave none out. Two relations are
in one of them exactly if a chain of relations leads from one to the other in which neighbours have an
attribute in common. They are listed in the strict order of their first relations, whatever order the
relations were given in, and the graph is connected exactly if there is at most one. -/
theorem components_classes {X : Collected} (distinct : Distinct X.relations)
    (proper : ∀ r ∈ X.relations, r.IsNumbered ∧ r.IsNamed) :
    ∃ g components, ofItem X.item = .ok g ∧ g.components = .ok components ∧
      (∀ c ∈ components, c.toList ≠ []) ∧
      components.Pairwise (fun c d => c.identities.Disjoint d.identities) ∧
      (∀ r, r ∈ X.relations ↔ ∃ c ∈ components, r ∈ c.toList) ∧
      (∀ r ∈ X.relations, ∀ s ∈ X.relations,
        (∃ c ∈ components, r ∈ c.toList ∧ s ∈ c.toList) ↔ Chained X.relations r s) ∧
      components.Pairwise (fun c d =>
        ∃ r s, IsFirst c r ∧ IsFirst d s ∧ SortKey.Below r.sortKey s.sortKey) ∧
      (g.isConnected = true ↔ components.length ≤ 1) ∧
      ∀ Y : Collected, Y.relations.Perm X.relations → ofItem Y.item = .ok g := by
  have orderly : Relation.Orderly X.relations :=
    .of_pairwise (fun r member => (proper r member).2)
      (Relation.pairwise_comparable fun r member => (proper r member).1)
  obtain ⟨sorted, sorts⟩ := orderly.sort_isOk
  have perm := Relation.perm_of_sort sorts
  have apart := distinct.perm perm
  obtain ⟨components, found, sets, ordered⟩ :=
    components_of_distinct (orderly.subset perm.subset) apart
  obtain ⟨areApart, all⟩ := areApart_groups apart
  have toSorted {r s : Relation} : Chained X.relations r s ↔ Chained sorted r s :=
    ⟨.mono perm.symm.subset, .mono perm.subset⟩
  refine ⟨ofSorted sorted, components, (ofItem_eq_ok_iff X.elements_eq).mpr ⟨sorted, sorts, rfl⟩,
    found, fun c member => areApart.set_ne_nil (sets.mem_iff.mp member), ordered.imp And.left,
    fun r => ?_, fun r member s _ => ?_, ordered.imp And.right, ?_, fun Y same => ?_⟩
  · simp only [sets.mem_iff, ← perm.mem_iff]
    exact areApart.mem_iff_exists_set all
  · simp only [sets.mem_iff, toSorted]
    exact areApart.together_iff_chained all (perm.symm.subset member)
  · rw [isConnected_iff_length_groups_le apart, sets.length_eq, List.length_map]
  · rw [ofItem_eq_ok_iff Y.elements_eq, ← orderly.sort_congr distinct same.symm]
    exact ⟨sorted, sorts, rfl⟩

section Examples

open Problem (relationWith proper_relationWith)
open Touch (gathered)

/-- A row in which neighbours have an attribute in common, and one relation that has none. -/
def rowAndOther : List Relation :=
  [relationWith 4 "D" 10 ["y"], relationWith 2 "B" 10 ["x", "y"], relationWith 3 "C" 10 [],
    relationWith 1 "A" 10 ["x"]]

/-- The ends of the row have nothing in common and are in one component. -/
theorem components_classes_row : Distinct rowAndOther ∧
    (∀ r ∈ rowAndOther, r.IsNumbered ∧ r.IsNamed) ∧
    ∃ g components, ofItem (gathered .stream rowAndOther).item = .ok g ∧
      g.components = .ok components ∧
      ¬ (relationWith 1 "A" 10 ["x"]).Touches (relationWith 4 "D" 10 ["y"]) ∧
      ∃ c ∈ components, relationWith 1 "A" 10 ["x"] ∈ c.toList ∧
        relationWith 4 "D" 10 ["y"] ∈ c.toList := by
  have distinct : Distinct rowAndOther := by decide
  have proper : ∀ r ∈ rowAndOther, r.IsNumbered ∧ r.IsNamed := by
    intro r member
    simp only [rowAndOther, List.mem_cons, List.not_mem_nil, or_false] at member
    rcases member with rfl | rfl | rfl | rfl <;> exact proper_relationWith ..
  obtain ⟨g, components, made, found, _, _, _, same, _⟩ :=
    components_classes (X := gathered .stream rowAndOther) distinct proper
  have chained : Chained rowAndOther (relationWith 1 "A" 10 ["x"]) (relationWith 4 "D" 10 ["y"]) := by
    have start : Chained rowAndOther (relationWith 1 "A" 10 ["x"]) (relationWith 1 "A" 10 ["x"]) :=
      .refl (by simp [rowAndOther])
    have next := start.step (t := relationWith 2 "B" 10 ["x", "y"]) (by simp [rowAndOther])
      (by decide +kernel)
    exact next.step (by simp [rowAndOther]) (by decide +kernel)
  refine ⟨distinct, proper, g, components, made, found, by decide +kernel,
    (same _ ?_ _ ?_).mpr chained⟩
  · simp [gathered, rowAndOther]
  · simp [gathered, rowAndOther]

end Examples

end JoinGraph

end JoinOrder
