import JoinOrder.Proofs.PlanMap
/-!
Looking up in a plan. The search leaves out every branch that misses a relation and stops at the first
node that joins exactly the wanted ones. It finds what a walk through all nodes would find first: a
branch that misses a relation has no such node, whether or not its relations occur elsewhere as well.
-/

namespace JoinOrder

namespace Plan

variable {p n left right : Plan} {tuples : Value} {wanted : List Atom} {X : Collected} {r : Relation}

theorem ids_join (left right : Plan) (tuples : Value) :
    (join left right tuples).ids = left.ids ∪ right.ids := by
  ext a
  rw [Finset.mem_union, ids, ids, ids, List.mem_toFinset, List.mem_toFinset, List.mem_toFinset]
  exact IdSet.mem_identities_union

theorem ids_nonempty (p : Plan) : p.ids.Nonempty := by
  obtain ⟨a, member⟩ := List.exists_mem_of_ne_nil _ p.relations_ne_nil
  exact ⟨a, List.mem_toFinset.mpr member⟩

/-- No node joins a relation that the plan does not join. -/
theorem ids_subset_of_mem_nodes (inside : n ∈ p.nodes) : n.ids ⊆ p.ids := by
  induction p with
  | scan r tuples => rw [List.mem_singleton.mp inside]
  | join left right tuples ihl ihr =>
    rw [ids_join]
    rcases List.mem_cons.mp inside with rfl | below
    · rw [ids_join]
    · rcases List.mem_append.mp below with inLeft | inRight
      · exact (ihl inLeft).trans Finset.subset_union_left
      · exact (ihr inRight).trans Finset.subset_union_right

/-- Every relation of a plan is scanned by some node. -/
theorem exists_scan_of_mem_ids {a : Atom} (member : a ∈ p.ids) : ∃ n ∈ p.nodes, n.ids = {a} := by
  induction p with
  | scan r tuples =>
    have is : (scan r tuples).ids = {identity r} := rfl
    rw [is, Finset.mem_singleton] at member
    exact ⟨_, List.mem_singleton_self _, by rw [is, member]⟩
  | join left right tuples ihl ihr =>
    rw [ids_join, Finset.mem_union] at member
    rcases member with inLeft | inRight
    · obtain ⟨n, below, is⟩ := ihl inLeft
      exact ⟨n, List.mem_cons_of_mem _ (List.mem_append_left _ below), is⟩
    · obtain ⟨n, below, is⟩ := ihr inRight
      exact ⟨n, List.mem_cons_of_mem _ (List.mem_append_right _ below), is⟩

/-! ### The search -/

/-- Where something is missing, no node can fit. -/
theorem find?_nodes_of_not_subset {wanted : Finset Atom} (lacks : ¬ wanted ⊆ p.ids) :
    p.nodes.find? (fun n => n.ids = wanted) = none := by
  refine List.find?_eq_none.mpr fun n inside fits => lacks ?_
  exact of_decide_eq_true fits ▸ ids_subset_of_mem_nodes inside

/-- The search finds the first of all nodes that fit. -/
theorem find?_eq_find?_nodes (K : RelationSet) (p : Plan) :
    p.find? K.identities = p.nodes.find? fun n => n.ids = K.identities.toFinset := by
  have fits (p : Plan) : (p.relations.identities == K.identities) =
      decide (p.ids = K.identities.toFinset) := by
    rw [Bool.eq_iff_iff, beq_iff_eq, decide_eq_true_iff, ids, IdSet.toFinset_identities_inj]
  have has (p : Plan) : K.identities.all p.relations.contains =
      decide (K.identities.toFinset ⊆ p.ids) := by
    rw [Bool.eq_iff_iff, List.all_eq_true, decide_eq_true_iff]
    simp only [IdSet.contains_iff, Finset.subset_iff, ids, List.mem_toFinset]
  induction p with
  | scan r tuples =>
    rw [find?, fits, nodes, List.find?_singleton]
    simp only [ite_self]
  | join left right tuples ihl ihr =>
    rw [find?, fits, has]
    by_cases same : (join left right tuples).ids = K.identities.toFinset
    · simp [nodes, same]
    · by_cases all : K.identities.toFinset ⊆ (join left right tuples).ids
      · simp [nodes, same, all, ihl, ihr]
      · simp [same, all, find?_nodes_of_not_subset all]

/-! ### Looking up -/

theorem lookup_collected (p : Plan) (X : Collected) :
    p.lookup X.item = .ok (p.nodes.find? fun n => n.ids = X.ids) := by
  rw [Collected.ids, ← IdSet.toFinset_identities_ofList, ← find?_eq_find?_nodes]
  cases collection : X.item.isCollection with
  | true =>
    have members : X.item.members = X.relations.map .relation := by
      rw [Item.members, collection, X.elements]
      rfl
    rw [lookup, members, Collected.allSettled_relations, Item.mapM_relation?]
    rfl
  | false =>
    obtain ⟨⟨s, is⟩, none⟩ := Collected.eq_text_of_single collection
    -- No node joins nothing.
    rw [none, is, find?_eq_find?_nodes]
    refine congrArg Except.ok (List.find?_eq_none.mpr fun n _ empty => ?_).symm
    exact n.ids_nonempty.ne_empty (of_decide_eq_true empty)

theorem lookup_relation (p : Plan) (r : Relation) :
    p.lookup (.relation r) = .ok (p.nodes.find? fun n => n.ids = {identity r}) := by
  have only : (IdSet.ofList [r]).identities.toFinset = {identity r} := by
    rw [IdSet.toFinset_identities_ofList]
    rfl
  rw [← only, ← find?_eq_find?_nodes]
  rfl

theorem holds_collected (p : Plan) (X : Collected) :
    p.holds X.item = .ok (p.nodes.find? fun n => n.ids = X.ids).isSome := by
  have found := p.lookup_collected X
  unfold holds
  split
  case h_1 r is =>
    -- A relation has no elements, so it is no collection.
    have elements := X.elements
    rw [is] at elements
    contradiction
  case h_2 =>
    rw [found]
    rfl

/-- A relation is in a plan exactly if some node joins it alone. -/
theorem holds_relation (p : Plan) (r : Relation) :
    p.holds (.relation r) = .ok (p.nodes.find? fun n => n.ids = {identity r}).isSome := by
  rw [holds]
  refine congrArg Except.ok (Bool.eq_iff_iff.mpr ?_)
  rw [IdSet.contains_iff, List.find?_isSome]
  constructor
  · intro member
    obtain ⟨n, inside, is⟩ := exists_scan_of_mem_ids (List.mem_toFinset.mpr member)
    exact ⟨n, inside, decide_eq_true is⟩
  · rintro ⟨n, inside, is⟩
    refine List.mem_toFinset.mp (ids_subset_of_mem_nodes inside ?_)
    rw [of_decide_eq_true is]
    exact Finset.mem_singleton_self _

/-- What is found for a collection of any kind is the first node that joins exactly its relations, and
nothing is found exactly if there is no such node; a collection is in the plan exactly if something is
found for it. A single relation counts as a collection of itself, also where it is asked for without
a walk through the nodes. -/
theorem lookup_first (p : Plan) :
    (∀ X : Collected, ∃ found, p.lookup X.item = .ok found ∧
      found = p.nodes.find? (fun n => n.ids = X.ids) ∧
      (found = none ↔ ∀ n ∈ p.nodes, n.ids ≠ X.ids) ∧ (X.relations = [] → found = none) ∧
      p.holds X.item = .ok found.isSome) ∧
    ∀ r : Relation, ∃ found, p.lookup (.relation r) = .ok found ∧
      found = p.nodes.find? (fun n => n.ids = {identity r}) ∧
      p.holds (.relation r) = .ok found.isSome := by
  refine ⟨fun X => ⟨_, p.lookup_collected X, rfl, ?_, fun none => ?_, p.holds_collected X⟩,
    fun r => ⟨_, p.lookup_relation r, rfl, p.holds_relation r⟩⟩
  · rw [List.find?_eq_none]
    exact forall₂_congr fun n _ => by rw [decide_eq_true_eq]
  · refine List.find?_eq_none.mpr fun n _ fits => n.ids_nonempty.ne_empty ?_
    rw [of_decide_eq_true fits, Collected.ids, none]
    rfl

section Examples

open Problem (plainRelation)
open Touch (gathered)

/-- A relation joined with itself, and that with another one: both of its inner nodes join one
relation alone. -/
def overlapping : Plan :=
  let one := Plan.ofRelation (plainRelation 1 "A")
  let twice := Plan.join one one (.int 100)
  .join twice (.ofRelation (plainRelation 2 "B")) (.int 1000)

theorem lookup_first_overlapping :
    (∃ found, overlapping.lookup (gathered .stream [plainRelation 2 "B", plainRelation 1 "A"]).item =
      .ok (some found) ∧ found.depth = 3) ∧
    ((gathered .list []).relations = [] ∧ overlapping.lookup (gathered .list []).item = .ok none) ∧
    ∃ found, overlapping.lookup (.relation (plainRelation 1 "A")) = .ok (some found) ∧
      found.depth = 2 ∧ overlapping.holds (.relation (plainRelation 1 "A")) = .ok true := by
  obtain ⟨collections, relations⟩ := lookup_first overlapping
  obtain ⟨whole, looked, first, _⟩ :=
    collections (gathered .stream [plainRelation 2 "B", plainRelation 1 "A"])
  obtain ⟨nothing, looked', _, _, none, _⟩ := collections (gathered .list [])
  obtain ⟨inner, looked'', first', holds⟩ := relations (plainRelation 1 "A")
  have top : whole.map depth = some 3 := by rw [first]; decide +kernel
  have below : inner.map depth = some 2 := by rw [first']; decide +kernel
  obtain ⟨found, rfl, three⟩ := Option.map_eq_some_iff.mp top
  obtain ⟨found', rfl, two⟩ := Option.map_eq_some_iff.mp below
  exact ⟨⟨found, looked, three⟩, ⟨rfl, none rfl ▸ looked'⟩, found', looked'', two, holds⟩

end Examples

end Plan

end JoinOrder
