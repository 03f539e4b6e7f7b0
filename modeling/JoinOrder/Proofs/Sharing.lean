import JoinOrder.Proofs.CrossProducts
import JoinOrder.Proofs.Halvings
import JoinOrder.Proofs.PlanMap
/-!
Two ways to tell a cross product. A join graph looks for an edge between the two sides of a join, a cost
model counts the attributes that the two sides have in common. Edges were found for two relations at a
time and the attributes of a side were put together join by join; still both say the same, since an
attribute that two groups have in common is one of a relation here and of a relation there.
-/

namespace JoinOrder

open JoinGraph (Bridged)

variable {sources targets : List Relation}

/-- Groups are bridged exactly if the attributes of the one meet those of the other. -/
theorem JoinGraph.bridged_iff_not_disjoint :
    Bridged sources targets ↔ ¬ Disjoint (attributesOf sources) (attributesOf targets) := by
  rw [Finset.not_disjoint_iff]
  simp only [mem_attributesOf, Bridged, Relation.Touches]
  constructor
  · rintro ⟨r, source, s, target, a, left, right⟩
    exact ⟨a, ⟨r, source, left⟩, s, target, right⟩
  · rintro ⟨a, ⟨r, source, left⟩, s, target, right⟩
    exact ⟨r, source, s, target, a, left, right⟩

theorem JoinGraph.bridged_comm : Bridged sources targets ↔ Bridged targets sources := by
  rw [bridged_iff_not_disjoint, bridged_iff_not_disjoint, disjoint_comm]

namespace Plan

variable {p left right : Plan} {tuples : Value}

theorem exists_join_of_mem_joins {join : Plan} (member : join ∈ p.joins) :
    ∃ left right tuples, join = .join left right tuples := by
  induction p with
  | scan r tuples => contradiction
  | join left right tuples ihl ihr =>
    rcases List.mem_append.mp member with below | last
    · exact (List.mem_append.mp below).elim ihl ihr
    · exact ⟨left, right, tuples, List.mem_singleton.mp last⟩

theorem isCross_join_iff :
    (join left right tuples).IsCross ↔ (join left right tuples).overlap = 0 := by
  rw [overlap, shared_attributes, common, Finset.card_eq_zero, ← Finset.disjoint_iff_inter_eq_empty,
    IsCross, JoinGraph.bridged_iff_not_disjoint, not_not]

/-- The cross products of a plan are the joins without an attribute in common. -/
theorem crossJoins_eq (p : Plan) : p.crossJoins = p.joins.filter fun join => join.overlap = 0 := by
  refine List.filter_congr fun join member => decide_eq_decide.mpr ?_
  obtain ⟨left, right, tuples, rfl⟩ := exists_join_of_mem_joins member
  exact isCross_join_iff

end Plan

namespace JoinGraph

open Plan

/-- Asked about two collections of relations, a graph looks at the relations in them. -/
theorem joins_collected (g : JoinGraph) (A B : Collected) :
    g.joins A.item B.item = g.joinsBetween B.relations A.relations := by
  have all : (A.relations.map Item.relation).takeWhile (·.relation?.isSome) =
      A.relations.map .relation := by
    refine List.takeWhile_eq_self_iff.mpr fun item member => ?_
    obtain ⟨r, _, rfl⟩ := List.mem_map.mp member
    rfl
  have back (relations : List Relation) :
      (relations.map Item.relation).filterMap Item.relation? = relations := by
    rw [List.filterMap_map]
    exact List.filterMap_some
  have nothing : (A.relations.map Item.relation).drop A.relations.length = [] :=
    List.drop_of_length_le (List.length_map _).le
  unfold joins
  rw [A.elements_eq, B.elements_eq]
  simp only [bind, Except.bind, Collected.allSettled_relations, all, back, nothing]
  cases g.joinsBetween B.relations A.relations with
  | error e => rfl
  | ok joined => cases joined <;> rfl

/-- A join graph that can be made and a cost model agree on cross products: in a plan of different
relations of the graph these are the joins without an attribute in common, in the order in which joins
are listed. Two groups without common members are joined by an edge, from whichever side, exactly if
the attributes of all relations in the one meet those of the other. -/
theorem crossProducts_eq_filter {G : Collected} (distinct : Distinct G.relations) :
    ((∀ r ∈ G.relations, r.IsNamed) →
      ((∃ g, ofItem G.item = .ok g) ↔ G.relations.Pairwise Relation.Comparable)) ∧
    ∀ g, ofItem G.item = .ok g →
      (∀ (plan : Plan) (handles : Handles), plan.leaves ⊆ G.relations → Distinct plan.leaves →
        handles.Tells plan →
          g.crossProducts plan handles = .ok (plan.joins.filter fun join => join.overlap = 0)) ∧
      ∀ A B : Collected, A.relations ⊆ G.relations → B.relations ⊆ G.relations →
        A.relations.Disjoint B.relations → ∃ joined, g.joins A.item B.item = .ok joined ∧
          g.joins B.item A.item = .ok joined ∧
          (joined = true ↔ ¬ Disjoint (attributesOf A.relations) (attributesOf B.relations)) := by
  refine ⟨ofItem_isOk_iff G.elements_eq distinct, fun g ok => ?_⟩
  obtain ⟨sorted, sorts, rfl⟩ := (ofItem_eq_ok_iff G.elements_eq).mp ok
  have perm := Relation.perm_of_sort sorts
  have apart := distinct.perm perm
  have known {relations : List Relation} (sub : relations ⊆ G.relations) : relations ⊆ sorted :=
    List.Subset.trans sub perm.symm.subset
  constructor
  · intro plan handles sub once tells
    rw [crossProducts_eq apart (known sub) once tells, crossJoins_eq]
  · intro A B subA subB disjoint
    refine ⟨decide (Bridged A.relations B.relations), ?_, ?_, ?_⟩
    · rw [joins_collected, joinsBetween_eq apart (known subA) (known subB) disjoint]
    · rw [joins_collected, joinsBetween_eq apart (known subB) (known subA) disjoint.symm]
      exact congrArg Except.ok (decide_eq_decide.mpr bridged_comm)
    · rw [decide_eq_true_iff, bridged_iff_not_disjoint]

section Examples

open Problem (plainRelation)
open Touch (gathered)

/-- The relation without attributes is joined between the other two. -/
def interrupted : Plan :=
  let x : Attributes := .ofList [.text "x"]
  .join (.join (.ofRelation { plainRelation 1 "A" with attributes := x })
      (.ofRelation (plainRelation 3 "C")) (.int 100))
    (.ofRelation { plainRelation 2 "B" with attributes := x }) (.int 500)

theorem crossProducts_eq_filter_linked : Distinct linked ∧ interrupted.leaves ⊆ linked ∧
    Distinct interrupted.leaves ∧ ∃ g, ofItem (gathered .list linked).item = .ok g ∧
      g.crossProducts interrupted (.number 0 interrupted) =
        .ok (interrupted.joins.filter fun join => join.overlap = 0) ∧
      (interrupted.joins.filter fun join => join.overlap = 0).length = 1 ∧
      g.joins (gathered .stream (linked.drop 1)).item (gathered .tuple (linked.take 1)).item =
        .ok true := by
  have distinct : Distinct linked := by decide
  have sub : interrupted.leaves ⊆ linked := by
    simp [interrupted, linked, leaves, ofRelation]
  have once : Distinct interrupted.leaves := by decide
  obtain ⟨found, between⟩ :=
    (crossProducts_eq_filter (G := gathered .list linked) distinct).2 _ ofItem_linked
  obtain ⟨joined, ok, _, bridged⟩ := between (gathered .stream (linked.drop 1))
    (gathered .tuple (linked.take 1)) (List.drop_subset 1 linked) (List.take_subset 1 linked)
    (List.disjoint_take_drop distinct.nodup le_rfl).symm
  have yes : joined = true := bridged.mpr (by decide +kernel)
  exact ⟨distinct, sub, once, _, ofItem_linked, found _ _ sub once (Handles.tells_number _),
    by decide +kernel, yes ▸ ok⟩

/-- Relations that are apart from one another may have no graph that could tell. -/
theorem crossProducts_namesakes : Distinct namesakes ∧ ∃ (plan : Plan) (handles : Handles),
    plan.leaves = namesakes ∧ handles.Tells plan ∧ ∀ crossed,
      (do (← ofItem (gathered .list namesakes).item).crossProducts plan handles) ≠ .ok crossed := by
  refine ⟨by decide, .join (.ofRelation (plainRelation 1 "A"))
    (.ofRelation { plainRelation 3 "A" with id := .text "x" }) (.int 100), _, rfl,
    Handles.tells_number _, fun crossed ok => ?_⟩
  cases made : ofItem (gathered .list namesakes).item with
  | error e =>
    rw [made] at ok
    exact nomatch ok
  | ok g => exact ofItem_namesakes_ne_ok g made

end Examples

end JoinGraph

end JoinOrder
