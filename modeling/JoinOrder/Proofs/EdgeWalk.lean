import JoinOrder.Proofs.Neighbours
import JoinOrder.Proofs.TextOrder
/-!
The edges of a join graph one node after the other. Each node comes with the edges to those behind it, so
that every pair of relations with an attribute in common is met once, in the order of the list.
-/

namespace JoinOrder.JoinGraph

variable {xs before rest finished : List Relation} {node r s : Relation}

/-- An edge as it is met at a node, unless it leads back to one whose turn is over. -/
def turned (node : Relation) (finished : List Relation) (e : Edge) : Option Edge :=
  match e.across node with
  | some other => if other.isIn finished then none else some ⟨node, other, e.shared⟩
  | none => none

theorem turned_ahead (fresh : s.isIn finished = false) :
    (edgeBetween node s).bind (turned node finished) = edgeBetween node s := by
  unfold edgeBetween
  split
  · simp [turned, Edge.across, fresh]
  · rfl

theorem turned_back (apart : identity r ≠ identity node)
    (passed : identity s = identity node → r.isIn finished = true) :
    (edgeBetween r s).bind (turned node finished) = none := by
  unfold edgeBetween
  split
  · by_cases back : identity s = identity node
    · simp [turned, Edge.across, apart, back, passed back]
    · simp [turned, Edge.across, apart, back]
  · rfl

/-- Of all pairs of a list, those with a node and something behind it are met at that node. -/
theorem turned_pairsOf (distinct : Distinct (before ++ node :: rest))
    (passed : ∀ r ∈ before, r.isIn finished = true) (ahead : ∀ s ∈ rest, s.isIn finished = false) :
    (pairsOf (before ++ node :: rest)).filterMap
        (fun pair => (edgeBetween pair.1 pair.2).bind (turned node finished)) =
      (rest.map (node, ·)).filterMap fun pair => edgeBetween pair.1 pair.2 := by
  -- By induction on the nodes whose turn is over: no pair with one of them is met here.
  induction before with
  | nil =>
    have behind : ∀ r ∈ rest, identity r ≠ identity node := fun r member same =>
      (List.nodup_cons.mp distinct).1 (same ▸ List.mem_map_of_mem member)
    have later : (pairsOf rest).filterMap
        (fun pair => (edgeBetween pair.1 pair.2).bind (turned node finished)) = [] := by
      refine List.filterMap_eq_nil_iff.mpr fun pair member => ?_
      have inside := mem_of_pairsOf member
      exact turned_back (behind _ inside.1) fun same => absurd same (behind _ inside.2)
    rw [List.nil_append, pairsOf, List.filterMap_append, later, List.append_nil]
    refine List.filterMap_congr fun pair member => ?_
    obtain ⟨s, inside, rfl⟩ := List.mem_map.mp member
    exact turned_ahead (ahead s inside)
  | cons r before ih =>
    obtain ⟨here, passed⟩ := List.forall_mem_cons.mp passed
    have fresh : identity r ≠ identity node := fun same =>
      (List.nodup_cons.mp distinct).1 (same ▸ List.mem_map_of_mem
        (List.mem_append_right before List.mem_cons_self))
    have first : ((before ++ node :: rest).map (r, ·)).filterMap
        (fun pair => (edgeBetween pair.1 pair.2).bind (turned node finished)) = [] := by
      refine List.filterMap_eq_nil_iff.mpr fun pair member => ?_
      obtain ⟨s, -, rfl⟩ := List.mem_map.mp member
      exact turned_back fresh fun _ => here
    rw [List.cons_append, pairsOf, List.filterMap_append, first, List.nil_append]
    exact ih (List.nodup_cons.mp distinct).2 passed

/-- From a node on, the walk meets the edges between all nodes from there on. -/
theorem walkFrom_eq (distinct : Distinct (before ++ rest))
    (passed : ∀ r : Relation, r.isIn finished = r.isIn before) :
    (ofSorted (before ++ rest)).walkFrom finished rest =
      (pairsOf rest).filterMap fun pair => edgeBetween pair.1 pair.2 := by
  induction rest generalizing before finished with
  | nil => rfl
  | cons node rest ih =>
    have known : ∀ r ∈ before, r.isIn finished = true := fun r member =>
      (passed r).trans (Relation.isIn_of_mem member)
    have ahead : ∀ s ∈ rest, s.isIn finished = false := by
      intro s member
      rw [passed, ← Bool.not_eq_true, Relation.isIn_iff]
      intro inside
      rw [Distinct, List.map_append] at distinct
      exact List.disjoint_of_nodup_append distinct inside
        (List.mem_map_of_mem (List.mem_cons_of_mem node member))
    have next : ∀ r : Relation, r.isIn (node :: finished) = r.isIn (before ++ [node]) := by
      intro r
      rw [Relation.isIn, Relation.isIn, List.any_cons, List.any_append, List.any_cons, List.any_nil,
        Bool.or_false, Bool.or_comm]
      exact congrArg (· || _) (passed r)
    -- With its turn over, the node joins those before it.
    have whole : before ++ node :: rest = (before ++ [node]) ++ rest := by simp
    have others := ih (whole ▸ distinct) next
    rw [walkFrom, pairsOf, List.filterMap_append, ← turned_pairsOf distinct known ahead, ← others, whole]
    refine congrArg (· ++ _) ?_
    show (edgesOf _).filterMap (turned node finished) = _
    rw [edgesOf_eq (whole ▸ distinct), List.filterMap_filterMap]

/-- The pairs of relations that have an attribute in common, the earlier one first. -/
def links (relations : List Relation) : List (Relation × Relation) :=
  (pairsOf relations).filter fun pair => pair.1.Touches pair.2

/-- The walk meets every edge once. -/
theorem walk_eq (distinct : Distinct xs) :
    (ofSorted xs).walk = (links xs).map fun pair =>
      ⟨pair.1, pair.2, pair.1.attributes.inter pair.2.attributes⟩ := by
  have nodes : (ofSorted xs).nodes = xs := Relation.distinct_eq_self distinct
  have edges := @walkFrom_eq [] xs [] distinct fun _ => rfl
  rw [walk, nodes]
  refine edges.trans ?_
  rw [links, ← List.filterMap_eq_map, ← List.filterMap_eq_filter, List.filterMap_filterMap]
  refine List.filterMap_congr fun pair _ => ?_
  by_cases touches : pair.1.Touches pair.2 <;> simp [edgeBetween, touches, Option.guard]

/-- One pair for every two relations that have an attribute in common, and no other. -/
structure LinkedOnce (relations : List Relation) (pairs : List (Relation × Relation)) : Prop where
  touching : ∀ r s, (r, s) ∈ pairs ∨ (s, r) ∈ pairs ↔ r ∈ relations ∧ s ∈ relations ∧ r ≠ s ∧ r.Touches s
  once : pairs.Nodup
  oneWay : ∀ r s, (r, s) ∈ pairs → (s, r) ∉ pairs

theorem mem_links : (r, s) ∈ links xs ↔ [r, s].Sublist xs ∧ r.Touches s := by
  rw [links, List.mem_filter, mem_pairsOf, decide_eq_true_iff]

theorem nodup_pairsOf {α : Type} {xs : List α} (nodup : xs.Nodup) : (pairsOf xs).Nodup := by
  induction xs with
  | nil => exact .nil
  | cons x xs ih =>
    obtain ⟨fresh, rest⟩ := List.nodup_cons.mp nodup
    refine List.nodup_append.mpr ⟨rest.map fun _ _ same => (Prod.mk.inj same).2, ih rest, ?_⟩
    intro pair first other later same
    obtain ⟨y, -, rfl⟩ := List.mem_map.mp first
    have pair : [x, y].Sublist xs := mem_pairsOf.mp (same ▸ later)
    exact fresh (pair.subset List.mem_cons_self)

theorem linkedOnce (distinct : Distinct xs) : LinkedOnce xs (links xs) where
  touching r s := by
    rw [mem_links, mem_links]
    constructor
    · have apart {a b : Relation} (pair : [a, b].Sublist xs) : a ≠ b := by
        rintro rfl
        exact (List.nodup_cons.mp (distinct.nodup.sublist pair)).1 List.mem_cons_self
      rintro (⟨pair, touches⟩ | ⟨pair, touches⟩)
      · exact ⟨pair.subset (by simp), pair.subset (by simp), apart pair, touches⟩
      · exact ⟨pair.subset (by simp), pair.subset (by simp), (apart pair).symm, touches.symm⟩
    · rintro ⟨hr, hs, apart, touches⟩
      exact (sublist_pair_or hr hs apart).imp (⟨·, touches⟩) (⟨·, touches.symm⟩)
  once := (nodup_pairsOf distinct.nodup).filter _
  oneWay r s forth back :=
    not_sublist_of_sublist distinct.nodup (mem_links.mp forth).1 (mem_links.mp back).1

end JoinOrder.JoinGraph
