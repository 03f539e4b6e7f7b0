import JoinOrder.Proofs.Warnings
/-!
Join graphs of relations that are all different. Every relation is a node of its own, the edges are the
pairs that have an attribute in common, and two groups are joined by an edge exactly if an attribute of
one group is an attribute of the other.
-/

namespace JoinOrder

namespace Relation

/-- Two relations have an attribute in common. -/
def Touches (r s : Relation) : Prop := ∃ a ∈ r.attributes.identities, a ∈ s.attributes.identities

instance (r s : Relation) : Decidable (r.Touches s) :=
  inferInstanceAs (Decidable (∃ a ∈ r.attributes.identities, a ∈ s.attributes.identities))

theorem Touches.symm {r s : Relation} : r.Touches s → s.Touches r :=
  fun ⟨a, left, right⟩ => ⟨a, right, left⟩

theorem isEmpty_inter_iff {r s : Relation} :
    (r.attributes.inter s.attributes).isEmpty = false ↔ r.Touches s := by
  have members : (r.attributes.inter s.attributes).isEmpty = false ↔
      ∃ a, a ∈ (r.attributes.inter s.attributes).identities := by
    rw [IdSet.isEmpty, IdSet.identities, List.isEmpty_eq_false_iff_exists_mem]
    constructor
    · rintro ⟨x, member⟩
      exact ⟨_, List.mem_map_of_mem member⟩
    · rintro ⟨_, member⟩
      obtain ⟨x, inside, _⟩ := List.mem_map.mp member
      exact ⟨x, inside⟩
  rw [members]
  exact exists_congr fun a => IdSet.mem_identities_inter

theorem isIn_iff {r : Relation} {xs : List Relation} :
    r.isIn xs = true ↔ identity r ∈ xs.map identity := by
  simp [isIn]

theorem isIn_of_mem {r : Relation} {xs : List Relation} (member : r ∈ xs) : r.isIn xs = true :=
  isIn_iff.mpr (List.mem_map_of_mem member)

/-- In a list without repetitions, a relation of it is known by its identity. -/
theorem isIn_iff_mem {r : Relation} {xs ys : List Relation} (distinct : Distinct xs) (sub : ys ⊆ xs)
    (member : r ∈ xs) : r.isIn ys = true ↔ r ∈ ys := by
  refine ⟨fun known => ?_, isIn_of_mem⟩
  obtain ⟨s, inside, same⟩ := List.mem_map.mp (isIn_iff.mp known)
  rwa [← distinct.eq_of_identity (sub inside) member same]

/-- Putting relations behind others adds those that are not there yet, each of them once. -/
theorem foldl_distinct (kept more : List Relation) (distinct : Distinct kept) :
    ∃ news, more.foldl (fun kept r => if r.isIn kept then kept else kept ++ [r]) kept = kept ++ news ∧
      Distinct (kept ++ news) ∧ news.Sublist more ∧
        ∀ r ∈ more, identity r ∈ (kept ++ news).map identity := by
  induction more generalizing kept with
  | nil => exact ⟨[], by simp, by simpa using distinct, .slnil, by simp⟩
  | cons r more ih =>
    rw [List.foldl_cons]
    by_cases known : r.isIn kept = true
    · rw [if_pos known]
      obtain ⟨news, result, apart, part, all⟩ := ih kept distinct
      refine ⟨news, result, apart, part.cons r, fun s member => ?_⟩
      rcases List.mem_cons.mp member with rfl | member
      · rw [List.map_append]
        exact List.mem_append_left _ (isIn_iff.mp known)
      · exact all s member
    · rw [if_neg known]
      have fresh : identity r ∉ kept.map identity := fun inside => known (isIn_iff.mpr inside)
      have longer : Distinct (kept ++ [r]) := by
        rw [Distinct, List.map_append, List.map_singleton]
        exact List.nodup_append.mpr ⟨distinct, List.nodup_singleton _, fun a inside b only same =>
          fresh ((List.mem_singleton.mp only ▸ same) ▸ inside)⟩
      obtain ⟨news, result, apart, part, all⟩ := ih (kept ++ [r]) longer
      rw [List.append_assoc, List.singleton_append] at result apart all
      refine ⟨r :: news, result, apart, part.cons_cons r, fun s member => ?_⟩
      rcases List.mem_cons.mp member with rfl | member
      · simp
      · exact all s member

theorem distinct_eq_self {xs : List Relation} (h : Distinct xs) : distinct xs = xs := by
  obtain ⟨news, result, _, part, all⟩ := foldl_distinct [] xs List.nodup_nil
  rw [List.nil_append] at result all
  rw [distinct, result]
  refine h.eq_of_sublist part (.refl xs) fun a => ⟨fun member => (part.map _).subset member, ?_⟩
  intro member
  obtain ⟨r, inside, rfl⟩ := List.mem_map.mp member
  exact all r inside

theorem repetitions_eq_nil {xs : List Relation} (h : Distinct xs) : repetitions xs = [] := by
  refine List.filter_eq_nil_iff.mpr fun r member => ?_
  have once : xs.countP (fun s => identity s == identity r) = (xs.map identity).count (identity r) := by
    rw [List.count, List.countP_map]
    rfl
  have := List.nodup_iff_count_le_one.mp h (identity r)
  simp only [decide_eq_true_eq]
  omega

end Relation

/-! ### Pairs -/

section Pairs

variable {α : Type} {xs : List α} {x y : α}

/-- The pairs of a list are the parts of it with two elements. -/
theorem mem_pairsOf : (x, y) ∈ pairsOf xs ↔ [x, y].Sublist xs := by
  induction xs with
  | nil => simp [pairsOf]
  | cons z xs ih =>
    rw [pairsOf, List.mem_append, ih, List.sublist_cons_iff]
    constructor
    · rintro (first | later)
      · obtain ⟨w, member, is⟩ := List.mem_map.mp first
        cases is
        exact .inr ⟨[y], rfl, List.singleton_sublist.mpr member⟩
      · exact .inl later
    · rintro (later | ⟨rest, is, part⟩)
      · exact .inr later
      · obtain ⟨rfl, rfl⟩ := List.cons.inj is
        exact .inl (List.mem_map_of_mem (List.singleton_sublist.mp part))

/-- Two elements of a list are a pair of it, one way round or the other. -/
theorem sublist_pair_or (hx : x ∈ xs) (hy : y ∈ xs) (apart : x ≠ y) :
    [x, y].Sublist xs ∨ [y, x].Sublist xs := by
  induction xs with
  | nil => exact nomatch hx
  | cons z xs ih =>
    rcases List.mem_cons.mp hx with rfl | inX
    · have inY := (List.mem_cons.mp hy).resolve_left (Ne.symm apart)
      exact .inl ((List.singleton_sublist.mpr inY).cons_cons x)
    · rcases List.mem_cons.mp hy with rfl | inY
      · exact .inr ((List.singleton_sublist.mpr inX).cons_cons y)
      · exact (ih inX inY).imp (·.cons z) (·.cons z)

end Pairs

/-! ### Edges -/

namespace JoinGraph

variable {xs : List Relation} {r s : Relation}

/-- The edge between two relations, if they have an attribute in common. -/
def edgeBetween (r s : Relation) : Option Edge :=
  if r.Touches s then some ⟨r, s, r.attributes.inter s.attributes⟩ else none

/-- Every pair that has an attribute in common is an edge, and nothing else is. -/
theorem edgesOf_eq (distinct : Distinct xs) :
    edgesOf xs = (pairsOf xs).filterMap fun pair => edgeBetween pair.1 pair.2 := by
  have step (found : List Edge) (pairs : List (Relation × Relation)) :
      (pairs.foldl (fun found pair =>
        let e : Edge := ⟨pair.1, pair.2, pair.1.attributes.inter pair.2.attributes⟩
        if e.shared.isEmpty then found
        else if pair.1.isIn [] || pair.2.isIn [] then e.record found
        else e :: found) found).reverse =
          found.reverse ++ pairs.filterMap fun pair => edgeBetween pair.1 pair.2 := by
    induction pairs generalizing found with
    | nil => simp
    | cons pair pairs ih =>
      rw [List.foldl_cons, ih]
      by_cases touches : pair.1.Touches pair.2
      · have some := Relation.isEmpty_inter_iff.mpr touches
        simp [edgeBetween, touches, some, Relation.isIn]
      · have none : (pair.1.attributes.inter pair.2.attributes).isEmpty = true := by
          by_contra other
          exact touches (Relation.isEmpty_inter_iff.mp (Bool.eq_false_iff.mpr other))
        simp [edgeBetween, touches, none]
  rw [edgesOf, Relation.repetitions_eq_nil distinct]
  exact step [] (pairsOf xs)

theorem mem_edges_iff (distinct : Distinct xs) {e : Edge} : e ∈ (ofSorted xs).edges ↔
    [e.first, e.second].Sublist xs ∧ e.first.Touches e.second ∧
      e.shared = e.first.attributes.inter e.second.attributes := by
  change e ∈ edgesOf xs ↔ _
  rw [edgesOf_eq distinct, List.mem_filterMap]
  constructor
  · rintro ⟨⟨a, b⟩, pair, between⟩
    rw [edgeBetween] at between
    split at between
    case isTrue touches =>
      cases between
      exact ⟨mem_pairsOf.mp pair, touches, rfl⟩
    case isFalse => contradiction
  · rintro ⟨pair, touches, shared⟩
    refine ⟨(e.first, e.second), mem_pairsOf.mpr pair, ?_⟩
    rw [edgeBetween, if_pos touches, ← shared]

/-- The neighbours of a relation are the others that have an attribute in common with it. -/
theorem mem_neighbours_iff (distinct : Distinct xs) (member : r ∈ xs) :
    s ∈ (ofSorted xs).neighbours r ↔ s ∈ xs ∧ s ≠ r ∧ r.Touches s := by
  have known {a b : Relation} (ha : a ∈ xs) (hb : b ∈ xs) : identity a = identity b ↔ a = b :=
    ⟨distinct.eq_of_identity ha hb, fun same => same ▸ rfl⟩
  have apart {a b : Relation} (pair : [a, b].Sublist xs) : a ≠ b := by
    have two := distinct.sublist pair
    rintro rfl
    simp [Distinct] at two
  rw [neighbours, List.mem_filterMap]
  constructor
  · rintro ⟨e, edge, across⟩
    obtain ⟨pair, touches, _⟩ := (mem_edges_iff distinct).mp edge
    have first : e.first ∈ xs := pair.subset (by simp)
    have second : e.second ∈ xs := pair.subset (by simp)
    unfold Edge.across at across
    split at across
    case isTrue same =>
      cases across
      have is := (known first member).mp (beq_iff_eq.mp same)
      exact ⟨second, fun same => apart pair (is.trans same.symm), is ▸ touches⟩
    case isFalse =>
      split at across
      case isTrue same =>
        cases across
        have is := (known second member).mp (beq_iff_eq.mp same)
        exact ⟨first, fun same => apart pair (same.trans is.symm), is ▸ touches.symm⟩
      case isFalse => contradiction
  · rintro ⟨inside, other, touches⟩
    rcases sublist_pair_or member inside (Ne.symm other) with pair | pair
    · refine ⟨⟨r, s, r.attributes.inter s.attributes⟩,
        (mem_edges_iff distinct).mpr ⟨pair, touches, rfl⟩, ?_⟩
      simp [Edge.across]
    · refine ⟨⟨s, r, s.attributes.inter r.attributes⟩,
        (mem_edges_iff distinct).mpr ⟨pair, touches.symm, rfl⟩, ?_⟩
      simp [Edge.across, known inside member, other]

/-! ### Edges between groups -/

/-- An attribute of one group is an attribute of the other. -/
def Bridged (sources targets : List Relation) : Prop := ∃ r ∈ sources, ∃ s ∈ targets, r.Touches s

instance (sources targets : List Relation) : Decidable (Bridged sources targets) :=
  inferInstanceAs (Decidable (∃ r ∈ sources, ∃ s ∈ targets, r.Touches s))

/-- Of two groups without common members, an edge leads from one to the other if they have an attribute
in common. -/
theorem joinsBetween_eq (distinct : Distinct xs) {sources targets : List Relation}
    (hs : sources ⊆ xs) (ht : targets ⊆ xs) (apart : List.Disjoint sources targets) :
    (ofSorted xs).joinsBetween targets sources = .ok (decide (Bridged sources targets)) := by
  induction sources with
  | nil => rfl
  | cons r rest ih =>
    have member : r ∈ xs := hs List.mem_cons_self
    have node : r.isIn (ofSorted xs).nodes = true := by
      change r.isIn (Relation.distinct xs) = true
      rw [Relation.distinct_eq_self distinct]
      exact Relation.isIn_of_mem member
    have here : ((ofSorted xs).neighbours r).any (·.isIn targets) = true ↔
        ∃ s ∈ targets, r.Touches s := by
      rw [List.any_eq_true]
      constructor
      · rintro ⟨s, neighbour, inside⟩
        obtain ⟨known, _, touches⟩ := (mem_neighbours_iff distinct member).mp neighbour
        exact ⟨s, (Relation.isIn_iff_mem distinct ht known).mp inside, touches⟩
      · rintro ⟨s, target, touches⟩
        have other : s ≠ r := fun same => apart List.mem_cons_self (same ▸ target)
        exact ⟨s, (mem_neighbours_iff distinct member).mpr ⟨ht target, other, touches⟩,
          (Relation.isIn_iff_mem distinct ht (ht target)).mpr target⟩
    have others := ih (fun s inside => hs (List.mem_cons_of_mem r inside))
      fun s inside => apart (List.mem_cons_of_mem r inside)
    rw [joinsBetween, if_neg (by simp [node])]
    by_cases touches : ∃ s ∈ targets, r.Touches s
    · rw [if_pos (here.mpr touches)]
      exact congrArg Except.ok (decide_eq_true ⟨r, List.mem_cons_self, touches⟩).symm
    · rw [if_neg (mt here.mp touches), others]
      refine congrArg Except.ok (decide_eq_decide.mpr ?_)
      simp [Bridged, touches]

end JoinGraph

end JoinOrder
