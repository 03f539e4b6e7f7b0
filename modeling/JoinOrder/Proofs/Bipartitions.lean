import JoinOrder.Proofs.EitherOrder
import JoinOrder.Proofs.InputOrder
import JoinOrder.Proofs.Masks
/-!
What the enumeration of splits lists: every way to divide a set of relations into two parts that are not
empty. One order lists each of them from either side and reads the same from both ends when the sides
are exchanged; the other order lists those that have a distinguished relation on the left.
-/

namespace JoinOrder

namespace IdSet

variable {α : Type} [Identified α] {s t : IdSet α}

/-- The members that another set does not have. -/
def without (s t : IdSet α) : IdSet α := s.filter fun x => !t.contains (identity x)

theorem mem_without {x : α} :
    x ∈ (s.without t).toList ↔ x ∈ s.toList ∧ identity x ∉ t.identities := by
  simp [without, filter, ← contains_iff]

end IdSet

/-- A set in two parts, and neither of them is empty. -/
structure IsBipartition {α : Type} [Identified α] (whole : IdSet α) (part : IdSet α × IdSet α) :
    Prop where
  inside : part.1.toList ⊆ whole.toList
  rest : part.2 = whole.without part.1
  left_ne_nil : part.1.toList ≠ []
  right_ne_nil : part.2.toList ≠ []

namespace IsBipartition

variable {α : Type} [Identified α] {whole : IdSet α} {part : IdSet α × IdSet α}

theorem mem_right (h : IsBipartition whole part) {x : α} :
    x ∈ part.2.toList ↔ x ∈ whole.toList ∧ identity x ∉ part.1.identities := by
  rw [h.rest, IdSet.mem_without]

theorem disjoint (h : IsBipartition whole part) :
    List.Disjoint part.1.identities part.2.identities := by
  intro a left right
  obtain ⟨x, member, rfl⟩ := List.mem_map.mp right
  exact (h.mem_right.mp member).2 left

theorem mem_left (h : IsBipartition whole part) {x : α} (member : x ∈ whole.toList) :
    x ∈ part.1.toList ↔ identity x ∈ part.1.identities := by
  refine ⟨fun inside => List.mem_map_of_mem inside, fun known => ?_⟩
  obtain ⟨y, inside, same⟩ := List.mem_map.mp known
  rwa [← IdSet.eq_of_identity (h.inside inside) member same]

theorem swap (h : IsBipartition whole part) : IsBipartition whole part.swap where
  inside _ member := (h.mem_right.mp member).1
  rest := by
    refine IdSet.eq_of_members fun x => ?_
    rw [IdSet.mem_without]
    constructor
    · intro left
      exact ⟨h.inside left, h.disjoint (List.mem_map_of_mem left)⟩
    · rintro ⟨member, absent⟩
      by_contra outside
      have right := h.mem_right.mpr ⟨member, fun known => outside ((h.mem_left member).mpr known)⟩
      exact absent (List.mem_map_of_mem right)
  left_ne_nil := h.right_ne_nil
  right_ne_nil := h.left_ne_nil

theorem union_eq (h : IsBipartition whole part) : part.1.union part.2 = whole := by
  have sides : ∀ x ∈ (part.1.union part.2).toList, x ∈ whole.toList := by
    intro x member
    rcases Increasing.mem_merge member with left | right
    · exact h.inside left
    · exact (h.mem_right.mp right).1
  apply IdSet.eq_of_identities
  · refine IdSet.identities_eq fun a => ?_
    rw [IdSet.mem_identities_union]
    constructor
    · rintro (left | right)
      · exact List.map_subset _ h.inside left
      · obtain ⟨x, member, rfl⟩ := List.mem_map.mp right
        exact List.mem_map_of_mem (h.mem_right.mp member).1
    · intro member
      obtain ⟨x, inside, rfl⟩ := List.mem_map.mp member
      by_cases left : identity x ∈ part.1.identities
      · exact .inl left
      · exact .inr (List.mem_map_of_mem (h.mem_right.mpr ⟨inside, left⟩))
  · exact fun x hx y hy same => IdSet.eq_of_identity (sides x hx) hy same

end IsBipartition

namespace Split

variable {xs relations : List Relation}

/-- The two sides of a split as sets. -/
def sets (part : List Relation × List Relation) : RelationSet × RelationSet :=
  (.ofList part.1, .ofList part.2)

theorem IsSplit.isBipartition {part : List Relation × List Relation} (split : IsSplit part xs)
    (distinct : Distinct xs) : IsBipartition (.ofList xs) (sets part) := by
  have memLeft {r} := IdSet.mem_ofList_iff (distinct.sublist split.sublist_left) (x := r)
  have memRight {r} := IdSet.mem_ofList_iff (distinct.sublist split.sublist_right) (x := r)
  obtain ⟨p, left, right⟩ := split.exists_filter distinct
  refine ⟨?_, IdSet.eq_of_members fun r => ?_, ?_, ?_⟩
  · intro r member
    exact (IdSet.mem_ofList_iff distinct).mpr (split.sublist_left.subset (memLeft.mp member))
  · rw [IdSet.mem_without, IdSet.mem_ofList_iff distinct, sets, memRight,
      IdSet.mem_identities_ofList, right, left, List.mem_filter, List.mem_map]
    refine and_congr_right fun member => ?_
    constructor
    · rintro fails ⟨s, inside, same⟩
      obtain ⟨known, holds⟩ := List.mem_filter.mp inside
      rw [distinct.eq_of_identity known member same] at holds
      simp [holds] at fails
    · intro absent
      by_contra holds
      exact absent ⟨r, List.mem_filter.mpr ⟨member, by simpa using holds⟩, rfl⟩
  · obtain ⟨r, member⟩ := List.exists_mem_of_ne_nil _ split.left_ne_nil
    exact List.ne_nil_of_mem (memLeft.mpr member)
  · obtain ⟨r, member⟩ := List.exists_mem_of_ne_nil _ split.right_ne_nil
    exact List.ne_nil_of_mem (memRight.mpr member)

theorem isBipartition_of_mem (distinct : Distinct xs) {order : Order}
    {part : RelationSet × RelationSet} (member : part ∈ (all order xs).map sets) :
    IsBipartition (.ofList xs) part := by
  obtain ⟨split, met, rfl⟩ := List.mem_map.mp member
  exact (isSplit_of_mem met).isBipartition distinct

/-- The reference order lists all bipartitions and nothing else. -/
theorem mem_map_sets_reference (distinct : Distinct xs) {part : RelationSet × RelationSet} :
    part ∈ (all .reference xs).map sets ↔ IsBipartition (.ofList xs) part := by
  refine ⟨isBipartition_of_mem distinct, fun bipartition => ?_⟩
  let p : Relation → Bool := fun r => part.1.contains (identity r)
  have passes {r : Relation} : p r = true ↔ identity r ∈ part.1.identities := IdSet.contains_iff
  have memWhole {r} := IdSet.mem_ofList_iff distinct (x := r)
  have memSide (q : Relation → Bool) {r} :=
    IdSet.mem_ofList_iff (distinct.sublist (List.filter_sublist (p := q))) (x := r)
  have left : IdSet.ofList (xs.filter p) = part.1 := by
    refine IdSet.eq_of_members fun r => ?_
    rw [memSide, List.mem_filter, passes]
    constructor
    · rintro ⟨member, inLeft⟩
      obtain ⟨s, inside, same⟩ := List.mem_map.mp inLeft
      have known := memWhole.mp (bipartition.inside inside)
      rwa [← distinct.eq_of_identity known member same]
    · exact fun inside => ⟨memWhole.mp (bipartition.inside inside), List.mem_map_of_mem inside⟩
  have right : IdSet.ofList (xs.filter (!p ·)) = part.2 := by
    refine IdSet.eq_of_members fun r => ?_
    rw [memSide, List.mem_filter, bipartition.mem_right, memWhole, Bool.not_eq_true', ← passes,
      Bool.not_eq_true]
  have met : (xs.filter p, xs.filter (!p ·)) ∈ all .reference xs := by
    apply mem_all_reference
    · obtain ⟨r, inside⟩ := List.exists_mem_of_ne_nil _ bipartition.left_ne_nil
      exact ⟨r, memWhole.mp (bipartition.inside inside), passes.mpr (List.mem_map_of_mem inside)⟩
    · obtain ⟨r, inside⟩ := List.exists_mem_of_ne_nil _ bipartition.right_ne_nil
      obtain ⟨member, outside⟩ := bipartition.mem_right.mp inside
      exact ⟨r, memWhole.mp member, Bool.eq_false_iff.mpr fun holds => outside (passes.mp holds)⟩
  exact List.mem_map.mpr ⟨_, met, Prod.ext left right⟩

/-- No set is the left side of two splits. -/
theorem nodup_lefts_reference (distinct : Distinct xs) :
    ((all .reference xs).map fun part => (sets part).1.identities).Nodup := by
  have lefts : ((all .reference xs).map Prod.fst).Nodup := by
    rcases Nat.lt_or_ge xs.length 2 with few | two
    · have none : count .reference xs.length = 0 := if_pos few
      simp [all_eq, none]
    · have parts : ((full xs).map Prod.fst).Nodup := by
        rw [map_left_full]
        exact List.nodup_sublists.mpr distinct.nodup
      rw [full_eq_reference two, List.map_cons, List.map_append] at parts
      exact (List.nodup_append.mp (List.nodup_cons.mp parts).2).1
  have sets : (all .reference xs).map (fun part => (sets part).1.identities) =
      ((all .reference xs).map Prod.fst).map fun ys => (IdSet.ofList ys).identities := by
    rw [List.map_map]
    rfl
  rw [sets]
  refine List.Nodup.map_on (fun ys hys zs hzs same => ?_) lefts
  have part (ws : List Relation) (member : ws ∈ (all .reference xs).map Prod.fst) :
      ws.Sublist xs := by
    obtain ⟨split, met, rfl⟩ := List.mem_map.mp member
    exact (isSplit_of_mem met).sublist_left
  refine distinct.eq_of_sublist (part ys hys) (part zs hzs) fun a => ?_
  rw [← IdSet.mem_identities_ofList, same, IdSet.mem_identities_ofList]

/-- The canonical order lists, of what the reference order does, that with the first relation on the
left. -/
theorem map_sets_canonical (distinct : Distinct xs) {first : Relation} (head : first ∈ xs.head?) :
    (all .canonical xs).map sets =
      ((all .reference xs).map sets).filter fun part => part.1.contains (identity first) := by
  obtain ⟨rest, rfl⟩ : ∃ rest, xs = first :: rest := List.head?_eq_some_iff.mp head
  have contains (ys : List Relation) :
      (IdSet.ofList ys).contains (identity first) = true ↔ identity first ∈ ys.map identity := by
    rw [IdSet.contains_iff, IdSet.mem_identities_ofList]
  have inside (ys : List Relation) :
      (IdSet.ofList (first :: ys)).contains (identity first) = true := (contains _).mpr (by simp)
  have outside (ys : List Relation) (part : ys.Sublist rest) :
      (IdSet.ofList ys).contains (identity first) = false := by
    refine Bool.eq_false_iff.mpr fun known => ?_
    have fresh := (List.nodup_cons.mp distinct).1
    exact fresh ((part.map identity).subset ((contains ys).mp known))
  rw [← filter_reference inside outside, List.filter_map]
  rfl

theorem mem_map_sets_canonical (distinct : Distinct xs) {first : Relation} (head : first ∈ xs.head?)
    {part : RelationSet × RelationSet} :
    part ∈ (all .canonical xs).map sets ↔
      IsBipartition (.ofList xs) part ∧ identity first ∈ part.1.identities := by
  rw [map_sets_canonical distinct head, List.mem_filter, mem_map_sets_reference distinct,
    IdSet.contains_iff]

theorem nodup_lefts_canonical (distinct : Distinct xs) :
    ((all .canonical xs).map fun part => (sets part).1.identities).Nodup := by
  have both := nodup_lefts_reference distinct
  cases xs with
  | nil => exact both
  | cons first rest =>
    have part := @map_sets_canonical _ distinct first rfl
    have sub := (List.filter_sublist (p := fun part => part.1.contains (identity first))
      (l := (all .reference (first :: rest)).map sets)).map fun part => part.1.identities
    rw [← part, List.map_map, List.map_map] at sub
    exact sub.nodup both

/-- The first relation is on one side of a bipartition and not on the other. -/
theorem xor_mem_canonical (distinct : Distinct xs) {part : RelationSet × RelationSet}
    (h : IsBipartition (.ofList xs) part) :
    Xor (part ∈ (all .canonical xs).map sets) (part.swap ∈ (all .canonical xs).map sets) := by
  obtain ⟨r, inside⟩ := List.exists_mem_of_ne_nil _ h.left_ne_nil
  obtain ⟨first, rest, rfl⟩ :=
    List.exists_cons_of_ne_nil (List.ne_nil_of_mem (IdSet.mem_ofList r (h.inside inside)))
  have member := (IdSet.mem_ofList_iff distinct).mpr (List.mem_cons_self (a := first) (l := rest))
  have onRight : identity first ∈ part.2.identities ↔ identity first ∉ part.1.identities := by
    rw [← Prod.fst_swap, ← h.swap.mem_left member, Prod.fst_swap, h.mem_right]
    exact and_iff_right member
  rw [mem_map_sets_canonical distinct rfl, mem_map_sets_canonical distinct rfl, Prod.fst_swap, onRight]
  by_cases known : identity first ∈ part.1.identities
  · exact .inl ⟨⟨h, known⟩, fun right => right.2 known⟩
  · exact .inr ⟨⟨h.swap, known⟩, fun left => known left.2⟩

end Split

namespace RelationSet

variable {collection : Item} {relations sorted : List Relation}

theorem splits_eq (order : Order) (elements : collection.elements = .ok (relations.map .relation))
    (sort : Relation.sort relations = .ok sorted) :
    splits order none collection = .ok ((Split.all order sorted).map Split.sets) := by
  rw [splits, if_neg (by simp), Relation.sortItems_eq elements, sort]
  rfl

/-- Two listings of the ways to divide a set whose relations have been sorted: one from either side of
each bipartition, the other from the side of the first relation. -/
structure Enumeration (whole : RelationSet) (sorted : List Relation)
    (both once : List (RelationSet × RelationSet)) : Prop where
  mem_both : ∀ part, part ∈ both ↔ IsBipartition whole part
  nodup_both : (both.map fun part => part.1.identities).Nodup
  reverse_both : both.reverse = both.map Prod.swap
  mem_once : ∀ part, IsBipartition whole part → Xor (part ∈ once) (part.swap ∈ once)
  nodup_once : (once.map fun part => part.1.identities).Nodup
  first_left : ∀ first ∈ sorted.head?, ∀ part ∈ once, first ∈ part.1.toList
  once_eq : ∀ first ∈ sorted.head?, once = both.filter fun part => part.1.contains (identity first)
  disjoint : ∀ part ∈ both ++ once, List.Disjoint part.1.identities part.2.identities
  union_eq : ∀ part ∈ both ++ once, part.1.union part.2 = whole
  length_both : both.length = Split.count .reference whole.size
  length_once : once.length = Split.count .canonical whole.size

namespace Enumeration

/-- The two orders of splits are such listings. -/
theorem of_distinct (distinct : Distinct sorted) :
    Enumeration (.ofList sorted) sorted ((Split.all .reference sorted).map Split.sets)
      ((Split.all .canonical sorted).map Split.sets) where
  mem_both _ := Split.mem_map_sets_reference distinct
  nodup_both := by
    rw [List.map_map]
    exact Split.nodup_lefts_reference distinct
  reverse_both := by
    rw [← List.map_reverse, Split.reverse_reference, List.map_map, List.map_map]
    rfl
  mem_once _ := Split.xor_mem_canonical distinct
  nodup_once := by
    rw [List.map_map]
    exact Split.nodup_lefts_canonical distinct
  first_left first head part member := by
    obtain ⟨h, known⟩ := (Split.mem_map_sets_canonical distinct head).mp member
    have inside := (IdSet.mem_ofList_iff distinct).mpr (List.mem_of_mem_head? head)
    exact (h.mem_left inside).mpr known
  once_eq _ head := Split.map_sets_canonical distinct head
  disjoint part member :=
    (List.mem_append.mp member).elim (fun h => (Split.isBipartition_of_mem distinct h).disjoint)
      fun h => (Split.isBipartition_of_mem distinct h).disjoint
  union_eq part member :=
    (List.mem_append.mp member).elim (fun h => (Split.isBipartition_of_mem distinct h).union_eq)
      fun h => (Split.isBipartition_of_mem distinct h).union_eq
  length_both := by rw [List.length_map, Split.length_all, IdSet.size_ofList distinct]
  length_once := by rw [List.length_map, Split.length_all, IdSet.size_ofList distinct]

end Enumeration

/-- Relations with integers for identities and texts for names can be split in both orders, and the
splits are all their bipartitions. -/
theorem splits_enumerate (elements : collection.elements = .ok (relations.map .relation))
    (distinct : Distinct relations) (proper : ∀ r ∈ relations, r.IsNumbered ∧ r.IsNamed) :
    ∃ sorted both once, Relation.sort relations = .ok sorted ∧ sorted.Perm relations ∧
      splits .reference none collection = .ok both ∧ splits .canonical none collection = .ok once ∧
      Enumeration (.ofList relations) sorted both once := by
  obtain ⟨sorted, sort⟩ := Relation.sort_of_comparable (fun r member => (proper r member).2)
    (Relation.pairwise_comparable fun r member => (proper r member).1)
  have perm := Relation.perm_of_sort sort
  have same : IdSet.ofList sorted = IdSet.ofList relations := IdSet.eq_of_members fun r => by
    rw [IdSet.mem_ofList_iff (distinct.perm perm), IdSet.mem_ofList_iff distinct, perm.mem_iff]
  refine ⟨sorted, _, _, sort, perm, splits_eq .reference elements sort,
    splits_eq .canonical elements sort, ?_⟩
  rw [← same]
  exact .of_distinct (distinct.perm perm)

theorem splits_enumerate_three :
    ∃ sorted both once, Relation.sort Optimizer.threeRelations = .ok sorted ∧
      sorted.Perm Optimizer.threeRelations ∧
      splits .reference none (Optimizer.listOf Optimizer.threeRelations) = .ok both ∧
      splits .canonical none (Optimizer.listOf Optimizer.threeRelations) = .ok once ∧
      Enumeration (.ofList Optimizer.threeRelations) sorted both once :=
  splits_enumerate rfl (by decide) Optimizer.proper_three

end RelationSet

end JoinOrder
