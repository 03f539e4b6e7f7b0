import JoinOrder.Proofs.IdSet
/-!
Unions of sets whose members are told apart by an identity alone. Of two members with one identity the
first stays, whichever sets are put together first; so sets that were put together in several steps
have the members that they would have if all had been put in one after the other.
-/

namespace JoinOrder

variable {α : Type} [Identified α]

namespace Increasing

theorem merge_nil (xs : List α) : merge xs [] = xs := by
  induction xs with
  | nil => rfl
  | cons x xs ih => rw [merge, mergeHead, ih]

theorem insert_eq_merge (x : α) (ys : List α) : insert x ys = merge ys [x] := by
  induction ys with
  | nil => rfl
  | cons y ys ih =>
    rw [insert, merge, mergeHead, Atom.order_swap (identity y)]
    cases (identity x).order (identity y) with
    | lt => simp only [Ordering.swap_lt, mergeHead, merge_nil]
    | eq => simp only [Ordering.swap_eq, merge_nil]
    | gt => simp only [Ordering.swap_gt, ih]

theorem subset_mergeHead {x : α} {xs ys : List α} {rest : List α → List α}
    (others : ∀ zs, xs ⊆ rest zs) : x :: xs ⊆ mergeHead x rest ys := by
  induction ys with
  | nil => exact List.cons_subset_cons x (others [])
  | cons y ys ih =>
    unfold mergeHead
    split
    · exact List.cons_subset_cons x (others _)
    · exact List.cons_subset_cons x (others _)
    · exact List.Subset.trans ih (List.subset_cons_self y _)

theorem subset_merge (xs ys : List α) : xs ⊆ merge xs ys := by
  induction xs generalizing ys with
  | nil => exact List.nil_subset _
  | cons x xs ih => exact subset_mergeHead ih

end Increasing

namespace IdSet

variable {s t u : IdSet α} {x : α}

/-- What both sets have is taken from the first. -/
theorem mem_union : x ∈ (s.union t).toList ↔
    x ∈ s.toList ∨ x ∈ t.toList ∧ identity x ∉ s.identities := by
  have inLeft : s.toList ⊆ (s.union t).toList := Increasing.subset_merge s.toList t.toList
  constructor
  · intro member
    by_cases known : identity x ∈ s.identities
    · obtain ⟨y, inside, same⟩ := List.mem_map.mp known
      exact .inl (eq_of_identity (inLeft inside) member same ▸ inside)
    · refine (Increasing.mem_merge member).imp id fun inside => ⟨inside, known⟩
  · rintro (inside | ⟨inside, fresh⟩)
    · exact inLeft inside
    · have known : identity x ∈ (s.union t).identities :=
        mem_identities_union.mpr (.inr (List.mem_map_of_mem inside))
      obtain ⟨y, member, same⟩ := List.mem_map.mp known
      rcases Increasing.mem_merge member with old | new
      · exact absurd (same ▸ List.mem_map_of_mem old) fresh
      · exact eq_of_identity new inside same ▸ member

theorem union_assoc (s t u : IdSet α) : (s.union t).union u = s.union (t.union u) := by
  refine eq_of_members fun x => ?_
  simp only [mem_union, mem_identities_union]
  tauto

theorem union_empty (s : IdSet α) : s.union ∅ = s := by
  refine eq_of_members fun x => ?_
  rw [mem_union]
  exact or_iff_left fun none => List.not_mem_nil none.1

theorem insert_eq_union (s : IdSet α) (x : α) : s.insert x = s.union (singleton x) := by
  refine eq_of_members fun y => ?_
  change y ∈ Increasing.insert x s.toList ↔ y ∈ Increasing.merge s.toList [x]
  rw [Increasing.insert_eq_merge]

/-- All sets together. Of several members with one identity the first stays. -/
def unions (sets : List (IdSet α)) : IdSet α := sets.foldr union ∅

theorem unions_append (ss ts : List (IdSet α)) :
    unions (ss ++ ts) = (unions ss).union (unions ts) := by
  induction ss with
  | nil => rfl
  | cons s ss ih =>
    change s.union (unions (ss ++ ts)) = (s.union (unions ss)).union (unions ts)
    rw [ih, union_assoc]

/-- A list makes the set that its members make one by one. -/
theorem ofList_eq_unions (xs : List α) : ofList xs = unions (xs.map singleton) := by
  have fold (s : IdSet α) : xs.foldl insert s = s.union (unions (xs.map singleton)) := by
    induction xs generalizing s with
    | nil => exact (union_empty s).symm
    | cons x xs ih =>
      rw [List.foldl_cons, ih, insert_eq_union, union_assoc]
      rfl
  exact fold ∅

end IdSet

end JoinOrder
