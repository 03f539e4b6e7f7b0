import JoinOrder.Proofs.Halvings
/-!
Join trees over other relations. Every leaf is replaced, every join is estimated anew, and the shape
stays as it was. A search that gets the other relations does the same to the best plan, provided that no
estimate changes.

Two lists of relations that belong together one by one are given as one list of pairs. Where no relation
comes twice, such a list says for each relation by which one it is replaced.
-/

namespace JoinOrder

/-- Where no first relation comes twice, a function takes each of them to its second. -/
theorem exists_replacement {pairs : List (Relation × Relation)}
    (nodup : (pairs.map Prod.fst).Nodup) :
    ∃ f : Relation → Relation, ∀ pair ∈ pairs, f pair.1 = pair.2 := by
  have one (r : Relation) : ∃ s, ∀ pair ∈ pairs, pair.1 = r → s = pair.2 := by
    by_cases first : ∃ pair ∈ pairs, pair.1 = r
    · obtain ⟨pair, member, rfl⟩ := first
      refine ⟨pair.2, fun other member' same => ?_⟩
      rw [List.inj_on_of_nodup_map nodup member' member same]
    · exact ⟨r, fun pair member is => absurd ⟨pair, member, is⟩ first⟩
  choose f takes using one
  exact ⟨f, fun pair member => takes pair.1 pair member rfl⟩

namespace Plan

variable {est est' : Plan → Plan → Int} {f : Relation → Relation} {p q left right : Plan}

/-- The same tree over other relations, estimated anew. -/
def relabel (est : Plan → Plan → Int) (f : Relation → Relation) : Plan → Plan
  | .scan r _ => .ofRelation (f r)
  | .join left right _ => .joined est (left.relabel est f) (right.relabel est f)

@[simp]
theorem relabel_ofRelation (r : Relation) : (ofRelation r).relabel est f = .ofRelation (f r) := rfl

@[simp]
theorem relabel_joined : (joined est' left right).relabel est f =
    .joined est (left.relabel est f) (right.relabel est f) := rfl

theorem leaves_relabel (p : Plan) : (p.relabel est f).leaves = p.leaves.map f := by
  induction p with
  | scan r tuples => rfl
  | join left right tuples ihl ihr =>
    rw [leaves, List.map_append, ← ihl, ← ihr]
    rfl

theorem isTree_relabel (p : Plan) : IsTree est (p.relabel est f) := by
  induction p with
  | scan r tuples => exact .scan (f r)
  | join left right tuples ihl ihr => exact .join ihl ihr

/-- The first of the smallest plans stays the first of the smallest. -/
theorem fewest_map {g : Plan → Plan} {plans : List Plan}
    (same : ∀ p ∈ plans, (g p).estimate = p.estimate) :
    fewest (plans.map g) = (fewest plans).map g := by
  induction plans using List.reverseRecOn with
  | nil => rfl
  | append_singleton plans p ih =>
    have before := ih fun q member => same q (List.mem_append_left _ member)
    have last := same p (List.mem_append_right _ (List.mem_singleton_self p))
    rw [List.map_append, List.map_singleton, fewest_concat, fewest_concat, before]
    cases found : fewest plans with
    | none => rfl
    | some q =>
      have kept := same q (List.mem_append_left _ (fewest_mem found))
      simp only [Option.map_some, last, kept]
      split <;> rfl

end Plan

namespace Split

variable {α β : Type}

theorem byMask_map (g : α → β) (mask : Nat) (xs : List α) :
    byMask mask (xs.map g) = ((byMask mask xs).1.map g, (byMask mask xs).2.map g) := by
  induction xs generalizing mask with
  | nil => rfl
  | cons x xs ih =>
    rw [List.map_cons, byMask_cons, byMask_cons, ih]
    split <;> rfl

theorem all_map (g : α → β) (order : Order) (xs : List α) :
    all order (xs.map g) = (all order xs).map fun part => (part.1.map g, part.2.map g) := by
  rw [all_eq, all_eq, List.length_map, List.map_map]
  exact List.map_congr_left fun i _ => byMask_map g (order.mask i) xs

end Split

namespace Search

open Plan

variable {est : Plan → Plan → Int} {order : Order} {f : Relation → Relation} {xs : List Relation}

/-- A search for replaced relations finds the best plan with its relations replaced. -/
theorem best_map (nonempty : xs ≠ [])
    (same : ∀ p, IsTree est p → p.leaves ⊆ xs → (p.relabel est f).estimate = p.estimate) :
    best est order (xs.map f) = (best est order xs).relabel est f := by
  induction length : xs.length using Nat.strongRecOn generalizing xs with
  | ind n ih =>
    match xs, nonempty with
    | [r], _ => rw [List.map_singleton, best_one, best_one, relabel_ofRelation]
    | [left, right], _ =>
      rw [List.map_cons, List.map_singleton, best_two, best_two]
      rfl
    | x :: y :: z :: rest, nonempty =>
      let join (part : List Relation × List Relation) : Plan :=
        .joined est (best est order part.1) (best est order part.2)
      have part_of_map {ys : List Relation} (sub : ys.Sublist (x :: y :: z :: rest)) (some : ys ≠ [])
          (less : ys.length < (x :: y :: z :: rest).length) :
          best est order (ys.map f) = (best est order ys).relabel est f :=
        ih _ (length ▸ less) some
          (fun p tree leaves => same p tree (List.Subset.trans leaves sub.subset)) rfl
      have replaced : ∀ part ∈ Split.all order (x :: y :: z :: rest),
          join (part.1.map f, part.2.map f) = (join part).relabel est f := by
        intro part member
        have split := Split.isSplit_of_mem member
        have left := part_of_map split.sublist_left split.left_ne_nil split.length_left_lt
        have right := part_of_map split.sublist_right split.right_ne_nil split.length_right_lt
        simp only [join, left, right, relabel_joined]
      have estimates : ∀ p ∈ (Split.all order (x :: y :: z :: rest)).map join,
          (p.relabel est f).estimate = p.estimate := by
        intro p member
        obtain ⟨part, split, rfl⟩ := List.mem_map.mp member
        have split := Split.isSplit_of_mem split
        refine same _ (.join (isTree_best split.left_ne_nil) (isTree_best split.right_ne_nil)) ?_
        have leaves := (@leaves_best est order _ split.left_ne_nil).append
          (@leaves_best est order _ split.right_ne_nil)
        exact (leaves.trans split.perm).subset
      have candidates : (Split.all order ((x :: y :: z :: rest).map f)).map join =
          ((Split.all order (x :: y :: z :: rest)).map join).map (relabel est f) := by
        rw [Split.all_map, List.map_map, List.map_map]
        exact List.map_congr_left replaced
      have found := @fewest_candidates est order (fun _ => none) (x :: y :: z :: rest) rfl (by simp)
      change fewest ((Split.all order (x :: y :: z :: rest)).map join) =
        some (best est order (x :: y :: z :: rest)) at found
      rw [best_many (by simp)]
      change (fewest ((Split.all order ((x :: y :: z :: rest).map f)).map join)).getD default = _
      rw [candidates, fewest_map estimates, found]
      rfl

end Search

end JoinOrder
