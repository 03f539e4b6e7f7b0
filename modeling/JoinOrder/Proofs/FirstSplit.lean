import JoinOrder.Proofs.Linked
/-!
Which split wins. Of candidates with as many tuples the first one does, so the split that wins is smaller
than all that were tried before it.

What can leave the left side of a split without making the join any larger is left out by a mask that is
tried earlier. So in the canonical order a left side that wins is connected, whatever the graph.
-/

namespace JoinOrder

open CostModel Plan Search JoinGraph

/-! ### The first of the smallest -/

namespace Plan

/-- All plans before the one that wins are larger. -/
theorem exists_first_fewest {plans : List Plan} {p : Plan} (found : fewest plans = some p) :
    ∃ before after, plans = before ++ p :: after ∧ ∀ q ∈ before, p.estimate < q.estimate := by
  induction plans using List.reverseRecOn generalizing p with
  | nil => exact nomatch found
  | append_singleton plans last ih =>
    rw [fewest_concat] at found
    cases known : fewest plans with
    | none =>
      rw [known] at found
      obtain rfl := Option.some.inj found
      have none : plans = [] := List.argmin_eq_none.mp known
      exact ⟨[], [], by rw [none, List.nil_append], nofun⟩
    | some q =>
      rw [known] at found
      dsimp only at found
      by_cases fewer : last.estimate < q.estimate
      · rw [if_pos fewer] at found
        obtain rfl := Option.some.inj found
        exact ⟨plans, [], rfl, fun other member => fewer.trans_le (fewest_le known member)⟩
      · rw [if_neg fewer] at found
        obtain rfl := Option.some.inj found
        obtain ⟨before, after, is, larger⟩ := ih known
        exact ⟨before, after ++ [last], by rw [is, List.append_assoc, List.cons_append], larger⟩

end Plan

namespace Split

variable {α : Type} {p : α → Bool} {mask i : Nat} {x : α} {xs : List α}

/-- The bits of a mask whose elements pass a test. -/
def thin (p : α → Bool) : Nat → List α → Nat
  | _, [] => 0
  | mask, x :: xs => 2 * thin p (mask / 2) xs + if mask % 2 = 1 then (p x).toNat else 0

/-- What fails the test goes to the right, everything else stays where it was. -/
theorem byMask_thin (p : α → Bool) (mask : Nat) (xs : List α) :
    (byMask (thin p mask xs) xs).1 = (byMask mask xs).1.filter p ∧
      (byMask (thin p mask xs) xs).2.Perm
        ((byMask mask xs).1.filter (!p ·) ++ (byMask mask xs).2) := by
  induction xs generalizing mask with
  | nil => exact ⟨rfl, .refl _⟩
  | cons x xs ih =>
    obtain ⟨left, right⟩ := ih (mask / 2)
    rw [thin, byMask_cons, byMask_cons]
    by_cases odd : mask % 2 = 1
    · cases passes : p x with
      | true =>
        have half : (2 * thin p (mask / 2) xs + 1) / 2 = thin p (mask / 2) xs := by omega
        simp [odd, passes, half, left, right]
      | false => simp [odd, passes, left, right]
    · simp [odd, left, right.cons x |>.trans List.perm_middle.symm]

theorem thin_le (p : α → Bool) (mask : Nat) (xs : List α) : thin p mask xs ≤ mask := by
  induction xs generalizing mask with
  | nil => exact Nat.zero_le mask
  | cons x xs ih =>
    have := ih (mask / 2)
    have := Bool.toNat_le (p x)
    rw [thin]
    split <;> omega

theorem thin_lt (fails : ∃ x ∈ (byMask mask xs).1, p x = false) : thin p mask xs < mask := by
  induction xs generalizing mask with
  | nil => simp [byMask] at fails
  | cons x xs ih =>
    have le := thin_le p (mask / 2) xs
    have bit := Bool.toNat_le (p x)
    rw [byMask_cons] at fails
    rw [thin]
    by_cases odd : mask % 2 = 1
    · rw [if_pos odd] at fails ⊢
      cases passes : p x with
      | true =>
        have := ih (by simpa [passes] using fails)
        simp only [Bool.toNat_true]
        omega
      | false =>
        simp only [Bool.toNat_false]
        omega
    · rw [if_neg odd] at fails ⊢
      have := ih fails
      omega

/-- What fails a test that the first element passes is left out on the left side of an earlier split. -/
theorem exists_earlier (first : p x = true)
    (fails : ∃ y ∈ (nth .canonical (x :: xs) i).1, p y = false) :
    ∃ j < i, (nth .canonical (x :: xs) j).1 = (nth .canonical (x :: xs) i).1.filter p ∧
      (nth .canonical (x :: xs) j).2.Perm
        ((nth .canonical (x :: xs) i).1.filter (!p ·) ++ (nth .canonical (x :: xs) i).2) := by
  have thinned : thin p (2 * i + 1) (x :: xs) = 2 * thin p i xs + 1 := by
    have half : (2 * i + 1) / 2 = i := by omega
    simp [thin, half, first]
  have less : thin p (2 * i + 1) (x :: xs) < 2 * i + 1 := thin_lt fails
  have parts := byMask_thin p (2 * i + 1) (x :: xs)
  rw [thinned] at less parts
  exact ⟨thin p i xs, by omega, parts⟩

end Split

namespace Search

variable {est : Plan → Plan → Int} {order : Order} {r : Relation} {xs rest : List Relation} {p : Plan}

/-! ### Left inputs -/

/-- The split that wins is smaller than all that were tried before it. -/
theorem exists_first_split (est : Plan → Plan → Int) (order : Order) (xs : List Relation)
    (many : 3 ≤ xs.length) :
    ∃ i < Split.count order xs.length,
      best est order xs = joined est (best est order (Split.nth order xs i).1)
        (best est order (Split.nth order xs i).2) ∧
      ∀ j < i, (best est order xs).estimate < (joined est (best est order (Split.nth order xs j).1)
        (best est order (Split.nth order xs j).2)).estimate := by
  let join (i : Nat) : Plan := joined est (best est order (Split.nth order xs i).1)
    (best est order (Split.nth order xs i).2)
  have found := @fewest_candidates est order (fun _ => none) xs rfl many
  obtain ⟨before, after, is, larger⟩ := exists_first_fewest found
  have listed : candidates est order (fun _ => none) xs =
      (List.range (Split.count order xs.length)).map join := by
    rw [candidates, Split.all_eq, List.map_map]
    rfl
  rw [listed] at is
  have at_index (i : Nat) : (before ++ best est order xs :: after)[i]? =
      if i < Split.count order xs.length then some (join i) else none := by
    change (before ++ planFrom est order (fun _ => none) xs :: after)[i]? = _
    rw [← is, List.getElem?_map]
    by_cases low : i < Split.count order xs.length <;> simp [low]
  have here := at_index before.length
  rw [List.getElem?_append_right le_rfl, Nat.sub_self, List.getElem?_cons_zero] at here
  by_cases low : before.length < Split.count order xs.length
  · rw [if_pos low] at here
    refine ⟨before.length, low, Option.some.inj here, fun j less => ?_⟩
    have earlier := at_index j
    rw [List.getElem?_append_left less, if_pos (less.trans low)] at earlier
    exact larger _ (List.mem_of_getElem? earlier)
  · rw [if_neg low] at here
    contradiction

theorem mem_left_canonical (r : Relation) (rest : List Relation) (i : Nat) :
    r ∈ (Split.nth .canonical (r :: rest) i).1 := by
  have odd : (2 * i + 1) % 2 = 1 := by omega
  rw [Split.nth, Order.mask, Split.byMask_cons, if_pos odd]
  exact List.mem_cons_self

/-- The left side of the split that wins is linked: what has no attribute in common with the component
of the first relation could have been on the right side of an earlier split. -/
theorem linked_left_of_first {i : Nat} (h : IsInput (r :: rest))
    (low : i < Split.count .canonical (r :: rest).length)
    (chosen : least .canonical (r :: rest) = joint .canonical (Split.nth .canonical (r :: rest) i).1
      (Split.nth .canonical (r :: rest) i).2)
    (first : ∀ j < i, least .canonical (r :: rest) <
      joint .canonical (Split.nth .canonical (r :: rest) j).1
        (Split.nth .canonical (r :: rest) j).2) :
    Linked (Split.nth .canonical (r :: rest) i).1 := by
  have split := Split.isSplit_nth low
  obtain ⟨p, yes, linked, _, le⟩ :=
    exists_linked_side .canonical (h.perm split.perm) (mem_left_canonical r rest i)
  by_cases all : ∀ s ∈ (Split.nth .canonical (r :: rest) i).1, p s = true
  · rwa [List.filter_eq_self.mpr all] at linked
  · obtain ⟨j, less, left, right⟩ := Split.exists_earlier yes (by simpa using all)
    have split' := Split.isSplit_nth (less.trans low)
    have inputs := h.perm split'.perm
    refine absurd (first j less) (not_lt.mpr ?_)
    calc joint .canonical (Split.nth .canonical (r :: rest) j).1
          (Split.nth .canonical (r :: rest) j).2
        = joint .canonical ((Split.nth .canonical (r :: rest) i).1.filter p)
            ((Split.nth .canonical (r :: rest) i).1.filter (!p ·) ++
              (Split.nth .canonical (r :: rest) i).2) :=
          joint_perm (.of_eq left) right (left ▸ inputs.left) (inputs.right.perm right.symm)
      _ ≤ joint .canonical (Split.nth .canonical (r :: rest) i).1
            (Split.nth .canonical (r :: rest) i).2 := le
      _ = least .canonical (r :: rest) := chosen.symm

/-- The best plan joins the plans of two parts, of which the left one is linked and has the first
relation. -/
theorem exists_linked_left (h : IsInput (r :: rest)) (some : rest ≠ []) :
    ∃ p : Relation → Bool, p r = true ∧ (∃ s ∈ rest, p s = false) ∧
      best sharedOf .canonical (r :: rest) =
        joined sharedOf (best sharedOf .canonical ((r :: rest).filter p))
          (best sharedOf .canonical ((r :: rest).filter (!p ·))) ∧
      Linked ((r :: rest).filter p) := by
  match rest, some with
  | [s], _ =>
    have apart : identity s ≠ identity r := by
      have distinct := h.distinct
      rintro same
      simp [Distinct, same] at distinct
    refine ⟨fun t => identity t == identity r, by simp, ⟨s, by simp, by simpa using apart⟩, ?_, ?_⟩
    · simp [apart, best_two, best_one]
    · simpa [apart] using linked_singleton r
  | s :: t :: others, _ =>
    obtain ⟨i, low, chosen, first⟩ :=
      exists_first_split sharedOf .canonical (r :: s :: t :: others) (by simp)
    have split := Split.isSplit_nth low
    have sides {j : Nat} (low : j < Split.count .canonical (r :: s :: t :: others).length) :=
      @estimate_joined_best .canonical _ _ (Split.isSplit_nth low).left_ne_nil
        (Split.isSplit_nth low).right_ne_nil
    have fewest : least .canonical (r :: s :: t :: others) =
        (best sharedOf .canonical (r :: s :: t :: others)).estimate := least_eq (by simp)
    have linked := linked_left_of_first h low
      (fewest.trans ((congrArg Plan.estimate chosen).trans (sides low))) fun j less => by
        rw [fewest, ← sides (less.trans low)]
        exact first j less
    obtain ⟨p, left, right⟩ := split.exists_filter h.distinct
    have yes := mem_left_canonical r (s :: t :: others) i
    obtain ⟨u, member⟩ := List.exists_mem_of_ne_nil _ split.right_ne_nil
    rw [left] at chosen linked yes
    rw [right] at chosen member
    have yes := (List.mem_filter.mp yes).2
    obtain ⟨inside, no⟩ := List.mem_filter.mp member
    refine ⟨p, yes, ⟨u, (List.mem_cons.mp inside).resolve_left ?_, by simpa using no⟩, chosen, linked⟩
    rintro rfl
    simp [yes] at no

/-- Best plans in the canonical order are scans, and joins with linked relations on the left, of which
one is the first of all. -/
theorem best_canonical_induction {motive : List Relation → Plan → Prop}
    (one : ∀ r, motive [r] (.ofRelation r))
    (join : ∀ r rest (p : Relation → Bool), p r = true → (r :: rest).filter p ≠ [] →
      (r :: rest).filter (!p ·) ≠ [] → Linked ((r :: rest).filter p) →
      motive ((r :: rest).filter p) (best sharedOf .canonical ((r :: rest).filter p)) →
      motive ((r :: rest).filter (!p ·)) (best sharedOf .canonical ((r :: rest).filter (!p ·))) →
      motive (r :: rest) (joined sharedOf (best sharedOf .canonical ((r :: rest).filter p))
        (best sharedOf .canonical ((r :: rest).filter (!p ·)))))
    (h : IsInput xs) (some : xs ≠ []) : motive xs (best sharedOf .canonical xs) := by
  induction length : xs.length using Nat.strongRecOn generalizing xs with
  | ind n ih =>
    match xs, some with
    | [r], _ =>
      rw [best_one]
      exact one r
    | r :: s :: rest, _ =>
      obtain ⟨p, yes, ⟨t, inRest, no⟩, chosen, linked⟩ := exists_linked_left h (List.cons_ne_nil s rest)
      have someLeft : (r :: s :: rest).filter p ≠ [] :=
        List.ne_nil_of_mem (List.mem_filter.mpr ⟨List.mem_cons_self, yes⟩)
      have someRight : (r :: s :: rest).filter (!p ·) ≠ [] :=
        List.ne_nil_of_mem (List.mem_filter.mpr ⟨List.mem_cons_of_mem r inRest, by simp [no]⟩)
      have lengths := (List.filter_append_perm p (r :: s :: rest)).length_eq
      rw [List.length_append] at lengths
      have longLeft := List.length_pos_iff.mpr someLeft
      have longRight := List.length_pos_iff.mpr someRight
      rw [chosen]
      exact join r (s :: rest) p yes someLeft someRight linked
        (ih _ (by omega) (h.sublist List.filter_sublist) someLeft rfl)
        (ih _ (by omega) (h.sublist List.filter_sublist) someRight rfl)

/-- In the best plan, the relations of every left input are linked. -/
theorem linked_left_of_mem_joins (h : IsInput xs) (some : xs ≠ []) {left right : Plan} {tuples : Value}
    (member : .join left right tuples ∈ (best sharedOf .canonical xs).joins) : Linked left.leaves := by
  refine best_canonical_induction (motive := fun _ plan => .join left right tuples ∈ plan.joins →
    Linked left.leaves) (fun _ => nofun) ?_ h some member
  intro r rest p _ someLeft _ linked inLeft inRight member
  rw [joined, Plan.joins, List.mem_append, List.mem_append, List.mem_singleton] at member
  rcases member with (member | member) | here
  · exact inLeft member
  · exact inRight member
  · obtain ⟨rfl, -, -⟩ := Plan.join.inj here
    exact linked.perm (leaves_best someLeft).symm

end Search

end JoinOrder
