import Mathlib
import JoinOrder.Export
/-!
Lists in the order of texts that stand beside their members. Where all texts are different, the order in
which the members were listed before makes no difference; members with one text stay as they were.
-/

namespace JoinOrder

variable {α β : Type} {texts texts' : List (String × α)} {a b : α}

theorem byText_perm (texts : List (String × α)) : (byText texts).Perm (texts.map (·.2)) :=
  (List.mergeSort_perm texts _).map _

/-- The order does not depend on what stands beside the texts. -/
theorem byText_map (g : α → β) (texts : List (String × α)) :
    byText (texts.map fun p => (p.1, g p.2)) = (byText texts).map g := by
  have sorted := List.map_mergeSort (l := texts) (r := fun a b => decide (a.1 ≤ b.1))
    (s := fun a b => decide (a.1 ≤ b.1)) (f := fun p => (p.1, g p.2)) fun _ _ _ _ => rfl
  unfold byText
  rw [← sorted, List.map_map, List.map_map]
  rfl

theorem atMost_trans (p q r : String × α) (first : decide (p.1 ≤ q.1) = true)
    (second : decide (q.1 ≤ r.1) = true) : decide (p.1 ≤ r.1) = true :=
  decide_eq_true (le_trans (of_decide_eq_true first) (of_decide_eq_true second))

theorem atMost_total (p q : String × α) : (decide (p.1 ≤ q.1) || decide (q.1 ≤ p.1)) = true := by
  rcases le_total p.1 q.1 with below | above
  · rw [decide_eq_true below, Bool.true_or]
  · rw [decide_eq_true above, Bool.or_true]

/-- Texts that are all different leave one order only. -/
theorem byText_congr (different : (texts.map (·.1)).Nodup) (same : texts.Perm texts') :
    byText texts = byText texts' := by
  have sorted (l : List (String × α)) := List.pairwise_mergeSort atMost_trans atMost_total l
  have perm := (List.mergeSort_perm texts fun p q => p.1 ≤ q.1).trans
    (same.trans (List.mergeSort_perm texts' fun p q => p.1 ≤ q.1).symm)
  refine congrArg (List.map (·.2)) (perm.eq_of_pairwise ?_ (sorted texts) (sorted texts'))
  intro p q hp hq pq qp
  have inP := List.mem_mergeSort.mp hp
  have inQ := same.mem_iff.mpr (List.mem_mergeSort.mp hq)
  have equal : p.1 = q.1 := le_antisymm (of_decide_eq_true pq) (of_decide_eq_true qp)
  exact List.inj_on_of_nodup_map different inP inQ equal

/-- In a list without repetitions a member is either before another one or behind it. -/
theorem not_sublist_of_sublist {l : List α} (nodup : l.Nodup) (forth : [a, b].Sublist l) :
    ¬ [b, a].Sublist l := by
  induction l with
  | nil => cases forth
  | cons c l ih =>
    obtain ⟨new, rest⟩ := List.nodup_cons.mp nodup
    intro back
    rcases List.cons_sublist_cons'.mp forth with inside | ⟨rfl, last⟩
    · rcases List.cons_sublist_cons'.mp back with inside' | ⟨rfl, -⟩
      · exact ih rest inside inside'
      · exact new (inside.subset (List.mem_cons_of_mem _ List.mem_cons_self))
    · rcases List.cons_sublist_cons'.mp back with inside' | ⟨rfl, -⟩
      · exact new (inside'.subset (List.mem_cons_of_mem _ List.mem_cons_self))
      · exact new (last.subset List.mem_cons_self)

end JoinOrder
