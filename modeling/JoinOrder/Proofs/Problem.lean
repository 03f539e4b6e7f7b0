import JoinOrder.Proofs.BestPlan
import JoinOrder.Proofs.Ends
/-!
Searches below one list of relations, from a table that may know plans already. Whatever part is
solved when, a table that is reached on the way adds to the first one only plans that the search has
to find, and a part only after all parts of it.

The work on parts that are not known yet is outstanding. Solving a part takes as much work off that
as it puts into the account, so what a finished search has counted does not depend on its order.
-/

namespace JoinOrder

def Memo.knows (m : Memo) (relations : List Relation) : Bool := (m.find? (.ofList relations)).isSome

/-- What is to be found: plans for the parts of a list, where a table is given. -/
structure Problem where
  est : Plan → Plan → Int
  order : Order
  root : List Relation
  table : Memo
  distinct : Distinct root
  integers : ∀ r ∈ root, r.IsCounted
  sound : Search.Sound table.find?

namespace Problem

open Search

variable (P : Problem)

/-- The plan that has to be found for a part. -/
def plan (relations : List Relation) : Plan :=
  planFrom P.est P.order P.table.find? relations

/-- A part of the list that gets an entry of its own. -/
structure IsPart (relations : List Relation) : Prop where
  sublist : relations.Sublist P.root
  two : 2 ≤ relations.length

/-- A table that the search may have made of the given one. -/
structure Reached (m : Memo) : Prop where
  configuration : m.configuration = P.table.configuration
  keeps : P.table.Keeps m
  fresh : ∀ K p, P.table.find? K = none → m.find? K = some p →
    ∃ xs, P.IsPart xs ∧ K.identities = (IdSet.ofList xs).identities ∧ p = P.plan xs
  closed : ∀ xs ys, P.IsPart xs → P.table.knows xs = false → m.knows xs = true →
    ys.Sublist xs → 2 ≤ ys.length → m.knows ys = true

variable {P} {m : Memo} {xs ys source : List Relation}

theorem IsPart.ne_nil (part : P.IsPart xs) : xs ≠ [] := by
  have := part.two
  rintro rfl
  contradiction

theorem reached_table : P.Reached P.table where
  configuration := rfl
  keeps := .refl _
  fresh := fun K p none found => by rw [none] at found; contradiction
  closed := fun xs ys _ none found => by rw [none] at found; contradiction

theorem eq_of_identities (hx : xs.Sublist P.root) (hy : ys.Sublist P.root)
    (same : (IdSet.ofList xs).identities = (IdSet.ofList ys).identities) : xs = ys := by
  refine P.distinct.eq_of_sublist hx hy fun a => ?_
  rw [← IdSet.mem_identities_ofList, same, IdSet.mem_identities_ofList]

theorem covers (sub : xs.Sublist P.root) (some : xs ≠ []) :
    (P.plan xs).relations.identities = (IdSet.ofList xs).identities ∧ (P.plan xs).IsCounted :=
  planFrom_covers P.sound (fun r member => P.integers r (sub.subset member)) some

namespace Reached

/-- A known plan of a part is the one that has to be found. -/
theorem eq_plan (h : P.Reached m) (sub : xs.Sublist P.root) {p : Plan}
    (found : m.find? (.ofList xs) = some p) : p = P.plan xs := by
  cases new : P.table.find? (.ofList xs) with
  | some q =>
    have kept := h.keeps _ _ new
    rw [found] at kept
    cases kept
    exact (planFrom_known new).symm
  | none =>
    obtain ⟨ys, part, same, rfl⟩ := h.fresh _ _ new found
    rw [eq_of_identities sub part.sublist same]

/-- No search adds a plan for one relation alone. -/
theorem knows_one (h : P.Reached m) (sub : xs.Sublist P.root) (one : xs.length = 1)
    (found : m.knows xs = true) : P.table.knows xs = true := by
  by_contra new
  have new : P.table.find? (.ofList xs) = none := by simpa [Memo.knows] using new
  obtain ⟨p, found⟩ := Option.isSome_iff_exists.mp found
  obtain ⟨ys, part, same, _⟩ := h.fresh _ _ new found
  have two := part.two
  rw [← eq_of_identities sub part.sublist same] at two
  omega

end Reached

theorem knows_withPlan {p : Plan} (part : P.IsPart xs) (sub : ys.Sublist P.root)
    (same : (IdSet.ofList source).identities = (IdSet.ofList xs).identities) (some : source ≠ []) :
    (m.withPlan source p).knows ys = true ↔ ys = xs ∨ m.knows ys = true := by
  rw [Memo.knows, Memo.find?_withPlan some, same]
  split
  case isTrue equal => simp [eq_of_identities sub part.sublist equal]
  case isFalse different =>
    have : ys ≠ xs := fun equal => different (by rw [equal])
    simp [this, Memo.knows]

theorem reached_withPlan (h : P.Reached m) (part : P.IsPart xs) (new : m.knows xs = false)
    (below : ∀ ys, ys.Sublist xs → 2 ≤ ys.length → ys ≠ xs → m.knows ys = true)
    (same : (IdSet.ofList source).identities = (IdSet.ofList xs).identities) (some : source ≠ []) :
    P.Reached (m.withPlan source (P.plan xs)) where
  configuration := h.configuration
  keeps := by
    refine h.keeps.trans (Memo.keeps_withPlan some ?_)
    rw [Memo.find?_congr same]
    simpa [Memo.knows] using new
  fresh := by
    intro K p none found
    rw [Memo.find?_withPlan some] at found
    split at found
    case isTrue equal =>
      cases found
      exact ⟨xs, part, equal.trans same, rfl⟩
    case isFalse => exact h.fresh K p none found
  closed := by
    intro zs ys inside none found sub two
    have inRoot := sub.trans inside.sublist
    rw [knows_withPlan part inRoot same some]
    -- The new part has all its parts in the table by assumption, the others had them before.
    rcases (knows_withPlan part inside.sublist same some).mp found with rfl | found
    · by_cases equal : ys = zs
      · exact .inl equal
      · exact .inr (below ys sub two equal)
    · exact .inr (h.closed zs ys inside none found sub two)

/-! ### Outstanding work -/

variable (P)

def parts : List (List Relation) := P.root.sublists.filter (2 ≤ ·.length)

/-- The work on all parts that are not known yet. -/
def outstanding (work : List Relation → Nat) (m : Memo) : Nat :=
  (P.parts.map fun xs => if m.knows xs then 0 else work xs).sum

variable {P}

theorem mem_parts : xs ∈ P.parts ↔ P.IsPart xs := by
  simp only [parts, List.mem_filter, List.mem_sublists, decide_eq_true_eq]
  exact ⟨fun ⟨sub, two⟩ => ⟨sub, two⟩, fun ⟨sub, two⟩ => ⟨sub, two⟩⟩

theorem nodup_parts : P.parts.Nodup :=
  (List.nodup_sublists.mpr P.distinct.nodup).filter _

theorem sum_map_of_forall_ne {α : Type} {l : List α} {x : α} {f g : α → Nat} (nodup : l.Nodup)
    (member : x ∈ l) (same : ∀ y ∈ l, y ≠ x → f y = g y) :
    (l.map f).sum + g x = f x + (l.map g).sum := by
  induction l with
  | nil => simp at member
  | cons y l ih =>
    have ⟨fresh, rest⟩ := List.nodup_cons.mp nodup
    simp only [List.map_cons, List.sum_cons]
    rcases List.mem_cons.mp member with rfl | member
    · have : l.map f = l.map g := List.map_congr_left fun z hz =>
        same z (List.mem_cons_of_mem _ hz) fun equal => fresh (equal ▸ hz)
      rw [this]
      omega
    · have others := ih rest member fun z hz => same z (List.mem_cons_of_mem _ hz)
      have first := same y List.mem_cons_self fun equal => fresh (equal ▸ member)
      omega

/-- Solving a part takes its own work off and nothing else. -/
theorem outstanding_withPlan {p : Plan} (work : List Relation → Nat) (part : P.IsPart xs)
    (new : m.knows xs = false)
    (same : (IdSet.ofList source).identities = (IdSet.ofList xs).identities) (some : source ≠ []) :
    P.outstanding work m = work xs + P.outstanding work (m.withPlan source p) := by
  have known : (m.withPlan source p).knows xs = true :=
    (knows_withPlan part part.sublist same some).mpr (.inl rfl)
  have others : ∀ ys ∈ P.parts, ys ≠ xs →
      (if m.knows ys then 0 else work ys) =
        if (m.withPlan source p).knows ys then 0 else work ys := by
    intro ys member different
    have iff := knows_withPlan (m := m) (p := p) part (mem_parts.mp member).sublist same some
    have : (m.withPlan source p).knows ys = m.knows ys :=
      Bool.eq_iff_iff.mpr (iff.trans (or_iff_right different))
    rw [this]
  have sums := sum_map_of_forall_ne nodup_parts (mem_parts.mpr part) others
  simpa [outstanding, known, new] using sums

theorem outstanding_eq_zero (work : List Relation → Nat)
    (all : ∀ xs, P.IsPart xs → m.knows xs = true) : P.outstanding work m = 0 := by
  refine List.sum_eq_zero_iff_forall_eq_nat.mpr fun n member => ?_
  obtain ⟨xs, inside, rfl⟩ := List.mem_map.mp member
  rw [all xs (mem_parts.mp inside), if_pos rfl]

end Problem

end JoinOrder
