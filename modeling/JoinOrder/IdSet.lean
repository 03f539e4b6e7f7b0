import JoinOrder.Atom
/-!
Finite sets of things that are told apart by an identity alone. The members are listed by increasing
identity, so two sets with the same identities list them alike, however they were built.
-/

namespace JoinOrder

class Identified (α : Type) where
  identity : α → Atom

export Identified (identity)

variable {α : Type} [Identified α]

def precedes (x y : α) : Prop := (identity x).order (identity y) = .lt

theorem precedes_trans {x y z : α} : precedes x y → precedes y z → precedes x z :=
  Std.TransCmp.lt_trans

abbrev Increasing (xs : List α) : Prop := xs.Pairwise precedes

namespace Increasing

/-- A member that is already there stays. -/
def insert (x : α) : List α → List α
  | [] => [x]
  | y :: ys =>
    match (identity x).order (identity y) with
    | .lt => x :: y :: ys
    | .eq => y :: ys
    | .gt => y :: insert x ys

theorem mem_insert {x z : α} {ys : List α} : z ∈ insert x ys → z = x ∨ z ∈ ys := by
  induction ys with
  | nil => simp [insert]
  | cons y ys ih =>
    unfold insert
    split <;> simp only [List.mem_cons] <;> grind

theorem increasing_insert (x : α) {ys : List α} (h : Increasing ys) : Increasing (insert x ys) := by
  induction ys with
  | nil => simp [insert]
  | cons y ys ih =>
    have ⟨above, rest⟩ := List.pairwise_cons.mp h
    unfold insert
    split
    case h_1 lt =>
      exact List.pairwise_cons.mpr ⟨fun z mem => by
        rcases List.mem_cons.mp mem with rfl | mem
        · exact lt
        · exact precedes_trans lt (above z mem), h⟩
    case h_2 => exact h
    case h_3 gt =>
      refine List.pairwise_cons.mpr ⟨fun z mem => ?_, ih rest⟩
      rcases mem_insert mem with rfl | mem
      · exact Std.OrientedCmp.gt_iff_lt.mp gt
      · exact above z mem

/-- Merges a list that begins with `x` and goes on with what `rest` merges. -/
def mergeHead (x : α) (rest : List α → List α) : List α → List α
  | [] => x :: rest []
  | y :: ys =>
    match (identity x).order (identity y) with
    | .lt => x :: rest (y :: ys)
    | .eq => x :: rest ys
    | .gt => y :: mergeHead x rest ys

/-- Merges two increasing lists; what both have is taken from the first. -/
def merge : List α → List α → List α
  | [], ys => ys
  | x :: xs, ys => mergeHead x (merge xs) ys

theorem mem_mergeHead {x z : α} {rest : List α → List α} {xs ys : List α}
    (h : ∀ zs, z ∈ rest zs → z ∈ xs ∨ z ∈ zs) :
    z ∈ mergeHead x rest ys → z = x ∨ z ∈ xs ∨ z ∈ ys := by
  induction ys with
  | nil =>
    have := h []
    simp only [mergeHead, List.mem_cons]
    grind
  | cons y ys ih =>
    have := h ys
    have := h (y :: ys)
    unfold mergeHead
    split <;> simp only [List.mem_cons] <;> grind

theorem mem_merge {z : α} {xs ys : List α} : z ∈ merge xs ys → z ∈ xs ∨ z ∈ ys := by
  induction xs generalizing ys with
  | nil => simp [merge]
  | cons x xs ih =>
    intro mem
    have := mem_mergeHead (fun _ => ih) mem
    simp only [List.mem_cons]
    grind

theorem increasing_mergeHead {x : α} {xs ys : List α} (hx : Increasing (x :: xs))
    (ih : ∀ zs, Increasing zs → Increasing (merge xs zs)) (hy : Increasing ys) :
    Increasing (mergeHead x (merge xs) ys) := by
  have ⟨aboveX, _⟩ := List.pairwise_cons.mp hx
  have headed {zs : List α} (hz : Increasing zs) (above : ∀ z ∈ zs, precedes x z) :
      Increasing (x :: merge xs zs) :=
    List.pairwise_cons.mpr ⟨fun z mem => (mem_merge mem).elim (aboveX z) (above z), ih zs hz⟩
  induction ys with
  | nil => exact headed hy (by simp)
  | cons y ys ihy =>
    have ⟨aboveY, restY⟩ := List.pairwise_cons.mp hy
    unfold mergeHead
    split
    case h_1 lt =>
      refine headed hy fun z mem => ?_
      rcases List.mem_cons.mp mem with rfl | mem
      · exact lt
      · exact precedes_trans lt (aboveY z mem)
    case h_2 eq =>
      refine headed restY fun z mem => ?_
      have : precedes y z := aboveY z mem
      rwa [precedes, ← Std.LawfulEqCmp.eq_of_compare eq] at this
    case h_3 gt =>
      refine List.pairwise_cons.mpr ⟨fun z mem => ?_, ihy restY⟩
      have before : precedes y x := Std.OrientedCmp.gt_iff_lt.mp gt
      rcases mem_mergeHead (fun _ => mem_merge) mem with rfl | mem | mem
      · exact before
      · exact precedes_trans before (aboveX z mem)
      · exact aboveY z mem

theorem increasing_merge {xs ys : List α} (hx : Increasing xs) (hy : Increasing ys) :
    Increasing (merge xs ys) := by
  induction xs generalizing ys with
  | nil => exact hy
  | cons x xs ih =>
    exact increasing_mergeHead hx (fun _ => ih (List.pairwise_cons.mp hx).2) hy

end Increasing

structure IdSet (α : Type) [Identified α] where
  toList : List α
  increasing : Increasing toList

namespace IdSet

def empty : IdSet α := ⟨[], .nil⟩

instance : EmptyCollection (IdSet α) := ⟨empty⟩

instance : Inhabited (IdSet α) := ⟨∅⟩

/-- A member that is already there stays. -/
def insert (s : IdSet α) (x : α) : IdSet α :=
  ⟨Increasing.insert x s.toList, Increasing.increasing_insert x s.increasing⟩

/-- Of several members with one identity the first stays. -/
def ofList (xs : List α) : IdSet α := xs.foldl insert ∅

def singleton (x : α) : IdSet α := ⟨[x], List.pairwise_singleton ..⟩

def size (s : IdSet α) : Nat := s.toList.length

def isEmpty (s : IdSet α) : Bool := s.toList.isEmpty

def identities (s : IdSet α) : List Atom := s.toList.map identity

def contains (s : IdSet α) (a : Atom) : Bool := s.toList.any fun x => identity x == a

def same (s t : IdSet α) : Bool := s.identities == t.identities

def subset (s t : IdSet α) : Bool := s.toList.all fun x => t.contains (identity x)

/-- Members that both sets have are taken from the first. -/
def union (s t : IdSet α) : IdSet α :=
  ⟨Increasing.merge s.toList t.toList, Increasing.increasing_merge s.increasing t.increasing⟩

def filter (s : IdSet α) (p : α → Bool) : IdSet α :=
  ⟨s.toList.filter p, s.increasing.sublist List.filter_sublist⟩

/-- Common members are taken from the smaller set, from the second if both have one size. -/
def inter (s t : IdSet α) : IdSet α :=
  if t.size ≤ s.size then t.filter fun x => s.contains (identity x)
  else s.filter fun x => t.contains (identity x)

end IdSet

end JoinOrder
