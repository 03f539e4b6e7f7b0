import JoinOrder.Proofs.IdSet
import JoinOrder.Proofs.SortKey
import JoinOrder.Relation
/-!
The order of relations. Names that are texts can always be compared, because words and numerals take
turns in their keys; identities only matter between names that rank alike.

So relations with text names can be sorted exactly if the identities behind one rank can be compared.
Relations with distinct identities have one sorted list, and every part of it is sorted as well.
-/

namespace JoinOrder

namespace Natural

/-! ### Keys of names -/

def Piece.isWord : Piece → Bool
  | .word _ => true
  | .numeral _ => false

/-- No two words stand next to each other. -/
def Separated (pieces : List Piece) : Prop :=
  pieces.IsChain fun p q => (p.isWord && q.isWord) = false

theorem separated_numeral {n : Nat} {pieces : List Piece} (h : Separated pieces) :
    Separated (.numeral n :: pieces) := by
  cases pieces with
  | nil => exact .singleton _
  | cons p rest => exact .cons_cons rfl h

theorem separated_consLetter (c : Char) {pieces : List Piece} (h : Separated pieces) :
    Separated (consLetter c pieces) := by
  cases pieces with
  | nil => exact .singleton _
  | cons p rest =>
    cases p with
    | numeral n => exact .cons_cons rfl h
    | word letters =>
      cases rest with
      | nil => exact .singleton _
      | cons q rest =>
        have ⟨apart, tail⟩ := List.isChain_cons_cons.mp h
        exact .cons_cons apart tail

theorem separated_closeNumeral (pending : Option Nat) {pieces : List Piece} (h : Separated pieces) :
    Separated (closeNumeral pending pieces) := by
  cases pending with
  | none => exact h
  | some n => exact separated_numeral h

theorem separated_split (letters : List Char) (pending : Option Nat) :
    Separated (split pending letters) := by
  induction letters generalizing pending with
  | nil => exact separated_closeNumeral pending .nil
  | cons c rest ih =>
    unfold split
    split
    · exact ih _
    · apply separated_closeNumeral
      split
      · exact separated_numeral (ih none)
      · exact separated_consLetter c (ih none)

/-- What may come next: a number behind a text, and a text otherwise. -/
def Fits : Bool → SortKey → Prop
  | true, x => ∃ n k, x = .atom (.number n k)
  | false, x => ∃ s, x = .text s

/-- Texts and numbers take turns; the flag says that a text came last. -/
def Alternating : Bool → List SortKey → Prop
  | _, [] => True
  | afterWord, x :: rest => Fits afterWord x ∧ Alternating (!afterWord) rest

theorem alternating_keys {pieces : List Piece} {afterWord : Bool} (h : Separated pieces)
    (start : ∀ p ∈ pieces.head?, (afterWord && p.isWord) = false) :
    Alternating afterWord (keys afterWord pieces) := by
  induction pieces generalizing afterWord with
  | nil => cases afterWord <;> trivial
  | cons p rest ih =>
    have tail : Separated rest := List.IsChain.tail h
    cases p with
    | numeral n =>
      have others := @ih false tail (by simp)
      cases afterWord with
      | true => exact ⟨⟨n, 0, rfl⟩, others⟩
      -- An empty text comes in front of the numeral.
      | false => exact ⟨⟨"", rfl⟩, ⟨n, 0, rfl⟩, others⟩
    | word letters =>
      cases afterWord with
      | true => simp [Piece.isWord] at start
      | false =>
        refine ⟨⟨_, rfl⟩, @ih true tail fun q head => ?_⟩
        simpa [Piece.isWord] using List.IsChain.rel_head? h head

theorem comparable_of_fits {x y : SortKey} {afterWord : Bool} (hx : Fits afterWord x)
    (hy : Fits afterWord y) : SortKey.comparable x y = true := by
  cases afterWord with
  | true =>
    obtain ⟨n, k, rfl⟩ := hx
    obtain ⟨m, l, rfl⟩ := hy
    simp [SortKey.comparable, Atom.comparable]
  | false =>
    obtain ⟨s, rfl⟩ := hx
    obtain ⟨t, rfl⟩ := hy
    simp [SortKey.comparable, Atom.comparable]

theorem comparable_of_alternating {xs ys : List SortKey} {afterWord : Bool}
    (hx : Alternating afterWord xs) (hy : Alternating afterWord ys) :
    SortKey.comparableItems xs ys = true := by
  induction xs generalizing ys afterWord with
  | nil => cases ys <;> rfl
  | cons x xs ih =>
    cases ys with
    | nil => rfl
    | cons y ys =>
      unfold SortKey.comparableItems
      split
      · exact ih hx.2 hy.2
      · exact comparable_of_fits hx.1 hy.1

theorem comparable_ofText (s t : String) : SortKey.comparable (ofText s) (ofText t) = true :=
  comparable_of_alternating (alternating_keys (separated_split ..) (by simp))
    (alternating_keys (separated_split ..) (by simp))

end Natural

theorem Atom.comparable_symm {a b : Atom} (h : a.comparable b = true) : b.comparable a = true := by
  cases a <;> cases b <;> first | rfl | contradiction

theorem Atom.comparable_trans {a b c : Atom} (ab : a.comparable b = true)
    (bc : b.comparable c = true) : a.comparable c = true := by
  cases a <;> cases b <;> cases c <;> first | rfl | contradiction

namespace Relation

/-! ### Comparing relations -/

def IsNamed (r : Relation) : Prop := ∃ s, r.name = .text s

def IsNumbered (r : Relation) : Prop := ∃ n, r.id = .int n

/-- Where names rank alike, identities decide, and so have to be of one kind. -/
def Comparable (r s : Relation) : Prop :=
  Natural.ofValue r.name = Natural.ofValue s.name → r.id.atom.comparable s.id.atom = true

theorem comparable_symm {r s : Relation} (h : Comparable r s) : Comparable s r :=
  fun same => Atom.comparable_symm (h same.symm)

theorem comparable_of_numbered {r s : Relation} (hr : r.IsNumbered) (hs : s.IsNumbered) :
    Comparable r s := by
  obtain ⟨n, hr⟩ := hr
  obtain ⟨m, hs⟩ := hs
  intro _
  rw [hr, hs]
  rfl

theorem pairwise_comparable {xs : List Relation} (numbered : ∀ r ∈ xs, r.IsNumbered) :
    xs.Pairwise Comparable :=
  List.pairwise_of_forall_mem_list fun r hr s hs =>
    comparable_of_numbered (numbered r hr) (numbered s hs)

theorem comparable_names {r s : Relation} (hr : r.IsNamed) (hs : s.IsNamed) :
    (Natural.ofValue r.name).comparable (Natural.ofValue s.name) = true := by
  obtain ⟨n, hr⟩ := hr
  obtain ⟨m, hs⟩ := hs
  rw [hr, hs]
  exact Natural.comparable_ofText n m

theorem comparable_sortKey_iff {r s : Relation} (hr : r.IsNamed) (hs : s.IsNamed) :
    r.sortKey.comparable s.sortKey = true ↔ identity r = identity s ∨ Comparable r s := by
  have names := comparable_names hr hs
  simp only [sortKey, SortKey.comparable, SortKey.comparableItems, beq_iff_eq,
    SortKey.order_eq_iff, Comparable, identity, SortKey.order]
  by_cases same : Natural.ofValue r.name = Natural.ofValue s.name
  · by_cases equal : r.id.atom = s.id.atom
    · simp [same, equal]
    · simp [same, equal]
  · simp [same, names]

theorem below_sortKey_iff {r s : Relation} :
    SortKey.Below r.sortKey s.sortKey ↔
      SortKey.Below (Natural.ofValue r.name) (Natural.ofValue s.name) ∨
        Natural.ofValue r.name = Natural.ofValue s.name ∧ (identity r).order (identity s) = .lt := by
  simp only [SortKey.Below, sortKey, SortKey.order, SortKey.orderItems, Ordering.then_eq_lt,
    SortKey.order_eq_iff, identity]
  simp

theorem below_sortKey_of_atMost {r s : Relation} (atMost : SortKey.atMost r.sortKey s.sortKey = true)
    (different : identity r ≠ identity s) : SortKey.Below r.sortKey s.sortKey := by
  refine SortKey.below_of_atMost atMost fun same => different ?_
  simp only [sortKey, SortKey.tuple.injEq, List.cons.injEq, SortKey.atom.injEq] at same
  exact same.2.1

/-- Between two names that rank alike there are only such names. -/
theorem comparable_trans {r s t : Relation} (rs : SortKey.Below r.sortKey s.sortKey)
    (st : SortKey.Below s.sortKey t.sortKey) (hrs : Comparable r s) (hst : Comparable s t) :
    Comparable r t := by
  intro same
  rw [below_sortKey_iff] at rs st
  rcases rs with below | ⟨first, _⟩
  · rcases st with above | ⟨second, _⟩
    · have around := SortKey.below_trans below above
      rw [same] at around
      exact absurd around (SortKey.not_below_self _)
    · rw [same, second] at below
      exact absurd below (SortKey.not_below_self _)
  · exact Atom.comparable_trans (hrs first) (hst (first.symm.trans same))

/-! ### Sorted lists -/

/-- The relations of a list are in their order, and no two of them have one place in it. -/
def Ordered (relations : List Relation) : Prop :=
  relations.Pairwise fun r s => SortKey.Below r.sortKey s.sortKey

theorem Ordered.sublist {xs ys : List Relation} (h : Ordered ys) (sub : xs.Sublist ys) : Ordered xs :=
  List.Pairwise.sublist sub h

theorem Ordered.eq_of_perm {xs ys : List Relation} (hx : Ordered xs) (hy : Ordered ys)
    (same : xs.Perm ys) : xs = ys := by
  refine List.Perm.eq_of_pairwise (fun r s _ _ rs sr => ?_) hx hy same
  exact absurd (SortKey.below_trans rs sr) (SortKey.not_below_self _)

theorem sort_eq_ok {xs sorted : List Relation} :
    sort xs = .ok sorted ↔ SortKey.sortBy? sortKey xs = some sorted := by
  unfold sort sort? fitting
  cases SortKey.sortBy? sortKey xs <;> simp

theorem perm_of_sort {xs sorted : List Relation} (h : sort xs = .ok sorted) : sorted.Perm xs := by
  rw [(SortKey.eq_arranged_of_sortBy? (sort_eq_ok.mp h)).1]
  exact SortKey.arranged_perm sortKey xs

theorem ordered_arranged {xs : List Relation} (distinct : Distinct xs) :
    Ordered (SortKey.arranged sortKey xs) := by
  have apart := distinct.perm (SortKey.arranged_perm sortKey xs)
  refine ((SortKey.arranged_pairwise sortKey xs).and (List.pairwise_map.mp apart)).imp ?_
  exact fun ⟨atMost, different⟩ => below_sortKey_of_atMost atMost different

theorem ordered_of_sort {xs sorted : List Relation} (distinct : Distinct xs)
    (h : sort xs = .ok sorted) : Ordered sorted := by
  rw [(SortKey.eq_arranged_of_sortBy? (sort_eq_ok.mp h)).1]
  exact ordered_arranged distinct

theorem comparable_keys {xs : List Relation} (named : ∀ r ∈ xs, r.IsNamed)
    (comparable : xs.Pairwise Comparable) :
    ∀ r ∈ xs, ∀ s ∈ xs, r.sortKey.comparable s.sortKey = true := by
  have keys : xs.Pairwise fun r s => r.sortKey.comparable s.sortKey = true :=
    comparable.imp_of_mem fun {r s} hr hs h =>
      (comparable_sortKey_iff (named r hr) (named s hs)).mpr (.inr h)
  -- The pairs are listed one way round, but a sort may ask for either.
  have back : xs.Pairwise fun r s => s.sortKey.comparable r.sortKey = true :=
    comparable.imp_of_mem fun {r s} hr hs h =>
      (comparable_sortKey_iff (named s hs) (named r hr)).mpr (.inr (comparable_symm h))
  intro r hr s hs
  exact keys.forall_of_forall_of_flip (fun r _ => SortKey.comparable_self r.sortKey) back hr hs

theorem sort_of_comparable {xs : List Relation} (named : ∀ r ∈ xs, r.IsNamed)
    (comparable : xs.Pairwise Comparable) : ∃ sorted, sort xs = .ok sorted :=
  ⟨_, sort_eq_ok.mpr (SortKey.sortBy?_of_comparable (comparable_keys named comparable))⟩

/-- Neighbours in order that can be compared link all relations around them. -/
theorem comparable_of_linked {xs : List Relation} (named : ∀ r ∈ xs, r.IsNamed)
    (distinct : Distinct xs) (ordered : Ordered xs)
    (linked : SortKey.linked (fun r s => r.sortKey.comparable s.sortKey) xs = true) :
    xs.Pairwise Comparable := by
  induction xs with
  | nil => exact .nil
  | cons r xs ih =>
    cases xs with
    | nil => exact List.pairwise_singleton ..
    | cons s rest =>
      rw [SortKey.linked, Bool.and_eq_true] at linked
      obtain ⟨belowR, orderedS⟩ := List.pairwise_cons.mp ordered
      obtain ⟨belowS, _⟩ := List.pairwise_cons.mp orderedS
      obtain ⟨fresh, distinctS⟩ := List.nodup_cons.mp distinct
      have others := ih (fun t ht => named t (List.mem_cons_of_mem r ht)) distinctS orderedS linked.2
      have next : Comparable r s := by
        have keys := (comparable_sortKey_iff (named r (by simp)) (named s (by simp))).mp linked.1
        exact keys.resolve_left fun same => fresh (by simp [same])
      refine List.pairwise_cons.mpr ⟨fun t ht => ?_, others⟩
      rcases List.mem_cons.mp ht with rfl | ht
      · exact next
      -- Relations further behind are reached by way of the next one.
      · exact comparable_trans (belowR s (by simp)) (belowS t ht) next
          ((List.pairwise_cons.mp others).1 t ht)

/-- Relations with text names can be sorted exactly if their identities allow it. -/
theorem sort_isOk_iff {xs : List Relation} (named : ∀ r ∈ xs, r.IsNamed) (distinct : Distinct xs) :
    (∃ sorted, sort xs = .ok sorted) ↔ xs.Pairwise Comparable := by
  refine ⟨fun ⟨sorted, h⟩ => ?_, sort_of_comparable named⟩
  have perm := perm_of_sort h
  have linked := (SortKey.eq_arranged_of_sortBy? (sort_eq_ok.mp h)).2
  have comparable := comparable_of_linked (fun r hr => named r (perm.subset hr))
    (distinct.perm perm) (ordered_of_sort distinct h) linked
  exact (perm.pairwise_iff comparable_symm).mp comparable

/-- Relations in their order stay as they are. -/
theorem sort_of_ordered {xs : List Relation} (named : ∀ r ∈ xs, r.IsNamed)
    (comparable : xs.Pairwise Comparable) (distinct : Distinct xs) (ordered : Ordered xs) :
    sort xs = .ok xs := by
  obtain ⟨sorted, h⟩ := sort_of_comparable named comparable
  rw [h, (ordered_of_sort distinct h).eq_of_perm ordered (perm_of_sort h)]

theorem sort_of_proper {xs : List Relation} (proper : ∀ r ∈ xs, r.IsNumbered ∧ r.IsNamed)
    (distinct : Distinct xs) (ordered : Ordered xs) : sort xs = .ok xs :=
  sort_of_ordered (fun r hr => (proper r hr).2) (pairwise_comparable fun r hr => (proper r hr).1)
    distinct ordered

end Relation

end JoinOrder
