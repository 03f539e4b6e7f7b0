import JoinOrder.Proofs.Listing
import JoinOrder.Proofs.Messages
/-!
Default names. A relation that comes without a name is called by its identity, and names with numerals in
them are ordered by what the numerals are worth. So relations that have no names of their own are in the
order of their identities, whatever others are among them.
-/

namespace JoinOrder

/-! ### Texts that are plain -/

namespace Text

variable {c : Char} {cs : List Char}

/-- Characters that have no marks in them and are no marks. -/
def IsBare (cs : List Char) : Prop := ∀ c ∈ cs, c.toNat < 0xc0

theorem parts_of_bare (bare : c.toNat < 0xc0) : parts c = [c] := if_pos bare

theorem flatMap_parts (bare : IsBare cs) : cs.flatMap parts = cs := by
  induction cs with
  | nil => rfl
  | cons c cs ih =>
    rw [List.flatMap_cons, parts_of_bare (bare c List.mem_cons_self),
      ih fun d member => bare d (List.mem_cons_of_mem c member)]
    rfl

theorem arrangeMarks_of_bare (bare : IsBare cs) : arrangeMarks cs = cs := by
  induction cs with
  | nil => rfl
  | cons c cs ih =>
    rw [arrangeMarks, ih fun d member => bare d (List.mem_cons_of_mem c member)]
    cases cs with
    | nil => rfl
    | cons d cs =>
      have low : d.toNat < 0xc0 := bare d (List.mem_cons_of_mem c List.mem_cons_self)
      have none : markClass d = 0 := if_pos (by omega)
      rw [placeMark, if_neg (by simp [none])]

theorem decomposed_of_bare (bare : IsBare cs) : decomposed cs = cs := by
  rw [decomposed, flatMap_parts bare, arrangeMarks_of_bare bare]

theorem bounds_of_isDigit (digit : c.isDigit = true) : 48 ≤ c.toNat ∧ c.toNat ≤ 57 := by
  simp only [Char.isDigit, Bool.and_eq_true, decide_eq_true_eq, ge_iff_le,
    UInt32.le_iff_toNat_le] at digit
  exact digit

theorem isDigit_toDigits (n : Nat) : ∀ c ∈ Nat.toDigits 10 n, c.isDigit = true := fun _ member =>
  Nat.isDigit_of_mem_toDigits (by decide) (by decide) member

theorem decimalDigit?_of_isDigit (digit : c.isDigit = true) : decimalDigit? c = some (c.toNat - 48) := by
  have bounds := bounds_of_isDigit digit
  rw [decimalDigit?, zeros, List.find?_cons_of_pos (by simp; omega)]
  rfl

end Text

/-! ### Keys of names with a number -/

namespace Natural

variable {cs : List Char}

/-- Digits go on with the numeral before them. -/
theorem split_digits (digits : ∀ c ∈ cs, c.isDigit = true) (m : Nat) (rest : List Char) :
    split (some m) (cs ++ rest) = split (some (Nat.ofDigitChars 10 cs m)) rest := by
  induction cs generalizing m with
  | nil => rfl
  | cons c cs ih =>
    rw [List.cons_append, split, Text.decimalDigit?_of_isDigit (digits c List.mem_cons_self),
      Nat.ofDigitChars_cons]
    exact ih (fun d member => digits d (List.mem_cons_of_mem c member)) _

theorem split_toDigits (n : Nat) : split none (Nat.toDigits 10 n) = [.numeral n] := by
  have digits := Text.isDigit_toDigits n
  have value : Nat.ofDigitChars 10 (Nat.toDigits 10 n) 0 = n := Nat.ofDigitChars_ten_toDigits
  cases written : Nat.toDigits 10 n with
  | nil => exact absurd written Nat.toDigits_ne_nil
  | cons c cs =>
    rw [written] at digits value
    have rest := split_digits (fun d member => digits d (List.mem_cons_of_mem c member))
      (10 * 0 + (c.toNat - 48)) []
    rw [List.append_nil] at rest
    rw [Nat.ofDigitChars_cons] at value
    rw [split, Text.decimalDigit?_of_isDigit (digits c List.mem_cons_self)]
    exact rest.trans (congrArg (fun n => [Piece.numeral n]) value)

theorem split_letter {c : Char} (decimal : Text.decimalDigit? c = none) (lone : Text.loneDigit? c = none)
    (rest : List Char) : split none (c :: rest) = consLetter c (split none rest) := by
  simp only [split, decimal, lone, closeNumeral]

theorem ofText_default (n : Nat) :
    ofText ("T" ++ toString n) = .tuple [.text "T", .atom (.ofInt n)] := by
  have letters : ("T" ++ toString n).toList = 'T' :: Nat.toDigits 10 n := by
    rw [String.toList_append]
    exact congrArg ('T' :: ·) Nat.toList_repr
  have bare : Text.IsBare ('T' :: Nat.toDigits 10 n) := by
    intro c member
    rcases List.mem_cons.mp member with rfl | digit
    · decide
    · have := Text.bounds_of_isDigit (Text.isDigit_toDigits n c digit)
      omega
  have letter : Text.decimalDigit? 'T' = none ∧ Text.loneDigit? 'T' = none := by decide
  rw [ofText, letters, Text.decomposed_of_bare bare, split_letter letter.1 letter.2, split_toDigits]
  rfl

theorem below_ofText_default (m n : Nat) :
    SortKey.Below (ofText ("T" ++ toString m)) (ofText ("T" ++ toString n)) ↔ m < n := by
  rw [ofText_default, ofText_default]
  simp only [SortKey.Below, SortKey.order, SortKey.orderItems, Atom.order_self, Atom.order_ofInt,
    Ordering.eq_then, Ordering.then_eq, Int.compare_eq_lt, Int.ofNat_lt]

end Natural

namespace Relation

variable {r s : Relation} {m n : Nat} {R : Collected}

/-- A relation is called by its number, as it is if it was made without a name. -/
def DefaultNamed (n : Nat) (r : Relation) : Prop := r.id = .int n ∧ r.name = .text ("T" ++ toString n)

theorem defaultNamed_of_build {counter : IdCounter} {tuples attributes id name : Value}
    (nameless : name.truthy = false) (built : (build counter tuples attributes id name).1 = .ok r)
    (number : r.id = .int n) : r.DefaultNamed n := by
  refine ⟨number, ?_⟩
  unfold build at built
  generalize counter.take id = taken at built
  obtain ⟨scalars, -, built⟩ := ok_of_bind built
  simp only [nameless, Bool.false_eq_true, if_false] at built
  obtain ⟨title, named, built⟩ := ok_of_bind built
  obtain ⟨scalar, identified, same⟩ := ok_of_bind built
  obtain ⟨digits, written, entitled⟩ := ok_of_bind named
  obtain rfl := Except.ok.inj same
  obtain rfl : scalar = .int n := number
  obtain ⟨given, after⟩ := taken
  cases given with
  | scalar s =>
    obtain rfl : s = .int n := Except.ok.inj identified
    rw [Value.eq_shown_of_written written] at entitled
    exact (Except.ok.inj entitled).symm
  | array items => exact nomatch identified
  | object entries => exact nomatch identified

/-- Relations in their order that are called by their numbers have the numbers in order, too. -/
theorem DefaultNamed.lt_of_below (below : SortKey.Below r.sortKey s.sortKey) (hr : r.DefaultNamed m)
    (hs : s.DefaultNamed n) : m < n := by
  rw [below_sortKey_iff, hr.2, hs.2] at below
  rcases below with names | ⟨-, ids⟩
  · exact (Natural.below_ofText_default m n).mp names
  · change (r.id.atom).order s.id.atom = .lt at ids
    rw [hr.1, hs.1] at ids
    exact Int.ofNat_lt.mp (Int.compare_eq_lt.mp ((Atom.order_ofInt m n).symm.trans ids))

/-- Where all are called by their numbers, the order is that of the numbers. -/
theorem exists_numbers {sorted : List Relation} (ordered : Ordered sorted)
    (nameless : ∀ r ∈ sorted, ∃ n, r.DefaultNamed n) : ∃ numbers : List Nat,
      numbers.Pairwise (· < ·) ∧ sorted.map (·.id) = numbers.map fun n : Nat => Scalar.int n := by
  induction sorted with
  | nil => exact ⟨[], .nil, rfl⟩
  | cons r sorted ih =>
    obtain ⟨first, others⟩ := List.pairwise_cons.mp ordered
    obtain ⟨⟨n, named⟩, nameless⟩ := List.forall_mem_cons.mp nameless
    obtain ⟨numbers, increasing, ids⟩ := ih others nameless
    refine ⟨n :: numbers, List.pairwise_cons.mpr ⟨fun m member => ?_, increasing⟩, ?_⟩
    · obtain ⟨s, inside, is⟩ := List.mem_map.mp (ids ▸ List.mem_map_of_mem member)
      obtain ⟨k, other⟩ := nameless s inside
      obtain rfl : k = m := Int.ofNat_inj.mp (Scalar.int.inj (other.1.symm.trans is))
      exact DefaultNamed.lt_of_below (first s inside) named other
    · rw [List.map_cons, List.map_cons, ids, named.1]

/-- Relations that are called by their numbers are sorted by them, alone and among others. -/
theorem sortItems_defaultNamed (distinct : Distinct R.relations)
    (proper : RelationSet.Proper R.relations) :
    ∃ sorted, sortItems R.item = .ok sorted ∧ sorted.Perm R.relations ∧
      sorted.Pairwise (fun r s => ∀ m n, r.DefaultNamed m → s.DefaultNamed n → m < n) ∧
      ((∀ r ∈ R.relations, ∃ n, r.DefaultNamed n) → ∃ numbers : List Nat,
        numbers.Pairwise (· < ·) ∧ sorted.map (·.id) = numbers.map fun n : Nat => Scalar.int n) ∧
      ∀ counter tuples attributes id name r n, name.truthy = false →
        (build counter tuples attributes id name).1 = .ok r → r.id = .int (n : Nat) →
        r.DefaultNamed n := by
  obtain ⟨sorted, sorts⟩ := proper.orderly.sort_isOk
  have perm := perm_of_sort sorts
  have ordered := ordered_of_sort distinct sorts
  refine ⟨sorted, (sortItems_eq R.elements_eq).trans sorts, perm,
    ordered.imp fun below m n => DefaultNamed.lt_of_below below, fun nameless => ?_, ?_⟩
  · exact exists_numbers ordered fun r member => nameless r (perm.subset member)
  · exact fun _ _ _ _ _ _ _ nameless built number => defaultNamed_of_build nameless built number

section Examples

open Problem (plainRelation)
open Touch (gathered)

def tenAndNine : Collected := gathered .list [plainRelation 10 "T10", plainRelation 9 "T9"]

theorem sortItems_tenAndNine : Distinct tenAndNine.relations ∧ RelationSet.Proper tenAndNine.relations ∧
    ∃ sorted, sortItems tenAndNine.item = .ok sorted ∧ sorted.map (·.id) = [.int 9, .int 10] := by
  have distinct : Distinct tenAndNine.relations := by decide
  have proper : RelationSet.Proper tenAndNine.relations := by
    intro r member
    rcases List.mem_pair.mp member with rfl | rfl <;> exact ⟨⟨_, rfl⟩, _, rfl⟩
  obtain ⟨sorted, sorts, perm, -, all, -⟩ := sortItems_defaultNamed distinct proper
  have nameless : ∀ r ∈ tenAndNine.relations, ∃ n, r.DefaultNamed n := by
    intro r member
    rcases List.mem_pair.mp member with rfl | rfl
    · exact ⟨10, rfl, congrArg Value.text (show "T10" = "T" ++ toString 10 by decide)⟩
    · exact ⟨9, rfl, congrArg Value.text (show "T9" = "T" ++ toString 9 by decide)⟩
  obtain ⟨numbers, increasing, ids⟩ := all nameless
  refine ⟨distinct, proper, sorted, sorts, ?_⟩
  have same : (numbers.map fun n : Nat => Scalar.int n).Perm ([10, 9].map fun n : Nat => Scalar.int n) :=
    ids ▸ perm.map (·.id)
  have members : numbers.Perm [10, 9] :=
    (List.map_perm_map_iff fun m n equal => Int.ofNat_inj.mp (Scalar.int.inj equal)).mp same
  obtain rfl : numbers = [9, 10] := by
    refine List.Pairwise.eq_of_mem_iff increasing (by decide) fun n => ?_
    rw [members.mem_iff]
    simp [or_comm]
  rw [ids]
  rfl

end Examples

end Relation

end JoinOrder
