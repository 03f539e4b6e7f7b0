import JoinOrder.Proofs.Halvings
import JoinOrder.Proofs.Listing
import JoinOrder.Proofs.Warnings
/-!
Subsets of one size. They are listed by the positions of their members in the order of relations, as
words in a dictionary, each of them once; and all sizes one after the other make up the list of all parts.
A caller may take as many as it likes, but the positions of one part have to fit into memory.
-/

namespace JoinOrder

namespace Subset

variable {α β : Type} {k : Nat} {xs : List α}

theorem length_ofSize (k : Nat) (xs : List α) : (ofSize k xs).length = xs.length.choose k := by
  rw [(ofSize_perm k xs).length_eq, List.length_sublistsLen]

theorem ofSize_eq_nil (small : xs.length < k) : ofSize k xs = [] := by
  rw [← List.length_eq_zero_iff, length_ofSize, Nat.choose_eq_zero_of_lt small]

theorem ofSize_map (f : α → β) (k : Nat) (xs : List α) :
    ofSize k (xs.map f) = (ofSize k xs).map (List.map f) := by
  induction xs generalizing k with
  | nil => cases k <;> rfl
  | cons x xs ih =>
    cases k with
    | zero => rfl
    | succ k =>
      rw [List.map_cons, ofSize, ofSize, ih, ih, List.map_append, List.map_map, List.map_map]
      rfl

theorem all_map (f : α → β) (xs : List α) : all (xs.map f) = (all xs).map (List.map f) := by
  simp only [all, List.length_map, ofSize_map, List.map_flatMap]

/-- Whoever takes only some of the parts gets the first ones. -/
theorem firstOfSize_eq_take (limit k : Nat) (xs : List α) :
    firstOfSize limit k xs = (ofSize k xs).take limit := by
  have empty (limit : Nat) (xs : List α) : firstOfSize limit 0 xs = (ofSize 0 xs).take limit := by
    cases limit with
    | zero => rw [firstOfSize, List.take_zero]
    | succ limit => rw [firstOfSize, ofSize, List.take_succ_cons, List.take_nil]
  induction xs generalizing limit k with
  | nil =>
    cases k with
    | zero => exact empty limit []
    | succ k => cases limit <;> rfl
  | cons x xs ih =>
    cases k with
    | zero => exact empty limit (x :: xs)
    | succ k =>
      cases limit with
      | zero => rfl
      | succ limit =>
        rw [firstOfSize]
        split
        case isTrue few =>
          rw [ofSize_eq_nil (by rw [List.length_cons]; omega), List.take_nil]
        case isFalse =>
          rw [ih, ofSize, List.take_append, List.map_take]
          -- Behind the parts with the first element there is as much left to take, whether or not
          -- all of them were taken.
          change _ ++ firstOfSize (limit + 1 - _) (k + 1) xs = _
          rw [ih, List.length_take]
          congr 2
          omega

theorem sizeOfValue_of_large {machine : Machine} (large : machine.memory ≤ k * Word.bytes) :
    sizeOfValue machine (.int k) =
      .error (if Word.isSigned k then .outOfMemory else .tooLarge) := by
  have given : fitting (Value.int k).int? = .ok (k : Int) := rfl
  have low : ¬ (k : Int) < 0 := by omega
  rw [sizeOfValue, given, ok_bind]
  cases signed : Word.isSigned k with
  | false => rfl
  | true =>
    rw [if_neg (by decide), if_neg low, Int.toNat_natCast, if_pos large]
    rfl

end Subset

namespace RelationSet

variable {sorted : List Relation} {k : Nat} {K L : RelationSet} {R : Collected} {machine : Machine}

/-- The places in a list at which the members of a set stand. -/
def positions (sorted : List Relation) (K : RelationSet) : List (Fin sorted.length) :=
  (List.finRange sorted.length).filter fun i => K.contains (identity sorted[i])

/-- The subsets of one size of a list of relations, by their positions. -/
structure ListsSize (sorted : List Relation) (k : Nat) (parts : List RelationSet) : Prop where
  mem_iff : ∀ K, K ∈ parts ↔ K.toList ⊆ sorted ∧ K.size = k
  nodup : (parts.map IdSet.identities).Nodup
  length : parts.length = sorted.length.choose k
  ordered : parts.Pairwise fun K L => List.Lex (· < ·) (positions sorted K) (positions sorted L)

theorem positions_congr (same : K.identities = L.identities) :
    positions sorted K = positions sorted L := by
  refine List.filter_congr fun i _ => ?_
  rw [Bool.eq_iff_iff, IdSet.contains_iff, IdSet.contains_iff, same]

/-- Of a part that is given by its positions, these are the positions. -/
theorem positions_ofList (distinct : Distinct sorted) {ps : List (Fin sorted.length)}
    (sub : ps.Sublist (List.finRange sorted.length)) :
    positions sorted (.ofList (ps.map sorted.get)) = ps := by
  have increasing := (List.sortedLT_finRange sorted.length).pairwise
  refine List.Pairwise.eq_of_mem_iff (increasing.sublist List.filter_sublist) (increasing.sublist sub)
    fun i => ?_
  rw [positions, List.mem_filter, IdSet.contains_iff, IdSet.mem_identities_ofList, List.map_map,
    List.mem_map, and_iff_right (List.mem_finRange i)]
  constructor
  · rintro ⟨j, member, same⟩
    have place : sorted.get j = sorted.get i :=
      distinct.eq_of_identity (List.get_mem ..) (List.get_mem ..) same
    rwa [← List.nodup_iff_injective_get.mp distinct.nodup place]
  · exact fun member => ⟨i, member, rfl⟩

theorem pairwise_positions (distinct : Distinct sorted) (k : Nat) :
    ((Subset.ofSize k sorted).map IdSet.ofList).Pairwise fun K L =>
      List.Lex (· < ·) (positions sorted K) (positions sorted L) := by
  have places : (Subset.ofSize k sorted).map IdSet.ofList =
      (Subset.ofSize k (List.finRange sorted.length)).map fun ps => .ofList (ps.map sorted.get) := by
    conv_lhs => rw [← List.map_get_finRange sorted, Subset.ofSize_map, List.map_map]
    rfl
  rw [places, List.pairwise_map]
  refine (Subset.lex_ofSize (List.sortedLT_finRange _).pairwise k).imp_of_mem fun hp hq lex => ?_
  rwa [positions_ofList distinct (Subset.mem_ofSize.mp hp).1,
    positions_ofList distinct (Subset.mem_ofSize.mp hq).1]

theorem listsSize_ofSize (proper : Proper sorted) (distinct : Distinct sorted)
    (inOrder : Relation.Ordered sorted) (k : Nat) :
    ListsSize sorted k ((Subset.ofSize k sorted).map IdSet.ofList) where
  mem_iff K := by
    constructor
    · intro member
      obtain ⟨ys, part, rfl⟩ := List.mem_map.mp member
      obtain ⟨sub, length⟩ := Subset.mem_ofSize.mp part
      refine ⟨fun r inside => sub.subset (IdSet.mem_ofList r inside), ?_⟩
      rw [IdSet.size_ofList (distinct.sublist sub), length]
    · rintro ⟨inside, rfl⟩
      exact mem_parts proper inOrder inside
  nodup := by
    rw [List.Nodup, List.pairwise_map]
    refine (pairwise_positions distinct k).imp fun lex same => ?_
    rw [positions_congr same] at lex
    exact List.lex_irrefl (fun i => lt_irrefl i) _ lex
  length := by rw [List.length_map, Subset.length_ofSize]
  ordered := pairwise_positions distinct k

theorem subsetsOfSize_limit (sorts : Relation.sort R.relations = .ok sorted)
    (fits : k * Word.bytes < machine.memory) (limit : Nat) :
    subsetsOfSize machine (.int k) (some limit) R.item =
      .ok (((Subset.ofSize k sorted).map IdSet.ofList).take limit) := by
  cases limit with
  | zero => rfl
  | succ limit =>
    rw [subsetsOfSize, Relation.sortItems_eq R.elements_eq, sorts, Subset.sizeOfValue_of_fits fits,
      ← List.map_take, ← Subset.firstOfSize_eq_take]
    rfl

theorem subsetsOfSize_of_large (proper : Proper R.relations)
    (large : machine.memory ≤ k * Word.bytes) :
    subsetsOfSize machine (.int k) none R.item =
      .error (if Word.isSigned k then .outOfMemory else .tooLarge) := by
  obtain ⟨sorted, sorts⟩ := proper.orderly.sort_isOk
  rw [subsetsOfSize, Relation.sortItems_eq R.elements_eq, sorts, Subset.sizeOfValue_of_large large]
  rfl

/-- Subsets of a size are listed completely, each once and in the order of their positions, as long as a
list of so many positions fits into memory; and all sizes, one after the other, give all parts. -/
theorem subsetsOfSize_complete (machine : Machine) (distinct : Distinct R.relations)
    (proper : Proper R.relations) :
    ∃ sorted, Relation.sortItems R.item = .ok sorted ∧ sorted.Perm R.relations ∧
      (∀ k, k * Word.bytes < machine.memory → ∃ parts,
        subsetsOfSize machine (.int k) none R.item = .ok parts ∧ ListsSize sorted k parts ∧
        (sorted.length < k → parts = []) ∧
        ∀ limit, subsetsOfSize machine (.int k) (some limit) R.item = .ok (parts.take limit)) ∧
      (∀ k, machine.memory ≤ k * Word.bytes → subsetsOfSize machine (.int k) none R.item =
        .error (if Word.isSigned k then .outOfMemory else .tooLarge)) ∧
      (sorted.length * Word.bytes < machine.memory → ∃ sequences, ∃ powers : List (List Relation),
        (List.range (sorted.length + 1)).mapM
            (fun k : Nat => subsetsOfSize machine (.int k) none R.item) = .ok sequences ∧
        Item.parts (.group .list (sorted.map .relation)) = .ok (powers.map (List.map .relation)) ∧
        sequences.flatten = powers.map IdSet.ofList) := by
  obtain ⟨sorted, sorts⟩ := proper.orderly.sort_isOk
  have perm := Relation.perm_of_sort sorts
  have lists := listsSize_ofSize (fun r member => proper r (perm.subset member)) (distinct.perm perm)
    (Relation.ordered_of_sort distinct sorts)
  refine ⟨sorted, (Relation.sortItems_eq R.elements_eq).trans sorts, perm, fun k fits => ?_,
    fun k large => subsetsOfSize_of_large proper large, fun fits => ?_⟩
  · refine ⟨_, subsetsOfSize_eq sorts fits, lists k, fun small => ?_, subsetsOfSize_limit sorts fits⟩
    rw [Subset.ofSize_eq_nil small, List.map_nil]
  · refine ⟨(List.range (sorted.length + 1)).map fun k => (Subset.ofSize k sorted).map IdSet.ofList,
      Subset.all sorted, mapM_eq_map fun k member => ?_, ?_, ?_⟩
    · refine subsetsOfSize_eq sorts (Nat.lt_of_le_of_lt (Nat.mul_le_mul_right _ ?_) fits)
      exact Nat.lt_succ_iff.mp (List.mem_range.mp member)
    · exact congrArg Except.ok (Subset.all_map Item.relation sorted)
    · rw [Subset.all, List.map_flatMap, List.flatMap]

section Examples

open Problem (relationWith)
open Touch (gathered)

def threeTables : Collected :=
  gathered .list [relationWith 1 "T10" 4 ["x"], relationWith 2 "T2" 5 [], relationWith 3 "T1" 6 []]

theorem proper_threeTables : Distinct threeTables.relations ∧ Proper threeTables.relations := by
  refine ⟨by decide, fun r member => ?_⟩
  rcases List.mem_cons.mp (show r ∈ [_, _, _] from member) with rfl | member
  · exact Problem.proper_relationWith ..
  · rcases List.mem_pair.mp member with rfl | rfl
    · exact Problem.proper_relationWith ..
    · exact Problem.proper_relationWith ..

theorem subsetsOfSize_threeTables : Distinct threeTables.relations ∧ Proper threeTables.relations ∧
    ∃ sorted parts, Relation.sortItems threeTables.item = .ok sorted ∧
      subsetsOfSize .small (.int 2) none threeTables.item = .ok parts ∧ ListsSize sorted 2 parts ∧
      parts.length = 3 := by
  obtain ⟨distinct, proper⟩ := proper_threeTables
  obtain ⟨sorted, sorts, perm, sizes, -, -⟩ := subsetsOfSize_complete .small distinct proper
  obtain ⟨parts, ok, lists, -, -⟩ := sizes 2 (by decide)
  refine ⟨distinct, proper, sorted, parts, sorts, ok, lists, ?_⟩
  rw [lists.length, perm.length_eq]
  rfl

/-- A part with more positions than a machine word can count is an error, although there is none. -/
theorem subsetsOfSize_not_always : Distinct threeTables.relations ∧ Proper threeTables.relations ∧
    threeTables.relations.length < 9223372036854775808 ∧
    subsetsOfSize .small (.int 9223372036854775808) none threeTables.item = .error .tooLarge := by
  obtain ⟨distinct, proper⟩ := proper_threeTables
  exact ⟨distinct, proper, by decide, subsetsOfSize_of_large proper (by decide)⟩

end Examples

end RelationSet

end JoinOrder
