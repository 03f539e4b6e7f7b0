import JoinOrder.Proofs.Changes
import JoinOrder.Proofs.InputOrder
/-!
The order in which a table lists its sets: small ones first, and those of one size by the order of their
relations, as words in a dictionary. No two sets have one place in it, so nothing but the sets
themselves decides about the list. And the parts of one size of a list of relations come in just this
order when they are enumerated by their positions.
-/

namespace JoinOrder

theorem Atom.order_ofInt (n m : Int) : (ofInt n).order (ofInt m) = compare n m := by
  have one : ((parts 0 : Nat) : Int) = 1 := rfl
  have rank : compare (2 : Nat) 2 = .eq := rfl
  have halvings : compare (0 : Nat) 0 = .eq := rfl
  simp only [order, Atom.rank, ofInt, orderWithin, one, Int.mul_one, rank, halvings, Ordering.eq_then,
    Ordering.then_eq]

namespace SortKey

instance : Std.Asymm Below where
  asymm _ _ forth back := not_below_self _ (below_trans forth back)

theorem orderItems_eq_lt_iff {xs ys : List SortKey} :
    orderItems xs ys = .lt ↔ List.Lex Below xs ys := by
  induction xs generalizing ys with
  | nil =>
    cases ys with
    | nil => exact iff_of_false (fun lt => nomatch lt) fun lex => nomatch lex
    | cons y ys => exact iff_of_true rfl .nil
  | cons x xs ih =>
    cases ys with
    | nil => exact iff_of_false (fun lt => nomatch lt) fun lex => nomatch lex
    | cons y ys =>
      rw [orderItems, Ordering.then_eq_lt, order_eq_iff, ih]
      constructor
      · rintro (below | ⟨rfl, lex⟩)
        · exact .rel below
        · exact .cons lex
      · intro lex
        cases lex with
        | rel below => exact .inl below
        | cons lex => exact .inr ⟨rfl, lex⟩

end SortKey

namespace RelationSet

/-- One set is listed before another: it is smaller, or of one size with it and first in the dictionary
whose words are the sort keys of the relations in their order. -/
def Precedes (K L : RelationSet) : Prop :=
  K.size < L.size ∨ K.size = L.size ∧ ∃ xs ys, Relation.sort K.toList = .ok xs ∧
    Relation.sort L.toList = .ok ys ∧
      List.Lex SortKey.Below (xs.map Relation.sortKey) (ys.map Relation.sortKey)

instance : Std.Asymm Precedes where
  asymm := by
    rintro K L (smaller | ⟨size, xs, ys, sortK, sortL, lex⟩) (larger | ⟨size', ys', xs', sortL', sortK', lex'⟩)
    · omega
    · omega
    · omega
    · rw [sortK] at sortK'
      rw [sortL] at sortL'
      cases sortK'
      cases sortL'
      exact Std.Asymm.asymm _ _ lex lex'

variable {K L : RelationSet} {xs ys : List Relation}

/-- The order of sets is the order of the keys that a table works out for them. -/
theorem precedes_iff_below (sortK : Relation.sort K.toList = .ok xs)
    (sortL : Relation.sort L.toList = .ok ys) :
    K.Precedes L ↔ SortKey.Below (Memo.keyOfSorted xs) (Memo.keyOfSorted ys) := by
  have sizeK : K.size = xs.length := (Relation.perm_of_sort sortK).length_eq.symm
  have sizeL : L.size = ys.length := (Relation.perm_of_sort sortL).length_eq.symm
  have words : (∃ xs' ys', Relation.sort K.toList = .ok xs' ∧ Relation.sort L.toList = .ok ys' ∧
      List.Lex SortKey.Below (xs'.map Relation.sortKey) (ys'.map Relation.sortKey)) ↔
        List.Lex SortKey.Below (xs.map Relation.sortKey) (ys.map Relation.sortKey) := by
    rw [sortK, sortL]
    constructor
    · rintro ⟨_, _, ⟨⟩, ⟨⟩, lex⟩
      exact lex
    · intro lex
      exact ⟨xs, ys, rfl, rfl, lex⟩
  simp only [Precedes, words, sizeK, sizeL, Memo.keyOfSorted, SortKey.Below, SortKey.order,
    SortKey.orderItems, Atom.order_ofInt, Ordering.then_eq, Ordering.then_eq_lt,
    SortKey.orderItems_eq_lt_iff, Int.compare_eq_lt, Int.compare_eq_eq, Int.ofNat_lt, Int.ofNat_inj]

end RelationSet

/-! ### Parts of one size -/

theorem ok_bind {α β : Type} {a : α} {next : α → Except Error β} :
    ((.ok a : Except Error α) >>= next) = next a := rfl

theorem throw_bind {α β : Type} {e : Error} {next : α → Except Error β} :
    ((throw e : Except Error α) >>= next) = .error e := rfl

namespace Subset

variable {α : Type} {before : α → α → Prop} {xs : List α} {k n : Nat} {machine : Machine}

/-- All memory is counted in words, so is what fits into it. -/
theorem isSigned_of_fits (fits : k * Word.bytes < machine.memory) : Word.isSigned k = true := by
  have bound := machine.memory_le
  have bytes : Word.bytes = 8 := rfl
  have last : Word.signedEnd = 9223372036854775808 := rfl
  rw [bytes] at fits
  rw [last] at bound
  rw [Word.isSigned, last, Bool.and_eq_true, decide_eq_true_iff, decide_eq_true_iff]
  omega

theorem sizeOfValue_of_fits (fits : k * Word.bytes < machine.memory) :
    sizeOfValue machine (.int k) = .ok k := by
  have given : fitting (Value.int k).int? = .ok (k : Int) := rfl
  have signed : ¬ (!Word.isSigned k) = true := by
    rw [isSigned_of_fits fits]
    decide
  have low : ¬ (k : Int) < 0 := by omega
  have small : ¬ machine.memory ≤ (k : Int).toNat * Word.bytes := Nat.not_le.mpr fits
  rw [sizeOfValue, given, ok_bind, if_neg signed, if_neg low, if_neg small, Int.toNat_natCast]
  rfl

theorem eq_of_sizeOfValue (ok : sizeOfValue machine (.int k) = .ok n) : n = k := by
  have given : fitting (Value.int k).int? = .ok (k : Int) := rfl
  have low : ¬ (k : Int) < 0 := by omega
  rw [sizeOfValue, given, ok_bind] at ok
  by_cases signed : (!Word.isSigned k) = true
  · rw [if_pos signed, throw_bind] at ok
    exact nomatch ok
  by_cases large : machine.memory ≤ (k : Int).toNat * Word.bytes
  · rw [if_neg signed, if_neg low, if_pos large, throw_bind] at ok
    exact nomatch ok
  · rw [if_neg signed, if_neg low, if_neg large, Int.toNat_natCast] at ok
    exact (Except.ok.inj ok).symm

/-- Parts that start with an element come before those that start further behind. -/
theorem lex_ofSize (ordered : xs.Pairwise before) (k : Nat) :
    (ofSize k xs).Pairwise (List.Lex before) := by
  induction xs generalizing k with
  | nil =>
    cases k with
    | zero => exact List.pairwise_singleton ..
    | succ k => exact .nil
  | cons x xs ih =>
    cases k with
    | zero => exact List.pairwise_singleton ..
    | succ k =>
      have rest := (List.pairwise_cons.mp ordered).2
      have first := (List.pairwise_cons.mp ordered).1
      rw [ofSize, List.pairwise_append]
      -- Parts with the first element are listed before those without it.
      refine ⟨List.pairwise_map.mpr ((ih rest k).imp .cons), ih rest (k + 1), ?_⟩
      intro ys withFirst zs without
      obtain ⟨tail, _, rfl⟩ := List.mem_map.mp withFirst
      have part := mem_ofSize.mp without
      cases zs with
      | nil => exact absurd part.2 (Nat.succ_ne_zero k).symm
      | cons z zs => exact .rel (first z (part.1.subset List.mem_cons_self))

end Subset

namespace Relation

variable {xs ys : List Relation}

/-- Relations in their order that are all among others in theirs are a part of those. -/
theorem Ordered.sublist_of_subset (hx : Ordered xs) (hy : Ordered ys) (sub : xs ⊆ ys) :
    xs.Sublist ys := by
  have asymm : Std.Asymm fun r s : Relation => SortKey.Below r.sortKey s.sortKey :=
    ⟨fun _ _ forth back => Std.Asymm.asymm _ _ forth back⟩
  have nodup : xs.Nodup := List.Pairwise.imp (fun below same => by
    rw [same] at below
    exact SortKey.not_below_self _ below) hx
  exact List.sublist_of_subperm_of_pairwise (List.subperm_of_subset nodup sub) hx hy

theorem lex_sortKey (lex : List.Lex (fun r s : Relation => SortKey.Below r.sortKey s.sortKey) xs ys) :
    List.Lex SortKey.Below (xs.map sortKey) (ys.map sortKey) := by
  induction lex with
  | nil => exact .nil
  | rel below => exact .rel below
  | cons _ ih => exact .cons ih

end Relation

namespace RelationSet

/-- Integer identities and text names, so that the relations can be brought into their order. -/
def Proper (relations : List Relation) : Prop := ∀ r ∈ relations, r.IsNumbered ∧ r.IsNamed

theorem Proper.orderly {relations : List Relation} (proper : Proper relations) :
    Relation.Orderly relations :=
  .of_pairwise (fun r member => (proper r member).2)
    (Relation.pairwise_comparable fun r member => (proper r member).1)

variable {xs ys : List Relation} {K : RelationSet}

theorem sort_ofList (proper : Proper xs) (distinct : Distinct xs) (ordered : Relation.Ordered xs) :
    Relation.sort (IdSet.ofList xs).toList = .ok xs := by
  rw [← proper.orderly.sort_congr distinct (IdSet.perm_ofList distinct).symm]
  exact Relation.sort_of_proper proper distinct ordered

/-- The parts of one size are listed in the order of sets. -/
theorem pairwise_parts (proper : Proper xs) (distinct : Distinct xs) (ordered : Relation.Ordered xs)
    (k : Nat) : ((Subset.ofSize k xs).map IdSet.ofList).Pairwise Precedes := by
  rw [List.pairwise_map]
  refine (Subset.lex_ofSize ordered k).imp_of_mem fun {ys zs} hy hz lex => ?_
  have sorts {part : List Relation} (member : part ∈ Subset.ofSize k xs) :
      Distinct part ∧ Relation.sort (IdSet.ofList part).toList = .ok part := by
    have sub := (Subset.mem_ofSize.mp member).1
    have apart : Distinct part := distinct.sublist sub
    exact ⟨apart, sort_ofList (fun r inside => proper r (sub.subset inside)) apart
      (ordered.sublist sub)⟩
  have size : (IdSet.ofList ys).size = (IdSet.ofList zs).size := by
    rw [IdSet.size_ofList (sorts hy).1, IdSet.size_ofList (sorts hz).1, (Subset.mem_ofSize.mp hy).2,
      (Subset.mem_ofSize.mp hz).2]
  exact .inr ⟨size, ys, zs, (sorts hy).2, (sorts hz).2, Relation.lex_sortKey lex⟩

/-- A set of relations that are all listed is among the parts of its size. -/
theorem mem_parts (proper : Proper xs) (ordered : Relation.Ordered xs) (inside : K.toList ⊆ xs) :
    K ∈ (Subset.ofSize K.size xs).map IdSet.ofList := by
  -- The members in their own order are the part that is looked for.
  have distinct : Distinct K.toList := K.nodup_identities
  have own : Proper K.toList := fun r member => proper r (inside member)
  obtain ⟨ys, sorts⟩ := own.orderly.sort_isOk
  have perm := Relation.perm_of_sort sorts
  have sub : ys.Sublist xs := (Relation.ordered_of_sort distinct sorts).sublist_of_subset ordered
    fun r member => inside (perm.subset member)
  refine List.mem_map.mpr ⟨ys, Subset.mem_ofSize.mpr ⟨sub, perm.length_eq⟩, ?_⟩
  exact IdSet.eq_of_members fun r => by
    rw [IdSet.mem_ofList_iff (distinct.perm perm), perm.mem_iff]

/-- Sets that are in their order are part of the parts of their size. -/
theorem sublist_parts {sets : List RelationSet} {k : Nat} (proper : Proper xs)
    (distinct : Distinct xs) (ordered : Relation.Ordered xs) (inOrder : sets.Pairwise Precedes)
    (inside : ∀ K ∈ sets, K.size = k ∧ K.toList ⊆ xs) :
    sets.Sublist ((Subset.ofSize k xs).map IdSet.ofList) := by
  have known : sets ⊆ (Subset.ofSize k xs).map IdSet.ofList := by
    intro K member
    have own := inside K member
    rw [← own.1]
    exact mem_parts proper ordered own.2
  exact List.sublist_of_subperm_of_pairwise (List.subperm_of_subset inOrder.nodup known) inOrder
    (pairwise_parts proper distinct ordered k)

theorem subsetsOfSize_eq {R : Collected} {sorted : List Relation} {k : Nat} {machine : Machine}
    (sorts : Relation.sort R.relations = .ok sorted) (fits : k * Word.bytes < machine.memory) :
    subsetsOfSize machine (.int k) none R.item = .ok ((Subset.ofSize k sorted).map IdSet.ofList) := by
  rw [subsetsOfSize, Relation.sortItems_eq R.elements_eq, sorts, Subset.sizeOfValue_of_fits fits]
  rfl

theorem subsetsOfSize_isOk {R : Collected} (proper : Proper R.relations) {k : Nat}
    {machine : Machine} (fits : k * Word.bytes < machine.memory) :
    ∃ parts, subsetsOfSize machine (.int k) none R.item = .ok parts := by
  obtain ⟨sorted, sorts⟩ := proper.orderly.sort_isOk
  exact ⟨_, subsetsOfSize_eq sorts fits⟩

theorem parts_of_subsetsOfSize {R : Collected} {k : Nat} {parts : List RelationSet}
    {machine : Machine} (ok : subsetsOfSize machine (.int k) none R.item = .ok parts) : ∃ sorted,
      Relation.sort R.relations = .ok sorted ∧ parts = (Subset.ofSize k sorted).map IdSet.ofList := by
  obtain ⟨sorted, sorts, ok⟩ := ok_of_bind ok
  obtain ⟨n, size, ok⟩ := ok_of_bind ok
  rw [Relation.sortItems_eq R.elements_eq] at sorts
  cases Subset.eq_of_sizeOfValue size
  cases ok
  exact ⟨sorted, sorts, rfl⟩

end RelationSet

/-! ### Tables -/

namespace Memo

variable {m m' : Memo} {sorted : List Entry}

/-- The sets that have an entry, in no particular order. -/
def keys (m : Memo) : List RelationSet := m.table.values.map (·.relations)

/-- What callers see of an entry: for which set it is, and the plan. -/
def Entry.stored (e : Entry) : RelationSet × Plan := (e.relations, e.plan)

/-- All entries are for relations that can be brought into their order. -/
def Proper (m : Memo) : Prop := ∀ K ∈ m.keys, RelationSet.Proper K.toList

theorem mem_keys {e : Entry} (member : e ∈ m.table.values) : e.relations ∈ m.keys :=
  List.mem_map_of_mem member

theorem Proper.sortable (proper : m.Proper) : m.Sortable := by
  intro e he f hf r hr s hs
  have first := proper _ (mem_keys he) r hr
  have second := proper _ (mem_keys hf) s hs
  exact (Relation.comparable_sortKey_iff first.2 second.2).mpr
    (.inr (Relation.comparable_of_numbered first.1 second.1))

theorem Proper.sort_isOk (proper : m.Proper) {K : RelationSet} (key : K ∈ m.keys) :
    ∃ xs, Relation.sort K.toList = .ok xs := (proper K key).orderly.sort_isOk

theorem Proper.entries_isOk (proper : m.Proper) : ∃ sorted, m.entries = .ok sorted := by
  obtain ⟨sets, ok⟩ := proper.sortable.subsets_isOk
  obtain ⟨sorted, entries, _⟩ := ok_of_bind ok
  exact ⟨sorted, entries⟩

/-- Every key was worked out for the value that it stands before. -/
theorem key_of_mapM {α β : Type} {key : α → Except Error β} {xs : List α} {keyed : List (β × α)}
    (ok : (xs.mapM fun x => do return (← key x, x)) = .ok keyed) :
    ∀ pair ∈ keyed, key pair.2 = .ok pair.1 := by
  induction xs generalizing keyed with
  | nil =>
    cases ok
    exact fun pair none => absurd none List.not_mem_nil
  | cons x xs ih =>
    rw [List.mapM_cons] at ok
    obtain ⟨first, worked, ok⟩ := ok_of_bind ok
    obtain ⟨rest, others, ok⟩ := ok_of_bind ok
    obtain ⟨k, is, worked⟩ := ok_of_bind worked
    cases worked
    cases ok
    exact List.forall_mem_cons.mpr ⟨is, ih others⟩

/-- Entries are listed by the keys that were worked out for their sets. -/
theorem pairwise_entries (ok : m.entries = .ok sorted) : sorted.Pairwise fun e f =>
    ∃ a b, sortKey e.relations = .ok a ∧ sortKey f.relations = .ok b ∧ a.atMost b = true := by
  obtain ⟨keyed, keys, ok⟩ := ok_of_bind ok
  obtain ⟨arranged, found, ok⟩ := ok_of_bind ok
  cases ok
  cases sort : SortKey.sortBy? (·.1) keyed with
  | none =>
    rw [sort] at found
    exact nomatch found
  | some list =>
    rw [sort] at found
    cases found
    have worked := key_of_mapM keys
    rw [(SortKey.eq_arranged_of_sortBy? sort).1, List.pairwise_map]
    refine (SortKey.arranged_pairwise (·.1) keyed).imp_of_mem fun {a b} ha hb atMost => ?_
    have perm := SortKey.arranged_perm (·.1) keyed
    exact ⟨a.1, b.1, worked a (perm.subset ha), worked b (perm.subset hb), atMost⟩

/-- Sort keys tell relations apart as far as their identities do, also where names are alike. -/
theorem identities_subset_of_sortKeys {xs ys : List Relation}
    (same : xs.map Relation.sortKey = ys.map Relation.sortKey) :
    xs.map identity ⊆ ys.map identity := by
  intro a member
  obtain ⟨r, inside, rfl⟩ := List.mem_map.mp member
  have key : r.sortKey ∈ ys.map Relation.sortKey := same ▸ List.mem_map_of_mem inside
  obtain ⟨s, known, is⟩ := List.mem_map.mp key
  simp only [Relation.sortKey, SortKey.tuple.injEq, List.cons.injEq, SortKey.atom.injEq] at is
  exact List.mem_map.mpr ⟨s, known, is.2.1⟩

theorem identities_of_keyOfSorted {K L : RelationSet} {xs ys : List Relation}
    (sortK : Relation.sort K.toList = .ok xs) (sortL : Relation.sort L.toList = .ok ys)
    (same : keyOfSorted xs = keyOfSorted ys) : K.identities = L.identities := by
  simp only [keyOfSorted, SortKey.tuple.injEq, List.cons.injEq] at same
  have permK := (Relation.perm_of_sort sortK).map identity
  have permL := (Relation.perm_of_sort sortL).map identity
  have forth := identities_subset_of_sortKeys same.2.1
  have back := identities_subset_of_sortKeys same.2.1.symm
  refine IdSet.identities_eq fun a => ⟨fun inK => ?_, fun inL => ?_⟩
  · exact permL.subset (forth (permK.symm.subset inK))
  · exact permK.subset (back (permL.symm.subset inL))

/-- No two entries have one place in the list. -/
theorem ordered_entries (filed : m.Filed) (proper : m.Proper) (ok : m.entries = .ok sorted) :
    sorted.Pairwise fun e f => RelationSet.Precedes e.relations f.relations := by
  -- Sorting keeps keys from decreasing. That they increase takes two entries never to have one key.
  have perm := perm_entries ok
  have apart : sorted.Pairwise fun e f => e.key ≠ f.key :=
    List.pairwise_map.mp ((perm.map Entry.key).nodup_iff.mpr filed.nodup)
  refine ((pairwise_entries ok).and apart).imp_of_mem fun {e f} he hf both => ?_
  obtain ⟨⟨a, b, keyE, keyF, atMost⟩, different⟩ := both
  obtain ⟨xs, sortE⟩ := proper.sort_isOk (mem_keys (perm.subset he))
  obtain ⟨ys, sortF⟩ := proper.sort_isOk (mem_keys (perm.subset hf))
  rw [sortKey_eq sortE] at keyE
  rw [sortKey_eq sortF] at keyF
  cases keyE
  cases keyF
  rw [RelationSet.precedes_iff_below sortE sortF]
  exact SortKey.below_of_atMost atMost fun same =>
    different (identities_of_keyOfSorted sortE sortF same)

/-- Whatever is read off the entries in their order, and shows for which sets they are, depends on
nothing but what there is to read. -/
theorem map_entries_eq {γ : Type} {read : Entry → γ} {setOf : γ → RelationSet} {sorted' : List Entry}
    (shows : ∀ e, setOf (read e) = e.relations) (filed : m.Filed) (filed' : m'.Filed)
    (proper : m.Proper) (proper' : m'.Proper) (ok : m.entries = .ok sorted)
    (ok' : m'.entries = .ok sorted')
    (same : ∀ x, x ∈ m.table.values.map read ↔ x ∈ m'.table.values.map read) :
    sorted.map read = sorted'.map read := by
  have ordered {m : Memo} {sorted : List Entry} (filed : m.Filed) (proper : m.Proper)
      (ok : m.entries = .ok sorted) :
      (sorted.map read).Pairwise (Order.Preimage setOf RelationSet.Precedes) := by
    refine List.pairwise_map.mpr ((ordered_entries filed proper ok).imp fun precedes => ?_)
    simpa only [Order.Preimage, shows] using precedes
  refine (ordered filed proper ok).eq_of_mem_iff (ordered filed' proper' ok') fun x => ?_
  rw [((perm_entries ok).map read).mem_iff, ((perm_entries ok').map read).mem_iff, same]

/-- Tables with the same sets list them alike. -/
theorem subsets_congr (filed : m.Filed) (filed' : m'.Filed) (proper : m.Proper)
    (same : ∀ K, K ∈ m.keys ↔ K ∈ m'.keys) : m.subsets = m'.subsets := by
  have proper' : m'.Proper := fun K key => proper K ((same K).mpr key)
  obtain ⟨sorted, ok⟩ := proper.entries_isOk
  obtain ⟨sorted', ok'⟩ := proper'.entries_isOk
  have lists := map_entries_eq (fun e => (rfl : id e.relations = e.relations)) filed filed' proper
    proper' ok ok' same
  rw [subsets, subsets, ok, ok']
  exact congrArg Except.ok lists

end Memo
end JoinOrder
