import Mathlib
import JoinOrder.IdSet
import JoinOrder.SlotTable
/-!
What is in a set of things with identities. Such a set is known by the identities in it: insertion,
union and common members are described by them, and two sets with the same identities list them
alike.
-/

namespace JoinOrder

variable {α : Type} [Identified α]

/-- No two elements of a list have one identity. -/
def Distinct (xs : List α) : Prop := (xs.map identity).Nodup

instance (xs : List α) : Decidable (Distinct xs) :=
  inferInstanceAs (Decidable (xs.map identity).Nodup)

namespace Distinct

theorem nodup {xs : List α} (h : Distinct xs) : xs.Nodup := List.Nodup.of_map _ h

theorem sublist {xs ys : List α} (h : Distinct ys) (sub : xs.Sublist ys) : Distinct xs :=
  List.Nodup.sublist (sub.map _) h

theorem perm {xs ys : List α} (h : Distinct ys) (same : xs.Perm ys) : Distinct xs :=
  (same.map identity).nodup_iff.mpr h

theorem eq_of_identity {xs : List α} (h : Distinct xs) {x y : α} (hx : x ∈ xs) (hy : y ∈ xs)
    (same : identity x = identity y) : x = y := by
  induction xs with
  | nil => simp at hx
  | cons z zs ih =>
    have ⟨fresh, rest⟩ := List.nodup_cons.mp h
    rcases List.mem_cons.mp hx with rfl | inX
    · rcases List.mem_cons.mp hy with rfl | inY
      · rfl
      · exact absurd (same ▸ List.mem_map_of_mem inY) fresh
    · rcases List.mem_cons.mp hy with rfl | inY
      · exact absurd (same ▸ List.mem_map_of_mem inX) fresh
      · exact ih rest inX inY

/-- A part of a list is found in it again by the identities of its members. -/
theorem eq_filter {xs ys : List α} (h : Distinct ys) (sub : xs.Sublist ys) :
    xs = ys.filter fun y => (xs.map identity).contains (identity y) := by
  induction sub with
  | slnil => rfl
  | @cons xs ys y sub ih =>
    have ⟨fresh, rest⟩ := List.nodup_cons.mp h
    have absent : identity y ∉ xs.map identity := fun inside => fresh ((sub.map _).subset inside)
    rw [List.filter_cons_of_neg (by simpa using absent)]
    exact ih rest
  | @cons_cons xs ys y sub ih =>
    have ⟨fresh, rest⟩ := List.nodup_cons.mp h
    rw [List.filter_cons_of_pos (by simp)]
    refine congrArg (y :: ·) ((ih rest).trans (List.filter_congr fun z inside => ?_))
    have different : identity z ≠ identity y := fun same =>
      fresh (same ▸ List.mem_map_of_mem inside)
    simp [different]

/-- Parts of a list that have the same identities are the same. -/
theorem eq_of_sublist {xs ys zs : List α} (h : Distinct zs) (hx : xs.Sublist zs) (hy : ys.Sublist zs)
    (same : ∀ a, a ∈ xs.map identity ↔ a ∈ ys.map identity) : xs = ys := by
  rw [h.eq_filter hx, h.eq_filter hy]
  refine List.filter_congr fun z _ => Bool.eq_iff_iff.mpr ?_
  rw [List.contains_iff_mem, List.contains_iff_mem]
  exact same _

end Distinct

namespace Increasing

theorem mem_identities_insert {x : α} {ys : List α} {a : Atom} :
    a ∈ (insert x ys).map identity ↔ a = identity x ∨ a ∈ ys.map identity := by
  induction ys with
  | nil => simp [insert]
  | cons y ys ih =>
    unfold insert
    split
    case h_1 => simp
    case h_2 eq =>
      rw [Std.LawfulEqCmp.eq_of_compare eq]
      simp
    case h_3 =>
      rw [List.map_cons, List.mem_cons, ih, List.map_cons, List.mem_cons]
      exact or_left_comm

theorem mem_identities_merge {xs ys : List α} {a : Atom} :
    a ∈ (merge xs ys).map identity ↔ a ∈ xs.map identity ∨ a ∈ ys.map identity := by
  induction xs generalizing ys with
  | nil => simp [merge]
  | cons x xs ihX =>
    rw [merge]
    induction ys with
    | nil => simp [mergeHead, ihX]
    | cons y ys ihY =>
      unfold mergeHead
      split
      case h_1 => simp [ihX, or_assoc]
      case h_2 eq =>
        have same := Std.LawfulEqCmp.eq_of_compare eq
        simp only [List.map_cons, List.mem_cons, ihX, same]
        grind
      case h_3 =>
        rw [List.map_cons, List.mem_cons, ihY, List.map_cons (l := ys), List.mem_cons]
        exact or_left_comm

end Increasing

namespace IdSet

variable {s t : IdSet α} {a : Atom}

theorem increasing_identities (s : IdSet α) :
    s.identities.Pairwise fun a b => a.order b = .lt :=
  List.pairwise_map.mpr s.increasing

theorem nodup_identities (s : IdSet α) : s.identities.Nodup := by
  apply s.increasing_identities.imp
  intro a b lt eq
  rw [eq, Atom.order_self] at lt
  contradiction

/-- Sets that have the same identities list them alike. -/
theorem identities_eq (h : ∀ a, a ∈ s.identities ↔ a ∈ t.identities) :
    s.identities = t.identities := by
  refine List.Perm.eq_of_pairwise (fun a b _ _ ab ba => ?_) s.increasing_identities
    t.increasing_identities
    ((List.perm_ext_iff_of_nodup s.nodup_identities t.nodup_identities).mpr h)
  rw [Atom.order_swap, ba] at ab
  contradiction

theorem same_iff : s.same t = true ↔ s.identities = t.identities := beq_iff_eq

/-- Sets are equal if they have the same identities and these leave no choice of members. -/
theorem eq_of_identities (h : s.identities = t.identities)
    (known : ∀ x ∈ s.toList, ∀ y ∈ t.toList, identity x = identity y → x = y) : s = t := by
  have lists (xs ys : List α) (same : xs.map identity = ys.map identity)
      (known : ∀ x ∈ xs, ∀ y ∈ ys, identity x = identity y → x = y) : xs = ys := by
    induction xs generalizing ys with
    | nil => exact (List.map_eq_nil_iff.mp same.symm).symm
    | cons x xs ih =>
      cases ys with
      | nil => simp at same
      | cons y ys =>
        have ⟨head, tail⟩ := List.cons.inj same
        rw [known x (by simp) y (by simp) head, ih ys tail fun z hz w hw =>
          known z (List.mem_cons_of_mem _ hz) w (List.mem_cons_of_mem _ hw)]
  cases s
  cases t
  congr
  exact lists _ _ h known

theorem contains_iff : s.contains a = true ↔ a ∈ s.identities := by
  simp [contains, identities]

theorem mem_identities_insert {x : α} :
    a ∈ (s.insert x).identities ↔ a = identity x ∨ a ∈ s.identities :=
  Increasing.mem_identities_insert

theorem mem_identities_union :
    a ∈ (s.union t).identities ↔ a ∈ s.identities ∨ a ∈ t.identities :=
  Increasing.mem_identities_merge

theorem size_eq (same : s.identities = t.identities) : s.size = t.size := by
  have lengths := congrArg List.length same
  rwa [identities, identities, List.length_map, List.length_map] at lengths

theorem mem_identities_filter {p : α → Bool} :
    a ∈ (s.filter p).identities ↔ ∃ x ∈ s.toList, p x = true ∧ identity x = a := by
  simp [filter, identities, and_assoc]

theorem mem_identities_inter : a ∈ (s.inter t).identities ↔ a ∈ s.identities ∧ a ∈ t.identities := by
  unfold inter
  split
  · simp only [mem_identities_filter, contains_iff]
    constructor
    · rintro ⟨x, member, inS, rfl⟩
      exact ⟨inS, List.mem_map_of_mem member⟩
    · rintro ⟨inS, inT⟩
      obtain ⟨x, member, rfl⟩ := List.mem_map.mp inT
      exact ⟨x, member, inS, rfl⟩
  · simp only [mem_identities_filter, contains_iff]
    constructor
    · rintro ⟨x, member, inT, rfl⟩
      exact ⟨List.mem_map_of_mem member, inT⟩
    · rintro ⟨inS, inT⟩
      obtain ⟨x, member, rfl⟩ := List.mem_map.mp inS
      exact ⟨x, member, inT, rfl⟩

theorem size_inter_comm (s t : IdSet α) : (s.inter t).size = (t.inter s).size := by
  apply size_eq
  apply identities_eq
  intro a
  rw [mem_identities_inter, mem_identities_inter]
  exact and_comm

theorem mem_identities_ofList {xs : List α} :
    a ∈ (ofList xs).identities ↔ a ∈ xs.map identity := by
  have fold (s : IdSet α) : a ∈ (xs.foldl insert s).identities ↔
      a ∈ s.identities ∨ a ∈ xs.map identity := by
    induction xs generalizing s with
    | nil => simp
    | cons x xs ih =>
      rw [List.foldl_cons, ih, mem_identities_insert, List.map_cons, List.mem_cons, or_assoc,
        or_left_comm]
  simpa [ofList, identities, EmptyCollection.emptyCollection, empty] using fold ∅

theorem eq_of_identity {x y : α} (hx : x ∈ s.toList) (hy : y ∈ s.toList)
    (same : identity x = identity y) : x = y :=
  Distinct.eq_of_identity s.nodup_identities hx hy same

/-- A set is known by its members. -/
theorem eq_of_members (same : ∀ x, x ∈ s.toList ↔ x ∈ t.toList) : s = t := by
  apply eq_of_identities
  · exact identities_eq fun a => by simp only [identities, List.mem_map, same]
  · exact fun x hx y hy equal => eq_of_identity ((same x).mp hx) hy equal

theorem mem_ofList {xs : List α} : ∀ x ∈ (IdSet.ofList xs).toList, x ∈ xs := by
  refine List.foldlRecOn (motive := fun s : IdSet α => ∀ x ∈ s.toList, x ∈ xs) xs IdSet.insert
    (fun x none => absurd none List.not_mem_nil) fun s known y member x inside => ?_
  rcases Increasing.mem_insert inside with rfl | old
  · exact member
  · exact known x old

theorem mem_ofList_iff {xs : List α} (distinct : Distinct xs) {x : α} :
    x ∈ (ofList xs).toList ↔ x ∈ xs := by
  refine ⟨mem_ofList x, fun member => ?_⟩
  have known : identity x ∈ (ofList xs).identities :=
    mem_identities_ofList.mpr (List.mem_map_of_mem member)
  obtain ⟨y, inside, same⟩ := List.mem_map.mp known
  rwa [← distinct.eq_of_identity (mem_ofList y inside) member same]

theorem perm_ofList {xs : List α} (distinct : Distinct xs) : (ofList xs).toList.Perm xs :=
  (List.perm_ext_iff_of_nodup (Distinct.nodup (ofList xs).nodup_identities) distinct.nodup).mpr
    fun _ => mem_ofList_iff distinct

theorem size_ofList {xs : List α} (distinct : Distinct xs) : (ofList xs).size = xs.length :=
  (perm_ofList distinct).length_eq

theorem identities_ofList_congr {xs ys : List α}
    (h : ∀ a, a ∈ xs.map identity ↔ a ∈ ys.map identity) :
    (ofList xs).identities = (ofList ys).identities :=
  identities_eq fun a => by rw [mem_identities_ofList, mem_identities_ofList, h]

theorem identities_ofList_perm {xs ys : List α} (same : xs.Perm ys) :
    (ofList xs).identities = (ofList ys).identities :=
  identities_ofList_congr fun _ => (same.map identity).mem_iff

theorem identities_ofList_ne_nil {xs : List α} (some : xs ≠ []) : (ofList xs).identities ≠ [] := by
  obtain ⟨x, rest, rfl⟩ := List.exists_cons_of_ne_nil some
  exact List.ne_nil_of_mem (mem_identities_ofList.mpr (List.mem_map_of_mem List.mem_cons_self))

end IdSet

namespace SlotTable

/-- A table lists the identities that were put in, whatever else may differ. -/
theorem mem_identities_insert (table : SlotTable α) (x : α) {a : Atom} :
    a ∈ (table.insert x).members.map identity ↔
      a = identity x ∨ a ∈ table.members.map identity := by
  cases known : table.contains x with
  | false =>
    rw [((perm_insert known).map identity).mem_iff, List.map_cons, List.mem_cons]
  | true =>
    obtain ⟨y, inside, same⟩ := List.any_eq_true.mp known
    have same : identity x = identity y := beq_iff_eq.mp same
    rw [insert, known, if_pos rfl, same]
    exact ⟨.inr, fun h => h.elim (· ▸ List.mem_map_of_mem inside) id⟩

theorem mem_identities_ofList (xs : List α) {a : Atom} :
    a ∈ (ofList xs).members.map identity ↔ a ∈ xs.map identity := by
  have all (table : SlotTable α) : a ∈ (table.insertAll xs).members.map identity ↔
      a ∈ table.members.map identity ∨ a ∈ xs.map identity := by
    induction xs generalizing table with
    | nil => simp [insertAll]
    | cons x xs ih =>
      rw [insertAll, ih, mem_identities_insert, List.map_cons, List.mem_cons, or_assoc, or_left_comm]
  simpa [ofList, empty, members] using all (empty leastSize)

/-- Things with distinct identities are all listed, in some order. -/
theorem perm_insertAll {xs : List α} (table : SlotTable α)
    (distinct : Distinct (xs ++ table.members)) : (table.insertAll xs).members.Perm (xs ++ table.members) := by
  induction xs generalizing table with
  | nil => exact .refl _
  | cons x xs ih =>
    have ⟨new, _⟩ := List.nodup_cons.mp distinct
    have fresh : table.contains x = false := by
      cases known : table.contains x with
      | false => rfl
      | true =>
        obtain ⟨y, inside, same⟩ := List.any_eq_true.mp known
        have same : identity x = identity y := beq_iff_eq.mp same
        exact absurd (same ▸ List.mem_map_of_mem (List.mem_append_right xs inside)) new
    have next : (xs ++ (table.insert x).members).Perm (x :: xs ++ table.members) :=
      ((perm_insert fresh).append_left xs).trans List.perm_middle
    exact (ih _ (distinct.perm next)).trans next

theorem perm_ofList {xs : List α} (distinct : Distinct xs) : (ofList xs).members.Perm xs := by
  have none : (empty leastSize : SlotTable α).members = [] := rfl
  have all := @perm_insertAll _ _ xs (empty leastSize) (by rwa [none, List.append_nil])
  rwa [none, List.append_nil] at all

end SlotTable

end JoinOrder
