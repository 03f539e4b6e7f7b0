import JoinOrder.Proofs.Memo
/-!
Tables as collections of entries. The key of an entry is the list of the identities of its set, and a
plan that is kept under a key without one adds a single entry to those that were there.
-/

namespace JoinOrder

namespace Trie

variable {α : Type} {t : Trie α} {key : List Atom} {f : Option α → α} {v : α}

theorem values_single (some : key ≠ []) : (single key v).values = [v] := by
  induction key with
  | nil => exact absurd rfl some
  | cons a rest ih =>
    cases rest with
    | nil => rfl
    | cons b rest =>
      simp only [single, values, ih (List.cons_ne_nil b rest)]
      rfl

/-- A new key adds its value and leaves the others. -/
theorem values_alter (some : key ≠ []) (new : t.find? key = none) :
    (t.alter f key).values.Perm (f none :: t.values) := by
  induction t generalizing key with
  | leaf =>
    rw [alter, values_single some]
    rfl
  | node label here below beside ihBelow ihBeside =>
    obtain ⟨a, rest, rfl⟩ := List.exists_cons_of_ne_nil some
    rw [find?] at new
    rw [alter]
    by_cases same : a = label
    · rw [if_pos same] at new ⊢
      cases rest with
      | nil =>
        obtain rfl : here = none := by simpa using new
        exact .refl _
      | cons b rest =>
        have ih := ihBelow (List.cons_ne_nil b rest) new
        have inside := (ih.append_left here.toList).append_right beside.values
        apply inside.trans
        simp only [values, List.append_assoc, List.cons_append]
        exact List.perm_middle
    · rw [if_neg same] at new ⊢
      have ih := ihBeside (List.cons_ne_nil a rest) new
      exact (ih.append_left _).trans List.perm_middle

/-- A key that has a value already gets a new one in its place. -/
theorem values_alter_old (found : t.find? key = some v) :
    ∃ rest, t.values.Perm (v :: rest) ∧ (t.alter f key).values.Perm (f (some v) :: rest) := by
  induction t generalizing key with
  | leaf => rw [find?_leaf] at found; contradiction
  | node label here below beside ihBelow ihBeside =>
    cases key with
    | nil => exact nomatch found
    | cons a more =>
      rw [find?] at found
      rw [alter]
      by_cases same : a = label
      · rw [if_pos same] at found ⊢
        cases more with
        | nil =>
          obtain rfl : here = some v := found
          exact ⟨below.values ++ beside.values, .refl _, .refl _⟩
        | cons b more =>
          obtain ⟨rest, before, after⟩ := ihBelow found
          refine ⟨here.toList ++ rest ++ beside.values, ?_, ?_⟩
          · have inside := (before.append_left here.toList).append_right beside.values
            exact inside.trans (List.perm_middle.append_right beside.values)
          · have inside := (after.append_left here.toList).append_right beside.values
            exact inside.trans (List.perm_middle.append_right beside.values)
      · rw [if_neg same] at found ⊢
        obtain ⟨rest, before, after⟩ := ihBeside found
        exact ⟨here.toList ++ below.values ++ rest, (before.append_left _).trans List.perm_middle,
          (after.append_left _).trans List.perm_middle⟩

end Trie

/-- The key under which a table keeps the plan of relations. -/
def keyOf (relations : List Relation) : List Atom := (IdSet.ofList relations).identities

theorem mem_keyOf {relations : List Relation} {a : Atom} :
    a ∈ keyOf relations ↔ a ∈ relations.map identity := IdSet.mem_identities_ofList

theorem length_keyOf {relations : List Relation} (distinct : Distinct relations) :
    (keyOf relations).length = relations.length := by
  rw [keyOf, IdSet.identities, List.length_map]
  exact IdSet.size_ofList distinct

theorem length_identities (K : RelationSet) : K.identities.length = K.size := List.length_map _

/-- A set with identities of a list alone has the key of a part of that list. -/
theorem exists_part_of_subset {xs : List Relation} {K : RelationSet}
    (inside : K.identities ⊆ keyOf xs) : ∃ ys, ys.Sublist xs ∧ K.identities = keyOf ys := by
  refine ⟨xs.filter fun r => K.contains (identity r), List.filter_sublist, ?_⟩
  apply IdSet.identities_eq
  intro a
  rw [IdSet.mem_identities_ofList, List.mem_map]
  constructor
  · intro inK
    obtain ⟨r, member, rfl⟩ := List.mem_map.mp (mem_keyOf.mp (inside inK))
    exact ⟨r, List.mem_filter.mpr ⟨member, IdSet.contains_iff.mpr inK⟩, rfl⟩
  · rintro ⟨r, member, rfl⟩
    exact IdSet.contains_iff.mp (List.mem_filter.mp member).2

namespace Memo

variable {m : Memo} {K : RelationSet} {k : List Atom} {source : List Relation} {plan : Plan}

/-- There is an entry under the key. -/
def Has (m : Memo) (k : List Atom) : Prop := (m.table.find? k).isSome = true

def Entry.key (entry : Entry) : List Atom := entry.relations.identities

theorem isSome_find? : (m.find? K).isSome = true ↔ m.Has K.identities := by
  rw [find?, Has, Option.isSome_map]

theorem knows_iff {relations : List Relation} :
    (m.find? (.ofList relations)).isSome = true ↔ m.Has (keyOf relations) := isSome_find?

theorem find?_eq_none : m.find? K = none ↔ ¬ m.Has K.identities := by
  rw [← isSome_find?, Option.not_isSome_iff_eq_none]

theorem has_of_find? (found : m.find? K = some plan) : m.Has K.identities :=
  isSome_find?.mp (by rw [found]; rfl)

theorem not_has_empty (k : List Atom) : ¬ (∅ : Memo).Has k := by
  intro has
  have none : (∅ : Memo).table.find? k = none := Trie.find?_leaf k
  rw [Has, none] at has
  contradiction

theorem table_bind {configuration : Value} {m' : Memo} (bound : m.bind configuration = .ok m') :
    m'.table = m.table := by
  rcases bind_eq_ok.mp bound with ⟨_, rfl⟩ | ⟨_, _, rfl⟩ <;> rfl

theorem has_withPlan (some : source ≠ []) :
    (m.withPlan source plan).Has k ↔ k = keyOf source ∨ m.Has k := by
  rw [Has, withPlan, put, Trie.find?_alter (IdSet.identities_ofList_ne_nil (members_ne_nil some)),
    identities_members]
  by_cases same : k = keyOf source
  · simp [same, keyOf]
  · have other : ¬ k = (IdSet.ofList source).identities := same
    simp [same, other, Has]

/-- The entry that the plan of a set gets, whose members came in this order. -/
def entryOf (source : List Relation) (plan : Plan) : Entry :=
  ⟨.ofList (SlotTable.ofList source).members, (SlotTable.ofList source).members, plan⟩

theorem key_entryOf (source : List Relation) (plan : Plan) :
    (entryOf source plan).key = keyOf source := identities_members source

theorem values_withPlan (some : source ≠ []) (new : ¬ m.Has (keyOf source)) :
    (m.withPlan source plan).table.values.Perm (entryOf source plan :: m.table.values) := by
  have none : m.table.find? (IdSet.ofList (SlotTable.ofList source).members).identities = none := by
    rw [identities_members]
    simpa [Has, keyOf] using new
  exact Trie.values_alter (IdSet.identities_ofList_ne_nil (members_ne_nil some)) none

end Memo

end JoinOrder
