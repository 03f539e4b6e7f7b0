import JoinOrder.Proofs.Entries
/-!
Collections of relations as keys of a table. Whatever kind they are of, in whatever order they list
their members and however often, a table meets the same set of identities in them, also where it
gathers them into a set of its own first.
-/

namespace JoinOrder

namespace SlotTable

variable {α : Type} [Hashed α] {table : SlotTable α} {x y : α} {xs : List α}

theorem mem_insert_iff : x ∈ (table.insert y).members ↔
    x ∈ table.members ∨ table.contains y = false ∧ x = y := by
  cases known : table.contains y with
  | true => simp [insert, known]
  | false => simp [(perm_insert known).mem_iff, or_comm]

theorem members_subset_insertAll : table.members ⊆ (table.insertAll xs).members := by
  induction xs generalizing table with
  | nil => simp [insertAll]
  | cons x xs ih =>
    intro y member
    exact ih (mem_insert_iff.mpr (.inl member))

theorem mem_of_mem_insertAll (member : x ∈ (table.insertAll xs).members) :
    x ∈ table.members ∨ x ∈ xs := by
  induction xs generalizing table with
  | nil => exact .inl member
  | cons y xs ih =>
    rcases ih member with inserted | behind
    · rcases mem_insert_iff.mp inserted with before | ⟨_, same⟩
      · exact .inl before
      · exact .inr (by simp [same])
    · exact .inr (List.mem_cons_of_mem y behind)

/-- Nothing is left out that the table does not have already. -/
theorem exists_mem_insertAll (member : x ∈ xs) :
    ∃ y ∈ (table.insertAll xs).members, y = x ∨ Hashed.same x y = true := by
  induction xs generalizing table with
  | nil => exact nomatch member
  | cons z xs ih =>
    cases member with
    | tail _ member => exact ih member
    | head =>
      rw [insertAll]
      cases known : table.contains x with
      | false =>
        have inserted : x ∈ (table.insert x).members := mem_insert_iff.mpr (.inr ⟨known, rfl⟩)
        exact ⟨x, members_subset_insertAll inserted, .inl rfl⟩
      | true =>
        obtain ⟨y, inside, same⟩ := List.any_eq_true.mp known
        exact ⟨y, members_subset_insertAll (mem_insert_iff.mpr (.inl inside)), .inr same⟩

end SlotTable

/-- The relations are listed from among others and stand for all their identities. -/
structure Covering (listed relations : List Relation) : Prop where
  subset : listed ⊆ relations
  identities : ∀ a, a ∈ listed.map identity ↔ a ∈ relations.map identity

namespace Covering

variable {items : List Item} {listed relations : List Relation}

theorem refl (relations : List Relation) : Covering relations relations :=
  ⟨List.Subset.refl _, fun _ => Iff.rfl⟩

theorem keyOf (covering : Covering listed relations) :
    JoinOrder.keyOf listed = JoinOrder.keyOf relations :=
  IdSet.identities_ofList_congr covering.identities

/-- Items that are taken from relations and miss no identity of them are a covering. -/
theorem of_items (taken : ∀ item ∈ items, item ∈ relations.map Item.relation)
    (all : ∀ r ∈ relations, ∃ s, Item.relation s ∈ items ∧ identity r = identity s) :
    ∃ listed, items = listed.map .relation ∧ Covering listed relations := by
  have lifted : ∃ listed : List Relation, items = listed.map .relation ∧ listed ⊆ relations := by
    clear all
    induction items with
    | nil => exact ⟨[], rfl, List.nil_subset _⟩
    | cons item items ih =>
      obtain ⟨listed, rfl, inside⟩ := ih fun item member =>
        taken item (List.mem_cons_of_mem _ member)
      obtain ⟨r, member, rfl⟩ := List.mem_map.mp (taken item List.mem_cons_self)
      exact ⟨r :: listed, rfl, List.cons_subset.mpr ⟨member, inside⟩⟩
  obtain ⟨listed, rfl, inside⟩ := lifted
  refine ⟨listed, rfl, inside, fun a => ⟨fun member => List.map_subset _ inside member, ?_⟩⟩
  intro member
  obtain ⟨r, known, rfl⟩ := List.mem_map.mp member
  obtain ⟨s, here, same⟩ := all r known
  obtain ⟨t, inListed, is⟩ := List.mem_map.mp here
  cases is
  rw [same]
  exact List.mem_map_of_mem inListed

end Covering

/-- A collection of relations of any kind: a list, a set or a stream, with repetitions or without. -/
structure Collected where
  item : Item
  relations : List Relation
  elements : item.elements? = some (relations.map .relation)

namespace Collected

variable {X : Collected} {m : Memo}

/-- The set of identities that a collection stands for. -/
def ids (X : Collected) : Finset Atom := (X.relations.map identity).toFinset

theorem allSettled_relations (relations : List Relation) :
    Item.allSettled (relations.map .relation) = true := by
  induction relations with
  | nil => rfl
  | cons r relations ih => simpa [Item.allSettled, Item.settled] using ih

/-- The tables of a set list relations that cover those that were put in. -/
theorem covering_ofList (relations : List Relation) :
    ∃ listed, (SlotTable.ofList (relations.map Item.relation)).members = listed.map .relation ∧
      Covering listed relations := by
  apply Covering.of_items
  · intro item member
    rcases SlotTable.mem_of_mem_insertAll member with before | inside
    · exact nomatch before
    · exact inside
  · intro r member
    obtain ⟨item, inside, same⟩ : ∃ item ∈ (SlotTable.ofList (relations.map Item.relation)).members,
        item = .relation r ∨ Hashed.same (Item.relation r) item = true :=
      SlotTable.exists_mem_insertAll (List.mem_map_of_mem member)
    rcases same with rfl | same
    · exact ⟨r, inside, rfl⟩
    · cases item with
      | relation s => exact ⟨s, inside, by simpa [Hashed.same, Item.same] using same⟩
      | _ => simp [Hashed.same, Item.same] at same

theorem covering_copyListing (slots : Nat) (relations : List Relation) :
    ∃ listed, (SlotTable.copyListing slots (relations.map Item.relation)).2 =
      listed.map .relation ∧ Covering listed relations := by
  have perm : (SlotTable.copyListing slots (relations.map Item.relation)).2.Perm
      (relations.map Item.relation) := by
    unfold SlotTable.copyListing
    dsimp only
    split
    · exact .refl _
    · simpa [SlotTable.empty, SlotTable.members] using
        SlotTable.perm_placeAll (relations.map Item.relation) (.empty _)
  apply Covering.of_items
  · exact fun item member => perm.subset member
  · intro r member
    exact ⟨r, perm.symm.subset (List.mem_map_of_mem member), rfl⟩

theorem elements_eq (X : Collected) : X.item.elements = .ok (X.relations.map .relation) := by
  rw [Item.elements, X.elements]
  rfl

theorem tabled_eq (X : Collected) :
    ∃ slots listed, X.item.tabled = .ok (slots, listed.map .relation) ∧
      Covering listed X.relations := by
  obtain ⟨listed, laidOut, covering⟩ := covering_ofList X.relations
  simp only [Item.tabled, X.elements_eq, bind, Except.bind, allSettled_relations, Bool.not_true,
    Bool.false_eq_true, if_false]
  split
  · split
    case h_1 slots _ =>
      obtain ⟨listed, copied, covering⟩ := covering_copyListing slots X.relations
      exact ⟨_, listed, congrArg (fun items => Except.ok (_, items)) copied, covering⟩
    case h_2 => exact ⟨_, listed, congrArg (fun items => Except.ok (_, items)) laidOut, covering⟩
  · exact ⟨_, listed, congrArg (fun items => Except.ok (_, items)) laidOut, covering⟩

/-- Gathered into a set that cannot change, a collection is a covering of itself. -/
theorem gather_eq (X : Collected) : ∃ key listed,
    X.item.gather (.frozen SlotTable.leastSize) = .ok key ∧
      key.members.mapM Item.relation? = some listed ∧ Covering listed X.relations := by
  have members (slots : Nat) (listed : List Relation) :
      (Item.group (.frozen slots) (listed.map .relation)).members.mapM Item.relation? =
        some listed := Item.mapM_relation? listed
  by_cases frozen : ∃ slots items, X.item = .group (.frozen slots) items
  · obtain ⟨slots, items, is⟩ := frozen
    have elements := X.elements
    rw [is] at elements ⊢
    cases elements
    exact ⟨_, X.relations, rfl, members slots X.relations, .refl X.relations⟩
  · obtain ⟨slots, listed, tabled, covering⟩ := X.tabled_eq
    refine ⟨.group (.frozen slots) (listed.map .relation), listed, ?_, members slots listed, covering⟩
    unfold Item.gather
    dsimp only
    split
    case h_1 slots items is => exact absurd ⟨slots, items, is⟩ frozen
    · rw [tabled]
      rfl

/-- A store meets some listing of the set, and is decided by the set alone. -/
theorem storeItem_eq (X : Collected) : ∃ listed, Covering listed X.relations ∧
    ∀ (m : Memo) (plan : Plan), m.storeItem X.item (.plan plan) = m.store listed plan := by
  obtain ⟨key, listed, gathered, members, covering⟩ := X.gather_eq
  refine ⟨listed, covering, fun m plan => ?_⟩
  rw [Memo.storeItem, gathered]
  simp only [bind, Except.bind, members]

theorem lookup_eq : m.lookup X.item = .ok (m.find? (.ofList X.relations)) := by
  simp only [Memo.lookup, Memo.keyMembers, X.elements_eq, bind, Except.bind,
    allSettled_relations, if_true, pure, Except.pure, Item.mapM_relation?]

theorem find?_nil (m : Memo) : m.find? (.ofList []) = none := by
  have key : (IdSet.ofList ([] : List Relation)).identities = [] := rfl
  rw [Memo.find?, key]
  cases m.table <;> rfl

/-- A text has no relations in it, so it does not matter that it counts as no collection. -/
theorem eq_text_of_single (single : X.item.isCollection = false) :
    (∃ s, X.item = .text s) ∧ X.relations = [] := by
  have elements := X.elements
  rw [Item.isCollection, elements, Option.isSome_some, Bool.and_true] at single
  cases item : X.item with
  | scalar s =>
    cases s with
    | text s =>
      rw [item] at elements
      refine ⟨⟨s, rfl⟩, ?_⟩
      cases relations : X.relations with
      | nil => rfl
      | cons r rest =>
        rw [relations] at elements
        have first := congrArg List.head? (Option.some.inj elements)
        simp [Item.text] at first
    | _ => rw [item] at single; exact nomatch single
  | _ => rw [item] at single; exact nomatch single

theorem contains_eq : m.contains X.item = .ok (m.find? (.ofList X.relations)).isSome := by
  rw [Memo.contains, lookup_eq]
  cases collection : X.item.isCollection with
  | true => rfl
  | false =>
    rw [(eq_text_of_single collection).2, find?_nil]
    rfl

theorem get_eq : m.get X.item =
    match m.find? (.ofList X.relations) with
    | some plan => .ok plan
    | none => .error (.notStored X.item.literal.toOption) := by
  rw [Memo.get, lookup_eq]
  cases m.find? (.ofList X.relations) <;> rfl

end Collected

end JoinOrder
