import JoinOrder.Proofs.CanonicalListing
import JoinOrder.Proofs.RelationExport
/-!
Sets in JSON. Their members come in the order of their texts, and those with one text in the order in
which the set happens to list them. So the export of a set is the same for every order of listing exactly
if all its members have different texts; and then the export of whatever the set is a part of is as well.
-/

namespace JoinOrder

/-- Relations with the same attributes may list them in another order, provided that no two of them look
alike. -/
inductive Relation.Relisted (r : Relation) : Relation → Prop where
  | refl : Relisted r r
  | attributes {listed : List Scalar} (same : r.listed.Perm listed)
    (different : (r.listed.map Scalar.shown).Nodup) : Relisted r { r with listed }

theorem Relation.Relisted.exported_eq {r s : Relation} (relisted : r.Relisted s) :
    r.exported = s.exported := by
  cases relisted with
  | refl => rfl
  | attributes same different =>
    refine congrArg (fun attributes => Value.object [("id", .scalar r.id), ("name", r.name),
      ("tuples", r.tuples), ("attributes", .array attributes)]) (byText_congr ?_ (same.map _))
    rwa [List.map_map]

/-- Plans of one shape for relations that may list their attributes in another order. -/
inductive Plan.Relisted : Plan → Plan → Prop where
  | scan {r s : Relation} (tuples : Value) (same : r.Relisted s) :
    Relisted (.scan r tuples) (.scan s tuples)
  | join {left right left' right' : Plan} (tuples : Value) (first : Relisted left left')
    (second : Relisted right right') : Relisted (.join left right tuples) (.join left' right' tuples)

theorem Plan.Relisted.exported_eq {p q : Plan} (relisted : p.Relisted q) : p.exported = q.exported := by
  induction relisted with
  | scan tuples same => rw [exported, exported, same.exported_eq]
  | join tuples _ _ left right => rw [exported, exported, left, right]

namespace Item

end Item

/-- A scalar or a relation as a member of a set. -/
inductive Member where
  | scalar (s : Scalar)
  | relation (r : Relation)

namespace Member

def item : Member → Item
  | scalar s => .scalar s
  | relation r => .relation r

def exported : Member → Value
  | scalar s => .scalar s
  | relation r => r.exported

/-- The text that a set is ordered by, if there is one. -/
def title (x : Member) : String := x.item.shown.toOption.getD ""

def IsShown (x : Member) : Prop := ∃ text, x.item.shown = .ok text

variable {x y : Member} {xs ys : List Member} {kind kind' : Gathering} {machine : Machine}

/-- The members in the order of their texts, as they are exported. -/
def arranged (xs : List Member) : List Value := byText (xs.map fun x => (x.title, x.exported))

theorem arranged_perm (xs : List Member) : (arranged xs).Perm (xs.map exported) := by
  have perm := byText_perm (xs.map fun x => (x.title, x.exported))
  rwa [List.map_map] at perm

inductive Relisted : Member → Member → Prop where
  | scalar (s : Scalar) : Relisted (.scalar s) (.scalar s)
  | relation {r s : Relation} (same : r.Relisted s) : Relisted (.relation r) (.relation s)

theorem Relisted.refl (x : Member) : x.Relisted x := by
  cases x with
  | scalar s => exact .scalar s
  | relation r => exact .relation .refl

theorem Relisted.exported_eq (relisted : x.Relisted y) : x.exported = y.exported := by
  cases relisted with
  | scalar s => rfl
  | relation same => exact same.exported_eq

end Member

namespace Item

/-- Items that differ in nothing but the order in which sets list their members, wherever these are. No
two members of such a set look alike. -/
inductive Relisted : Item → Item → Prop where
  | refl (x : Item) : Relisted x x
  | trans {x y z : Item} (first : Relisted x y) (second : Relisted y z) : Relisted x z
  | relation {r s : Relation} (same : r.Relisted s) : Relisted (.relation r) (.relation s)
  | plan {p q : Plan} (same : p.Relisted q) : Relisted (.plan p) (.plan q)
  | set {kind kind' : Gathering} {xs ys zs : List Member} (set : kind.slots?.isSome = true)
    (set' : kind'.slots?.isSome = true) (shown : ∀ x ∈ xs, x.IsShown)
    (different : (xs.map Member.title).Nodup) (same : xs.Perm ys)
    (each : List.Forall₂ Member.Relisted ys zs) :
    Relisted (.group kind (xs.map Member.item)) (.group kind' (zs.map Member.item))
  | member {kind : Gathering} (inOrder : kind.slots? = none) (before after : List Item) {x y : Item}
    (same : Relisted x y) : Relisted (.group kind (before ++ x :: after)) (.group kind (before ++ y :: after))
  | entry (before after : List (String × Item)) (name : String) {x y : Item} (same : Relisted x y) :
    Relisted (.object (before ++ (name, x) :: after)) (.object (before ++ (name, y) :: after))
  | proxy {x y : Item} (same : Relisted x y) : Relisted (.proxy x) (.proxy y)

variable {x y : Item} {machine : Machine}

/-- What holds of single members holds of all of them together. -/
theorem Relisted.members {kind : Gathering} (inOrder : kind.slots? = none) {xs ys : List Item}
    (each : List.Forall₂ Relisted xs ys) : Relisted (.group kind xs) (.group kind ys) := by
  have behind (before : List Item) : Relisted (.group kind (before ++ xs)) (.group kind (before ++ ys)) := by
    induction each generalizing before with
    | nil => exact .refl _
    | @cons x y xs ys first _ ih =>
      have others := ih (before ++ [y])
      rw [List.append_assoc, List.append_assoc] at others
      exact (Relisted.member inOrder before xs first).trans others
  exact behind []

end Item

namespace Memo

/-- One entry for the other: the same relations with the same plan, whatever the order in which the sets
list them. No two of the relations look alike. -/
structure Entry.Relisted (e f : Entry) : Prop where
  relations : e.relations = f.relations
  plan : e.plan.Relisted f.plan
  listed : e.listed.Perm f.listed
  shown : ∀ r ∈ e.listed, (Member.relation r).IsShown
  different : (e.listed.map fun r => (Member.relation r).title).Nodup

theorem Entry.Relisted.toItem {e f : Entry} (relisted : e.Relisted f) : e.toItem.Relisted f.toItem := by
  have members (rs : List Relation) : rs.map Item.relation = (rs.map Member.relation).map Member.item := by
    rw [List.map_map]
    rfl
  have sets : (Item.frozen (e.listed.map .relation)).Relisted (.frozen (f.listed.map .relation)) := by
    rw [Item.frozen, Item.frozen, members, members]
    refine .set rfl rfl ?_ ?_ (relisted.listed.map _) ?_
    · exact List.forall_mem_map.mpr relisted.shown
    · rw [List.map_map]
      exact relisted.different
    · exact List.forall₂_same.mpr fun x _ => .refl x
  exact (Item.Relisted.entry [] [("plan", .plan e.plan)] "relations" sets).trans
    (.entry [("relations", .frozen (f.listed.map .relation))] [] "plan" (.plan relisted.plan))

variable {m m' : Memo}

/-- The same entries, whatever the order in which the sets list their relations. -/
structure SameEntries (m m' : Memo) : Prop where
  forth : ∀ e ∈ m.table.values, ∃ f ∈ m'.table.values, e.Relisted f
  back : ∀ f ∈ m'.table.values, ∃ e ∈ m.table.values, e.Relisted f

theorem SameEntries.keys (same : m.SameEntries m') (K : RelationSet) : K ∈ m.keys ↔ K ∈ m'.keys := by
  constructor
  · intro key
    obtain ⟨e, member, rfl⟩ := List.mem_map.mp key
    obtain ⟨f, known, relisted⟩ := same.forth e member
    exact relisted.relations ▸ mem_keys known
  · intro key
    obtain ⟨f, member, rfl⟩ := List.mem_map.mp key
    obtain ⟨e, known, relisted⟩ := same.back f member
    exact relisted.relations ▸ mem_keys known

theorem Filed.eq_of_relations (filed : m.Filed) {e f : Entry} (known : e ∈ m.table.values)
    (known' : f ∈ m.table.values) (same : e.relations = f.relations) : e = f :=
  List.inj_on_of_nodup_map filed.nodup known known' (congrArg IdSet.identities same)

theorem forall₂_of_map_eq {α β : Type} {g : α → β} {R : α → α → Prop} {xs ys : List α}
    (same : xs.map g = ys.map g) (related : ∀ x ∈ xs, ∀ y ∈ ys, g x = g y → R x y) :
    List.Forall₂ R xs ys := by
  induction xs generalizing ys with
  | nil =>
    cases ys with
    | nil => exact .nil
    | cons y ys => cases same
  | cons x xs ih =>
    cases ys with
    | nil => cases same
    | cons y ys =>
      obtain ⟨first, rest⟩ := List.cons.inj same
      refine .cons (related x List.mem_cons_self y List.mem_cons_self first) (ih rest ?_)
      intro x' hx y' hy
      exact related x' (List.mem_cons_of_mem x hx) y' (List.mem_cons_of_mem y hy)

/-- Tables with the same entries list them alike. -/
theorem SameEntries.entries (same : m.SameEntries m') (filed : m.Filed) (filed' : m'.Filed)
    (proper : m.Proper) : ∃ sorted sorted', m.entries = .ok sorted ∧ m'.entries = .ok sorted' ∧
      List.Forall₂ Entry.Relisted sorted sorted' := by
  have proper' : m'.Proper := fun K key => proper K ((same.keys K).mpr key)
  obtain ⟨sorted, ok⟩ := proper.entries_isOk
  obtain ⟨sorted', ok'⟩ := proper'.entries_isOk
  have sets : sorted.map (·.relations) = sorted'.map (·.relations) :=
    map_entries_eq (fun e => (rfl : id e.relations = e.relations)) filed filed' proper proper' ok ok'
      same.keys
  refine ⟨sorted, sorted', ok, ok', forall₂_of_map_eq sets fun e he f hf equal => ?_⟩
  obtain ⟨f', known, relisted⟩ := same.forth e ((perm_entries ok).subset he)
  -- A table has one entry for a set of relations, so the one that goes with `e` is `f`.
  rw [filed'.eq_of_relations ((perm_entries ok').subset hf) known (equal.symm.trans relisted.relations)]
  exact relisted

/-- Tables with the same configuration and the same entries are exported alike. -/
theorem SameEntries.toItem (same : m.SameEntries m') (filed : m.Filed) (filed' : m'.Filed)
    (proper : m.Proper) (bound : m.configuration = m'.configuration) :
    ∃ x y, m.toItem = .ok x ∧ m'.toItem = .ok y ∧ x.Relisted y := by
  obtain ⟨sorted, sorted', ok, ok', each⟩ := same.entries filed filed' proper
  have items : List.Forall₂ Item.Relisted (sorted.map Entry.toItem) (sorted'.map Entry.toItem) := by
    rw [List.forall₂_map_left_iff, List.forall₂_map_right_iff]
    exact each.imp fun e f relisted => relisted.toItem
  refine ⟨.object [("configuration", .ofValue m.configuration),
    ("entries", .group .list (sorted.map Entry.toItem))], .object [("configuration",
    .ofValue m'.configuration), ("entries", .group .list (sorted'.map Entry.toItem))], ?_, ?_, ?_⟩
  · rw [Memo.toItem, ok]
    rfl
  · rw [Memo.toItem, ok']
    rfl
  · rw [bound]
    exact .entry [("configuration", .ofValue m'.configuration)] [] "entries" (.members rfl items)

end Memo

namespace Member

variable {xs : List Member} {kind : Gathering}

section Examples

open Making (bare)

/-- Two relations that nothing but their identities tells apart. -/
def namesakes (m n : Int) : List Member := [.relation (bare m "A"), .relation (bare n "A")]

end Examples
end Member

end JoinOrder
