import JoinOrder.Proofs.Collected
import JoinOrder.Proofs.JoinedOnce
import JoinOrder.Proofs.Warnings
/-!
A table that is used by hand is a map from sets of identities to plans. The plan of a set is that of
the latest store for it since the table was emptied, and everything that reads the table agrees on
that: looking a set up, asking whether it is there, counting and listing.

The entries of a table and the look-ups in it are two sides of one thing (`Filed`). A single store
keeps them in step, and so does any sequence of uses.
-/

namespace JoinOrder

/-- The set of identities that a plan joins. -/
def Plan.ids (p : Plan) : Finset Atom := p.relations.identities.toFinset

namespace IdSet

theorem toFinset_identities_inj {K L : RelationSet} :
    K.identities.toFinset = L.identities.toFinset ↔ K.identities = L.identities := by
  constructor
  · intro same
    apply identities_eq
    intro a
    rw [← List.mem_toFinset, same, List.mem_toFinset]
  · intro same
    rw [same]

theorem toFinset_identities_ofList {relations : List Relation} :
    (ofList relations).identities.toFinset = (relations.map identity).toFinset := by
  ext a
  rw [List.mem_toFinset, List.mem_toFinset, mem_identities_ofList]

end IdSet

theorem Collected.ids_eq {X : Collected} {K : RelationSet} :
    K.identities.toFinset = X.ids ↔ K.identities = keyOf X.relations := by
  rw [ids, ← IdSet.toFinset_identities_ofList, IdSet.toFinset_identities_inj, keyOf]

namespace Memo

def Entry.ids (e : Entry) : Finset Atom := e.relations.identities.toFinset

variable {m : Memo} {listed : List Relation} {plan : Plan} {e : Entry} {rest : List Entry}

/-- No two entries have one key, and a look-up finds exactly the entry of its key. -/
structure Filed (m : Memo) : Prop where
  found : ∀ k e, m.table.find? k = some e ↔ e ∈ m.table.values ∧ e.key = k
  nodup : (m.table.values.map Entry.key).Nodup

theorem filed_empty : (∅ : Memo).Filed where
  found k e := by
    have none : (∅ : Memo).table.find? k = none := Trie.find?_leaf k
    have nothing : (∅ : Memo).table.values = [] := rfl
    simp [none, nothing]
  nodup := List.nodup_nil

/-- What a plan becomes that is put into a table: a single entry, beside those under other keys. -/
structure Placed (m : Memo) (listed : List Relation) (plan : Plan) (e : Entry)
    (rest : List Entry) : Prop where
  key : e.key = keyOf listed
  keeps : e.plan = plan
  relations : e.relations = .ofList listed ∨ ∃ old ∈ m.table.values, e.relations = old.relations
  values : (m.put listed plan).table.values.Perm (e :: rest)
  others : ∀ f, f ∈ rest ↔ f ∈ m.table.values ∧ f.key ≠ keyOf listed
  nodup : (rest.map Entry.key).Nodup
  found : ∀ k, (m.put listed plan).table.find? k =
    if k = keyOf listed then some e else m.table.find? k

theorem Filed.exists_placed (filed : m.Filed) (nonempty : listed ≠ []) :
    ∃ e rest, Placed m listed plan e rest := by
  have key : (IdSet.ofList listed).identities ≠ [] := IdSet.identities_ofList_ne_nil nonempty
  cases known : m.table.find? (keyOf listed) with
  | none =>
    have absent : ∀ f ∈ m.table.values, f.key ≠ keyOf listed := by
      intro f member same
      rw [(filed.found _ f).mpr ⟨member, same⟩] at known
      contradiction
    refine ⟨⟨.ofList listed, listed, plan⟩, m.table.values, rfl, rfl, .inl rfl,
      Trie.values_alter key known, fun f => ?_, filed.nodup, fun k => ?_⟩
    · exact ⟨fun member => ⟨member, absent f member⟩, fun h => h.1⟩
    · rw [put, Trie.find?_alter key, ← keyOf, known]
  | some old =>
    obtain ⟨member, is⟩ := (filed.found _ old).mp known
    obtain ⟨rest, before, after⟩ : ∃ rest, m.table.values.Perm (old :: rest) ∧
        (m.put listed plan).table.values.Perm ({ old with plan } :: rest) :=
      Trie.values_alter_old known
    have keys := (before.map Entry.key).nodup_iff.mp filed.nodup
    obtain ⟨apart, nodup⟩ := List.nodup_cons.mp keys
    refine ⟨{ old with plan }, rest, is, rfl, .inr ⟨old, member, rfl⟩, after, fun f => ?_, nodup,
      fun k => ?_⟩
    · rw [before.mem_iff, List.mem_cons, ← is]
      constructor
      · intro inside
        exact ⟨.inr inside, fun same => apart (same ▸ List.mem_map_of_mem inside)⟩
      · rintro ⟨rfl | inside, other⟩
        · exact absurd rfl other
        · exact inside
    · rw [put, Trie.find?_alter key, ← keyOf, known]

namespace Placed

theorem mem_values (placed : Placed m listed plan e rest) {f : Entry} :
    f ∈ (m.put listed plan).table.values ↔
      f = e ∨ f ∈ m.table.values ∧ f.key ≠ keyOf listed := by
  rw [placed.values.mem_iff, List.mem_cons, placed.others]

theorem filed (placed : Placed m listed plan e rest) (filed : m.Filed) :
    (m.put listed plan).Filed where
  found k f := by
    rw [placed.found, placed.mem_values]
    by_cases same : k = keyOf listed
    · rw [if_pos same, same]
      constructor
      · rintro ⟨⟩
        exact ⟨.inl rfl, placed.key⟩
      · rintro ⟨rfl | other, is⟩
        · rfl
        · exact absurd is other.2
    · rw [if_neg same, filed.found]
      constructor
      · rintro ⟨member, rfl⟩
        exact ⟨.inr ⟨member, same⟩, rfl⟩
      · rintro ⟨rfl | other, is⟩
        · exact absurd (is.symm.trans placed.key) same
        · exact ⟨other.1, is⟩
  nodup := by
    rw [(placed.values.map Entry.key).nodup_iff, List.map_cons, List.nodup_cons]
    refine ⟨fun member => ?_, placed.nodup⟩
    obtain ⟨f, inside, same⟩ := List.mem_map.mp member
    exact ((placed.others f).mp inside).2 (same.trans placed.key)

end Placed

/-! ### Listing -/

/-- The relations of all entries can be compared with one another, by name and then by identity. -/
def Sortable (m : Memo) : Prop :=
  ∀ e ∈ m.table.values, ∀ f ∈ m.table.values, ∀ r ∈ e.relations.toList, ∀ s ∈ f.relations.toList,
    r.sortKey.comparable s.sortKey = true

/-- The key to sort a set by, whose relations are listed in their order. -/
def keyOfSorted (sorted : List Relation) : SortKey :=
  .tuple [.atom (.ofInt sorted.length), .tuple (sorted.map Relation.sortKey)]

theorem sortKey_eq {K : RelationSet} {sorted : List Relation}
    (ok : Relation.sort K.toList = .ok sorted) : sortKey K = .ok (keyOfSorted sorted) := by
  have size : K.size = sorted.length := (Relation.perm_of_sort ok).length_eq.symm
  rw [sortKey, ok, size]
  rfl

/-- Every value still stands behind the key that was worked out for it. -/
theorem map_snd_of_mapM {α β : Type} {key : α → Except Error β} {xs : List α} {keyed : List (β × α)}
    (ok : (xs.mapM fun x => do return (← key x, x)) = .ok keyed) : keyed.map (·.2) = xs := by
  induction xs generalizing keyed with
  | nil => cases ok; rfl
  | cons x xs ih =>
    rw [List.mapM_cons] at ok
    obtain ⟨pair, first, ok⟩ := ok_of_bind ok
    obtain ⟨rest, others, ok⟩ := ok_of_bind ok
    obtain ⟨k, _, is⟩ := ok_of_bind first
    cases is
    cases ok
    rw [List.map_cons, ih others]

theorem perm_entries {sorted : List Entry} (ok : m.entries = .ok sorted) :
    sorted.Perm m.table.values := by
  obtain ⟨keyed, keys, ok⟩ := ok_of_bind ok
  obtain ⟨arranged, found, ok⟩ := ok_of_bind ok
  cases ok
  cases sort : SortKey.sortBy? (·.1) keyed with
  | none => rw [sort] at found; exact nomatch found
  | some list =>
    rw [sort] at found
    cases found
    rw [(SortKey.eq_arranged_of_sortBy? sort).1]
    have perm := (SortKey.arranged_perm (·.1) keyed).map (·.2)
    rwa [map_snd_of_mapM keys] at perm

theorem perm_subsets {sets : List RelationSet} (ok : m.subsets = .ok sets) :
    sets.Perm (m.table.values.map (·.relations)) := by
  obtain ⟨sorted, listed, ok⟩ := ok_of_bind ok
  cases ok
  exact (perm_entries listed).map _

theorem comparable_keyOfSorted {xs ys : List Relation}
    (all : ∀ r ∈ xs, ∀ s ∈ ys, r.sortKey.comparable s.sortKey = true) :
    (keyOfSorted xs).comparable (keyOfSorted ys) = true := by
  have lists : SortKey.comparableItems (xs.map Relation.sortKey) (ys.map Relation.sortKey) = true := by
    induction xs generalizing ys with
    | nil => rfl
    | cons x xs ih =>
      cases ys with
      | nil => rfl
      | cons y ys =>
        rw [List.map_cons, List.map_cons, SortKey.comparableItems]
        split
        · exact ih fun r hr s hs =>
            all r (List.mem_cons_of_mem x hr) s (List.mem_cons_of_mem y hs)
        · exact all x List.mem_cons_self y List.mem_cons_self
  simp only [keyOfSorted, SortKey.comparable, SortKey.comparableItems, lists, Atom.ofInt,
    Atom.comparable]
  split <;> simp

theorem Sortable.subsets_isOk (sortable : m.Sortable) : ∃ sets, m.subsets = .ok sets := by
  have key : ∀ e ∈ m.table.values, ∃ sorted, sorted.Perm e.relations.toList ∧
      sortKey e.relations = .ok (keyOfSorted sorted) := by
    intro e member
    have found := SortKey.sortBy?_of_comparable (sortable e member e member)
    exact ⟨_, SortKey.arranged_perm Relation.sortKey _, sortKey_eq (Relation.sort_eq_ok.mpr found)⟩
  let keyOf (e : Entry) : Except Error (SortKey × Entry) := do return (← sortKey e.relations, e)
  obtain ⟨keyed, keys, origin⟩ := @mapM_ok _ _ keyOf m.table.values fun e member => by
    obtain ⟨sorted, _, is⟩ := key e member
    exact ⟨_, by simp only [keyOf, is]; rfl⟩
  have comparable : ∀ a ∈ keyed, ∀ b ∈ keyed, a.1.comparable b.1 = true := by
    intro a ha b hb
    obtain ⟨e, he, is⟩ := origin a ha
    obtain ⟨f, hf, is'⟩ := origin b hb
    obtain ⟨xs, xsPerm, first⟩ := key e he
    obtain ⟨ys, ysPerm, second⟩ := key f hf
    simp only [keyOf, first] at is
    simp only [keyOf, second] at is'
    cases is
    cases is'
    exact comparable_keyOfSorted fun r hr s hs =>
      sortable e he f hf r (xsPerm.subset hr) s (ysPerm.subset hs)
  have sorted : SortKey.sortBy? Prod.fst keyed = some (SortKey.arranged Prod.fst keyed) :=
    SortKey.sortBy?_of_comparable comparable
  have listed : m.entries = .ok ((SortKey.arranged Prod.fst keyed).map Prod.snd) := by
    change ((m.table.values.mapM keyOf).bind fun keyed =>
      (fitting (SortKey.sortBy? Prod.fst keyed)).bind fun sorted => .ok (sorted.map Prod.snd)) = _
    rw [keys]
    change (fitting (SortKey.sortBy? Prod.fst keyed)).bind _ = _
    rw [sorted]
    rfl
  rw [subsets, listed]
  exact ⟨_, rfl⟩

/-- Two entries whose relations cannot be compared cannot be listed. -/
theorem subsets_ne_ok {xs ys first second : List Relation}
    (values : m.table.values.map (·.relations.toList) = [xs, ys])
    (sortX : Relation.sort xs = .ok first) (sortY : Relation.sort ys = .ok second)
    (forth : (keyOfSorted first).comparable (keyOfSorted second) = false)
    (back : (keyOfSorted second).comparable (keyOfSorted first) = false) (sets : List RelationSet) :
    m.subsets ≠ .ok sets := by
  intro ok
  obtain ⟨e, rest, both, rfl, others⟩ := List.map_eq_cons_iff.mp values
  obtain ⟨f, rest, rfl, rfl, none⟩ := List.map_eq_cons_iff.mp others
  obtain rfl := List.map_eq_nil_iff.mp none
  obtain ⟨_, listed, _⟩ := ok_of_bind ok
  obtain ⟨keyed, keys, listed⟩ := ok_of_bind listed
  obtain ⟨arranged, found, _⟩ := ok_of_bind listed
  simp only [both, List.mapM_cons, List.mapM_nil, sortKey_eq sortX, sortKey_eq sortY] at keys
  cases keys
  cases sort : SortKey.sortBy? (·.1) [(keyOfSorted first, e), (keyOfSorted second, f)] with
  | none => rw [sort] at found; exact nomatch found
  | some sorted =>
    obtain ⟨rfl, linked⟩ := SortKey.eq_arranged_of_sortBy? sort
    rcases List.perm_pair.mp (SortKey.arranged_perm _ _) with is | is
    · rw [is] at linked
      simp [SortKey.linked, forth] at linked
    · rw [is] at linked
      simp [SortKey.linked, back] at linked

end Memo

/-- One use of a table by hand. Reading is none: it gives no table back. -/
inductive Touch where
  | store (X : Collected) (plan : Plan)
  | reset

namespace Touch

/-- The table afterwards; a plan that is not accepted is not stored. -/
def on (m : Memo) : Touch → Memo
  | .store X plan =>
    match m.storeItem X.item (.plan plan) with
    | .ok m' => m'
    | .error _ => m
  | .reset => m.reset

def run (m : Memo) : List Touch → Memo
  | [] => m
  | touch :: touches => run (touch.on m) touches

/-- The latest plan that was stored for a set since the table was emptied, if what is listed are the
uses so far, the latest first. A plan that joins another set was never stored. -/
def latest (ids : Finset Atom) : List Touch → Option Plan
  | [] => none
  | .reset :: _ => none
  | .store X plan :: earlier =>
    if X.ids = ids ∧ plan.ids = ids then some plan else latest ids earlier

/-- A plan was handed over for a collection that has the relation. -/
def Handed (touches : List Touch) (r : Relation) : Prop :=
  ∃ X plan, store X plan ∈ touches ∧ r ∈ X.relations

theorem Handed.cons {touches : List Touch} {r : Relation} (handed : Handed touches r)
    (touch : Touch) : Handed (touch :: touches) r := by
  obtain ⟨X, plan, member, inside⟩ := handed
  exact ⟨X, plan, List.mem_cons_of_mem touch member, inside⟩

theorem storeItem_eq_ok {X : Collected} {plan : Plan} (same : plan.ids = X.ids) :
    ∃ listed, Covering listed X.relations ∧
      ∀ m : Memo, m.storeItem X.item (.plan plan) = .ok (m.put listed plan) := by
  obtain ⟨listed, covering, store⟩ := X.storeItem_eq
  refine ⟨listed, covering, fun m => ?_⟩
  have covers : plan.relations.same (.ofList listed) = true := by
    rw [IdSet.same_iff, Collected.ids_eq.mp same, ← covering.keyOf, keyOf]
  rw [store, Memo.store, if_pos covers]

theorem storeItem_eq_error {X : Collected} {plan : Plan} (other : plan.ids ≠ X.ids) (m : Memo) :
    ∃ e, m.storeItem X.item (.plan plan) = .error e := by
  obtain ⟨listed, covering, store⟩ := X.storeItem_eq
  have misses : ¬ plan.relations.same (.ofList listed) = true := by
    rw [IdSet.same_iff]
    intro same
    exact other (Collected.ids_eq.mpr (same.trans covering.keyOf))
  rw [store, Memo.store, if_neg misses]
  cases plan.shown with
  | error e => exact ⟨e, rfl⟩
  | ok text =>
    cases RelationSet.names listed with
    | error e => exact ⟨e, rfl⟩
    | ok names => exact ⟨_, rfl⟩

theorem on_store_other {X : Collected} {plan : Plan} (other : plan.ids ≠ X.ids) (m : Memo) :
    (store X plan).on m = m := by
  obtain ⟨e, rejected⟩ := storeItem_eq_error other m
  rw [on, rejected]

/-- A table agrees with the uses that led to it, the latest first. -/
structure Mirrors (m : Memo) (touches : List Touch) : Prop where
  filed : m.Filed
  covers : ∀ e ∈ m.table.values, e.plan.relations.identities = e.relations.identities
  entries : ∀ e ∈ m.table.values, latest e.ids touches = some e.plan
  known : ∀ ids p, latest ids touches = some p → ∃ e ∈ m.table.values, e.ids = ids
  origin : ∀ e ∈ m.table.values, ∀ r ∈ e.relations.toList, Handed touches r

variable {m : Memo} {touches : List Touch}

theorem mirrors_empty (none : ∀ ids, latest ids touches = none) : Mirrors ∅ touches where
  filed := Memo.filed_empty
  covers _ member := nomatch member
  entries _ member := nomatch member
  known ids p found := by rw [none ids] at found; contradiction
  origin _ member := nomatch member

/-- An accepted plan takes the place of its set alone. -/
theorem Mirrors.accept {X : Collected} {plan : Plan} (mirrors : Mirrors m touches)
    (same : plan.ids = X.ids) : Mirrors ((store X plan).on m) (store X plan :: touches) := by
  obtain ⟨listed, covering, stored⟩ := storeItem_eq_ok same
  have covers : plan.relations.identities = keyOf listed := by
    rw [Collected.ids_eq.mp same, covering.keyOf]
  have nonempty : listed ≠ [] := by
    rintro rfl
    exact plan.relations_ne_nil covers
  obtain ⟨e, rest, placed⟩ : ∃ e rest, Memo.Placed m listed plan e rest :=
    mirrors.filed.exists_placed nonempty
  have ids : e.ids = X.ids := by
    rw [Memo.Entry.ids, Collected.ids_eq, ← covering.keyOf]
    exact placed.key
  have elsewhere : ∀ f : Memo.Entry, f.key ≠ keyOf listed → X.ids ≠ f.ids := by
    intro f apart same
    exact apart ((Collected.ids_eq.mp same.symm).trans covering.keyOf.symm)
  simp only [Touch.on, stored]
  constructor
  case filed => exact placed.filed mirrors.filed
  case covers =>
    intro f member
    rcases placed.mem_values.mp member with rfl | ⟨before, _⟩
    · rw [placed.keeps, covers]
      exact placed.key.symm
    · exact mirrors.covers f before
  case entries =>
    intro f member
    rcases placed.mem_values.mp member with rfl | ⟨before, apart⟩
    · rw [latest, ids, if_pos ⟨rfl, same⟩, placed.keeps]
    · rw [latest, if_neg fun h => elsewhere f apart h.1]
      exact mirrors.entries f before
  case known =>
    intro ids' p found
    by_cases here : X.ids = ids'
    · exact ⟨e, placed.mem_values.mpr (.inl rfl), ids.trans here⟩
    · rw [latest, if_neg fun h => here h.1] at found
      obtain ⟨f, before, is⟩ := mirrors.known ids' p found
      refine ⟨f, placed.mem_values.mpr (.inr ⟨before, fun key => here ?_⟩), is⟩
      rw [← is, Eq.comm, Memo.Entry.ids, Collected.ids_eq, ← covering.keyOf]
      exact key
  case origin =>
    intro f member r inside
    rcases placed.mem_values.mp member with rfl | ⟨before, _⟩
    · rcases placed.relations with fresh | ⟨old, known, is⟩
      · rw [fresh] at inside
        exact ⟨X, plan, List.mem_cons_self, covering.subset (IdSet.mem_ofList r inside)⟩
      · rw [is] at inside
        exact (mirrors.origin old known r inside).cons _
    · exact (mirrors.origin f before r inside).cons _

/-- A plan of another set changes nothing. -/
theorem Mirrors.reject {X : Collected} {plan : Plan} (mirrors : Mirrors m touches)
    (other : plan.ids ≠ X.ids) : Mirrors ((store X plan).on m) (store X plan :: touches) := by
  rw [on_store_other other]
  have passed : ∀ ids, latest ids (store X plan :: touches) = latest ids touches := by
    intro ids
    rw [latest, if_neg fun h => other (h.2.trans h.1.symm)]
  exact ⟨mirrors.filed, mirrors.covers, fun e member => (passed _).trans (mirrors.entries e member),
    fun ids p found => mirrors.known ids p ((passed ids).symm.trans found),
    fun e member r inside => (mirrors.origin e member r inside).cons _⟩

/-- What one use preserves. -/
theorem Mirrors.on (mirrors : Mirrors m touches) (touch : Touch) :
    Mirrors (touch.on m) (touch :: touches) := by
  cases touch with
  | reset => exact mirrors_empty fun _ => rfl
  | store X plan =>
    by_cases same : plan.ids = X.ids
    · exact mirrors.accept same
    · exact mirrors.reject same

/-- What one use preserves, any sequence of uses preserves. -/
theorem Mirrors.run (mirrors : Mirrors m touches) (more : List Touch) :
    Mirrors (run m more) (more.reverse ++ touches) := by
  induction more generalizing m touches with
  | nil => exact mirrors
  | cons touch more ih =>
    rw [List.reverse_cons, List.append_assoc]
    exact ih (mirrors.on touch)

/-! ### Reading -/

section Reading

variable {X : Collected}

theorem Mirrors.find?_eq (mirrors : Mirrors m touches) :
    m.find? (.ofList X.relations) = latest X.ids touches := by
  have key {e : Memo.Entry} : e.ids = X.ids ↔ e.key = keyOf X.relations := Collected.ids_eq
  rw [Memo.find?, ← keyOf]
  cases found : m.table.find? (keyOf X.relations) with
  | some e =>
    obtain ⟨member, is⟩ := (mirrors.filed.found _ e).mp found
    rw [← key.mpr is, mirrors.entries e member]
    rfl
  | none =>
    cases expected : latest X.ids touches with
    | none => rfl
    | some p =>
      obtain ⟨e, member, is⟩ := mirrors.known X.ids p expected
      rw [(mirrors.filed.found _ e).mpr ⟨member, key.mp is⟩] at found
      contradiction

/-- The sets that a table has are those of its entries, which are as many. -/
theorem Mirrors.size_eq (mirrors : Mirrors m touches) :
    m.size = {ids | (latest ids touches).isSome}.ncard := by
  have distinct : (m.table.values.map Memo.Entry.ids).Nodup := by
    refine List.Nodup.map_on ?_ (List.Nodup.of_map _ mirrors.filed.nodup)
    intro e he f hf same
    exact List.inj_on_of_nodup_map mirrors.filed.nodup he hf (IdSet.toFinset_identities_inj.mp same)
  have sets : {ids | (latest ids touches).isSome} =
      ((m.table.values.map Memo.Entry.ids).toFinset : Set (Finset Atom)) := by
    ext ids
    simp only [Set.mem_ofPred_eq, List.coe_toFinset, List.mem_map]
    constructor
    · intro known
      obtain ⟨p, found⟩ := Option.isSome_iff_exists.mp known
      exact mirrors.known ids p found
    · rintro ⟨e, member, rfl⟩
      rw [mirrors.entries e member]
      rfl
  rw [sets, Set.ncard_coe_finset, List.toFinset_card_of_nodup distinct, List.length_map]
  rfl

theorem Mirrors.listed (mirrors : Mirrors m touches) {sets : List RelationSet}
    (ok : m.subsets = .ok sets) : sets.length = m.size ∧ (sets.map IdSet.identities).Nodup ∧
      ∀ X : Collected, (∃ K ∈ sets, K.identities.toFinset = X.ids) ↔
        (latest X.ids touches).isSome = true := by
  have perm := Memo.perm_subsets ok
  refine ⟨?_, ?_, fun X => ?_⟩
  · exact perm.length_eq.trans (List.length_map _)
  · have keys := perm.map IdSet.identities
    rw [List.map_map] at keys
    exact keys.nodup_iff.mpr mirrors.filed.nodup
  · constructor
    · rintro ⟨K, member, is⟩
      obtain ⟨e, inside, rfl⟩ := List.mem_map.mp (perm.subset member)
      have found := mirrors.entries e inside
      rw [Memo.Entry.ids, is] at found
      rw [found]
      rfl
    · intro known
      obtain ⟨p, found⟩ := Option.isSome_iff_exists.mp known
      obtain ⟨e, inside, is⟩ := mirrors.known X.ids p found
      exact ⟨e.relations, perm.symm.subset (List.mem_map_of_mem inside), is⟩

/-- Integer identities and names that are texts can always be compared. -/
theorem Mirrors.sortable (mirrors : Mirrors m touches)
    (proper : ∀ r, Handed touches r → r.IsNumbered ∧ r.IsNamed) : m.Sortable := by
  intro e he f hf r hr s hs
  obtain ⟨numbered, named⟩ := proper r (mirrors.origin e he r hr)
  obtain ⟨numbered', named'⟩ := proper s (mirrors.origin f hf s hs)
  exact (Relation.comparable_sortKey_iff named named').mpr
    (.inr (Relation.comparable_of_numbered numbered numbered'))

end Reading

/-- A table is a map from sets of identities to plans. After any uses by hand every entry's plan joins
exactly the set of the entry. A store is accepted if its plan joins the set that it is for, and changes
nothing otherwise. Looking a collection up gives the plan of the latest accepted store of its set since
the table was emptied, and asking for it, reading it and counting agree with that.

So does listing the sets, if it lists them: that needs keys of all their relations that can be compared,
which integer identities and text names have. -/
theorem run_isMap (touches : List Touch) :
    (∀ e ∈ (run ∅ touches).table.values,
      e.plan.relations.identities = e.relations.identities) ∧
    (∀ (X : Collected) (plan : Plan),
      ((∃ m, (run ∅ touches).storeItem X.item (.plan plan) = .ok m) ↔ plan.ids = X.ids) ∧
      (plan.ids ≠ X.ids → (store X plan).on (run ∅ touches) = run ∅ touches)) ∧
    (∀ X : Collected,
      (run ∅ touches).lookup X.item = .ok (latest X.ids touches.reverse) ∧
      (run ∅ touches).contains X.item = .ok (latest X.ids touches.reverse).isSome ∧
      (run ∅ touches).get X.item =
        match latest X.ids touches.reverse with
        | some plan => .ok plan
        | none => .error (.notStored X.item.literal.toOption)) ∧
    (run ∅ touches).size = {ids | (latest ids touches.reverse).isSome}.ncard ∧
    (∀ sets, (run ∅ touches).subsets = .ok sets →
      sets.length = (run ∅ touches).size ∧ (sets.map IdSet.identities).Nodup ∧
      ∀ X : Collected, (∃ K ∈ sets, K.identities.toFinset = X.ids) ↔
        (latest X.ids touches.reverse).isSome = true) ∧
    ((run ∅ touches).Sortable → ∃ sets, (run ∅ touches).subsets = .ok sets) ∧
    ((∀ r, Handed touches r → r.IsNumbered ∧ r.IsNamed) → (run ∅ touches).Sortable) := by
  have mirrors : Mirrors (run ∅ touches) touches.reverse := by
    have first : Mirrors ∅ [] := mirrors_empty fun _ => rfl
    simpa using first.run touches
  refine ⟨mirrors.covers, fun X plan => ⟨⟨?_, ?_⟩, fun other => on_store_other other _⟩,
    fun X => ⟨?_, ?_, ?_⟩, mirrors.size_eq, fun sets ok => mirrors.listed ok,
    Memo.Sortable.subsets_isOk, fun proper => mirrors.sortable fun r handed => proper r ?_⟩
  · rintro ⟨m, ok⟩
    by_contra other
    obtain ⟨e, rejected⟩ := storeItem_eq_error other (run ∅ touches)
    rw [rejected] at ok
    contradiction
  · intro same
    obtain ⟨listed, _, stored⟩ := storeItem_eq_ok same
    exact ⟨_, stored _⟩
  · rw [Collected.lookup_eq, mirrors.find?_eq]
  · rw [Collected.contains_eq, mirrors.find?_eq]
  · cases known : latest X.ids touches.reverse with
    | none => rw [Collected.get_eq, mirrors.find?_eq, known]
    | some plan => rw [Collected.get_eq, mirrors.find?_eq, known]
  · obtain ⟨X, plan, member, inside⟩ := handed
    exact ⟨X, plan, List.mem_reverse.mp member, inside⟩

/-- A list of relations as a collection of a kind. -/
def gathered (kind : Gathering) (relations : List Relation) : Collected :=
  ⟨.group kind (relations.map .relation), relations, rfl⟩

def joined (r s : Relation) : Plan := .join (.ofRelation r) (.ofRelation s) (.int 100)

/-- Two relations whose names differ are sorted by them, however they are listed. -/
theorem sort_pair {r s : Relation} (hr : r.IsNamed) (hs : s.IsNamed)
    (below : (Natural.ofValue r.name).order (Natural.ofValue s.name) = .lt)
    (apart : identity r ≠ identity s) :
    Relation.sort [r, s] = .ok [r, s] ∧ Relation.sort [s, r] = .ok [r, s] := by
  have named : ∀ t ∈ [r, s], t.IsNamed := by simp [hr, hs]
  have comparable : [r, s].Pairwise Relation.Comparable := by
    simp only [List.pairwise_pair]
    intro same
    rw [same, SortKey.order_self] at below
    contradiction
  have distinct : Distinct [r, s] := by simp [Distinct, apart]
  have ordered : Relation.Ordered [r, s] := by
    simp [Relation.Ordered, SortKey.Below, Relation.sortKey, SortKey.order, SortKey.orderItems, below]
  have sorted := Relation.sort_of_ordered named comparable distinct ordered
  have orderly : Relation.Orderly [r, s] := .of_pairwise named comparable
  exact ⟨sorted, (orderly.sort_congr distinct (List.Perm.swap s r [])).symm.trans sorted⟩

section Examples

open Problem (plainRelation)

/-- A plan for two relations, one that does not fit, and the two the other way round. -/
def someTouches : List Touch :=
  [.store (gathered .list [plainRelation 1 "A", plainRelation 2 "B"])
    (joined (plainRelation 1 "A") (plainRelation 2 "B")),
   .store (gathered .list [plainRelation 1 "A", plainRelation 2 "B"])
    (joined (plainRelation 1 "A") (plainRelation 3 "C")),
   .store (gathered .stream [plainRelation 2 "B", plainRelation 1 "A", plainRelation 2 "B"])
    (joined (plainRelation 2 "B") (plainRelation 1 "A"))]

theorem run_isMap_someTouches :
    (run ∅ someTouches).lookup (gathered .list [plainRelation 1 "A", plainRelation 2 "B"]).item =
        .ok (some (joined (plainRelation 2 "B") (plainRelation 1 "A"))) ∧
      ∃ sets, (run ∅ someTouches).subsets = .ok sets ∧
        ∃ K ∈ sets, K.identities = [.ofInt 1, .ofInt 2] := by
  obtain ⟨_, _, reads, _, listed, lists, sortable⟩ := run_isMap someTouches
  have proper : ∀ r, Handed someTouches r → r.IsNumbered ∧ r.IsNamed := by
    rintro r ⟨X, plan, member, inside⟩
    have known : r ∈ [plainRelation 1 "A", plainRelation 2 "B"] := by
      simp only [someTouches, List.mem_cons, List.not_mem_nil, or_false, store.injEq] at member
      rcases member with ⟨rfl, _⟩ | ⟨rfl, _⟩ | ⟨rfl, _⟩ <;>
        simp only [gathered, List.mem_cons, List.not_mem_nil] at inside ⊢ <;> tauto
    rcases List.mem_pair.mp known with rfl | rfl <;> exact ⟨⟨_, rfl⟩, _, rfl⟩
  obtain ⟨sets, ok⟩ := lists (sortable proper)
  obtain ⟨K, member, is⟩ := ((listed sets ok).2.2
    (gathered .list [plainRelation 1 "A", plainRelation 2 "B"])).mpr rfl
  exact ⟨(reads _).1, sets, ok, K, member, Collected.ids_eq.mp is⟩

/-- A relation with the name of another and a text for its identity. -/
def namesake : Relation := { plainRelation 3 "A" with id := .text "x" }

def apart : List Touch :=
  [.store (gathered .list [plainRelation 1 "A", plainRelation 2 "B"])
    (joined (plainRelation 1 "A") (plainRelation 2 "B")),
   .store (gathered .list [namesake, plainRelation 2 "B"]) (joined namesake (plainRelation 2 "B"))]

/-- Two sets may be in a table that cannot list them, because a number and a text stand behind the
same name. -/
theorem subsets_apart :
    (run ∅ apart).contains (gathered .list [plainRelation 1 "A", plainRelation 2 "B"]).item =
        .ok true ∧
      (run ∅ apart).contains (gathered .list [namesake, plainRelation 2 "B"]).item = .ok true ∧
      ∀ sets, (run ∅ apart).subsets ≠ .ok sets := by
  have sorted := (sort_pair ⟨_, rfl⟩ ⟨_, rfl⟩ (r := plainRelation 1 "A") (s := plainRelation 2 "B")
    (by decide +kernel) (by decide)).1
  have sorted' := (sort_pair ⟨_, rfl⟩ ⟨_, rfl⟩ (r := namesake) (s := plainRelation 2 "B")
    (by decide +kernel) (by decide)).2
  refine ⟨by with_unfolding_all rfl, by with_unfolding_all rfl, fun sets => ?_⟩
  exact Memo.subsets_ne_ok (by with_unfolding_all rfl) sorted sorted' (by decide +kernel)
    (by decide +kernel) sets

end Examples

end Touch

end JoinOrder
