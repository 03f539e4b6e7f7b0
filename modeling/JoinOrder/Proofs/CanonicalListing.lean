import JoinOrder.Proofs.Frames
import JoinOrder.Proofs.Listing
import JoinOrder.Proofs.Messages
/-!
What a table shows of its entries. Its list of sets and the rows of its frame go through the entries in
one order, which their sets decide alone: tables with the same sets list them alike, however they came
to have them. A frame asks for more than a list does, since plans and numbers are written into it.
-/

namespace JoinOrder

theorem forM_eq_ok {α : Type} {f : α → Except Error Unit} {xs : List α}
    (each : ∀ x ∈ xs, f x = .ok ()) : xs.forM f = .ok () := by
  induction xs with
  | nil => rfl
  | cons x xs ih =>
    have others := ih fun y member => each y (List.mem_cons_of_mem x member)
    change (do f x; xs.forM f) = _
    rw [each x List.mem_cons_self]
    exact others

namespace Memo

/-- What the row of an entry is made from. -/
structure Row where
  names : String
  size : Nat
  plan : String
  tuples : Value
  cost : Value

/-- The columns of a table. -/
def Row.readers : List (String × (Row → Item)) :=
  [("relations", fun row => .text row.names), ("size", fun row => .natural row.size),
    ("plan", fun row => .text row.plan), ("tuples", fun row => .ofValue row.tuples),
    ("cost", fun row => .ofValue row.cost)]

/-- The row says of an entry which relations it is for, and what their plan is like. -/
structure Entry.Shows (e : Entry) (row : Row) : Prop where
  names : RelationSet.names e.relations.toList = .ok row.names
  size : row.size = e.relations.size
  plan : e.plan.shown = .ok row.plan
  tuples : row.tuples = e.plan.tuples
  cost : e.plan.cost = .ok row.cost

variable {m m' : Memo} {e : Entry} {row : Row} {sorted : List Entry} {f : Frame}

theorem Entry.Shows.row_eq (shows : e.Shows row) : e.row = .ok (Frame.record Row.readers row) := by
  unfold Entry.row
  rw [shows.names, shows.plan, shows.cost, ← shows.tuples, ← shows.size]
  rfl

theorem Entry.exists_shows {item : Item} (ok : e.row = .ok item) :
    ∃ row, e.Shows row ∧ item = Frame.record Row.readers row := by
  obtain ⟨names, named, ok⟩ := ok_of_bind ok
  obtain ⟨plan, shown, ok⟩ := ok_of_bind ok
  obtain ⟨cost, added, ok⟩ := ok_of_bind ok
  cases ok
  exact ⟨⟨names, e.relations.size, plan, e.plan.tuples, cost⟩, ⟨named, rfl, shown, rfl, added⟩, rfl⟩

theorem exists_rows {items : List Item} (ok : sorted.mapM Entry.row = .ok items) :
    ∃ rows, List.Forall₂ Entry.Shows sorted rows ∧
      items = rows.map (Frame.record Row.readers) := by
  have each := forall₂_of_mapM ok
  clear ok
  induction each with
  | nil => exact ⟨[], .nil, rfl⟩
  | cons first _ ih =>
    obtain ⟨row, shows, rfl⟩ := Entry.exists_shows first
    obtain ⟨rows, others, rfl⟩ := ih
    exact ⟨row :: rows, .cons shows others, rfl⟩

theorem readers_nodup : (Row.readers.map (·.1)).Nodup := by decide

/-- The rows of a frame stand in the order of the entries. -/
theorem rows_of_frame (ok : m.frame = .ok f) (entries : m.entries = .ok sorted) :
    ∃ rows, List.Forall₂ Entry.Shows sorted rows ∧ f.rows = rows.map fun row =>
      Row.readers.map fun r => (CellKind.ofCells (rows.map r.2)).keep (r.2 row) := by
  obtain ⟨listed, found, ok⟩ := ok_of_bind ok
  rw [entries] at found
  cases found
  obtain ⟨items, worked, ok⟩ := ok_of_bind ok
  obtain ⟨rows, shows, rfl⟩ := exists_rows worked
  refine ⟨rows, shows, ?_⟩
  by_cases none : rows = []
  · subst none
    cases ok
    rfl
  · rw [Frame.ofItem_records readers_nodup none] at ok
    obtain ⟨_, _, made⟩ := ok_of_bind ok
    cases made
    exact Frame.rows_records (List.cons_ne_nil _ _) rows

/-- There is no frame unless all plans can be written. -/
theorem shown_of_frame (ok : m.frame = .ok f) : ∀ e ∈ m.table.values, ∃ text,
    e.plan.shown = .ok text := by
  intro e member
  obtain ⟨sorted, entries, _⟩ := ok_of_bind ok
  obtain ⟨rows, shows, _⟩ := rows_of_frame ok entries
  obtain ⟨row, _, own⟩ := exists_of_forall₂ shows.flip e ((perm_entries entries).symm.subset member)
  exact ⟨row.plan, own.plan⟩

/-- A row of a table: the names of a set in their order, its size, and how its plan is written. What the
plan was estimated at follows as the columns take it. -/
def IsRowOf (m : Memo) (K : RelationSet) (cells : List Item) : Prop :=
  ∃ names plan shown, RelationSet.names K.toList = .ok names ∧ m.find? K = some plan ∧
    plan.shown = .ok shown ∧ cells.take 3 = [.text names, .natural K.size, .text shown]

theorem Filed.find?_eq (filed : m.Filed) (member : e ∈ m.table.values) :
    m.find? e.relations = some e.plan := by
  have found := (filed.found e.key e).mpr ⟨member, rfl⟩
  exact congrArg (Option.map (·.plan)) found

theorem Entry.Shows.isRowOf (filed : m.Filed) (member : e ∈ m.table.values) (shows : e.Shows row)
    {rows : List Row} : m.IsRowOf e.relations
      (Row.readers.map fun r => (CellKind.ofCells (rows.map r.2)).keep (r.2 row)) := by
  refine ⟨row.names, e.plan, row.plan, shows.names, filed.find?_eq member, shows.plan, ?_⟩
  have sizes : (CellKind.ofCells (rows.map fun row => Item.natural row.size)).keep
      (.natural row.size) = .natural row.size := by
    apply CellKind.keep_of_integers
    intro c inside
    obtain ⟨row, _, rfl⟩ := List.mem_map.mp inside
    exact ⟨row.size, rfl⟩
  simp only [Row.readers, List.map_cons, List.take_succ_cons, List.take_zero, sizes]
  rw [CellKind.keep_of_integer?_eq_none _ rfl, CellKind.keep_of_integer?_eq_none _ rfl, shows.size]

/-- A row of the frame for every set of the list. -/
theorem forall₂_rows {sets : List RelationSet} (filed : m.Filed) (listed : m.subsets = .ok sets)
    (ok : m.frame = .ok f) : List.Forall₂ m.IsRowOf sets f.rows := by
  obtain ⟨sorted, entries, is⟩ := ok_of_bind listed
  cases is
  obtain ⟨rows, shows, cells⟩ := rows_of_frame ok entries
  have known : ∀ e ∈ sorted, e ∈ m.table.values := fun e member =>
    (perm_entries entries).subset member
  rw [cells, List.forall₂_map_left_iff, List.forall₂_map_right_iff]
  exact (List.forall₂_and_left _ _ |>.mpr ⟨known, shows⟩).imp fun e row both =>
    both.2.isRowOf filed both.1

/-- Nothing stops the row of an entry from being written: its plan is one for relations whose attributes
are texts and whose tuples have few enough digits, and all its numbers are integers with a nearest
float. -/
structure Entry.Presentable (e : Entry) : Prop where
  attributes : ∀ r ∈ e.plan.leaves, ∀ s ∈ r.attributes.toList, s.isText = true
  counts : ∀ r ∈ e.plan.leaves, r.tuples.isWritable = true
  size : ∃ x, (Value.int e.relations.size).float? = .ok x
  tuples : ∃ n x, e.plan.tuples = .int n ∧ (Value.int n).float? = .ok x
  cost : ∃ n x, e.plan.cost = .ok (.int n) ∧ (Value.int n).float? = .ok x

theorem Entry.Presentable.exists_shows (presentable : e.Presentable)
    (proper : RelationSet.Proper e.relations.toList) : ∃ row, e.Shows row := by
  obtain ⟨names, named⟩ := proper.orderly.names_isOk
  obtain ⟨plan, shown⟩ := (Plan.shown_isOk_iff presentable.attributes).mpr presentable.counts
  obtain ⟨cost, _, added, _⟩ := presentable.cost
  exact ⟨⟨names, e.relations.size, plan, e.plan.tuples, .int cost⟩, named, rfl, shown, rfl, added⟩

/-- Every integer in a row of such an entry can be read into a column. -/
theorem Entry.Presentable.exists_float (presentable : e.Presentable) (shows : e.Shows row)
    {r : String × (Row → Item)} (reader : r ∈ Row.readers) {n : Int}
    (integer : CellKind.integer? (r.2 row) = some n) : ∃ x, (Value.int n).float? = .ok x := by
  simp only [Row.readers, List.mem_cons, List.not_mem_nil, or_false] at reader
  rcases reader with rfl | rfl | rfl | rfl | rfl
  · contradiction
  · cases integer
    rw [shows.size]
    exact presentable.size
  · contradiction
  · obtain ⟨k, x, is, float⟩ := presentable.tuples
    simp only [shows.tuples, is] at integer
    cases integer
    exact ⟨x, float⟩
  · obtain ⟨k, x, is, float⟩ := presentable.cost
    have same : row.cost = .int k := Except.ok.inj (shows.cost.symm.trans is)
    simp only [same] at integer
    cases integer
    exact ⟨x, float⟩

theorem mapM_row_of_shows {rows : List Row} (shows : List.Forall₂ Entry.Shows sorted rows) :
    sorted.mapM Entry.row = .ok (rows.map (Frame.record Row.readers)) := by
  induction shows with
  | nil => rfl
  | cons first _ ih =>
    rw [List.mapM_cons, first.row_eq, ih]
    rfl

/-- If nothing stops any row from being written, there is a frame. -/
theorem frame_isOk (proper : m.Proper) (presentable : ∀ e ∈ m.table.values, e.Presentable) :
    ∃ f, m.frame = .ok f := by
  obtain ⟨sorted, entries⟩ := proper.entries_isOk
  have known : ∀ e ∈ sorted, e ∈ m.table.values := fun e member =>
    (perm_entries entries).subset member
  obtain ⟨rows, shows⟩ := exists_forall₂ fun e member =>
    (presentable e (known e member)).exists_shows (proper _ (mem_keys (known e member)))
  -- All that is left is to fit the columns to kinds, which only looks at integers.
  have written : m.frame = Frame.ofItem (.group .list (rows.map (Frame.record Row.readers))) := by
    rw [frame, entries]
    change (do Frame.ofItem (.group .list (← sorted.mapM Entry.row))) = _
    rw [mapM_row_of_shows shows]
    rfl
  rw [written]
  by_cases none : rows = []
  · subst none
    exact ⟨_, rfl⟩
  · have fits : ((Frame.columnsOf Row.readers rows).forM fun column =>
        CellKind.checkCells [] false column.cells) = .ok () := by
      apply forM_eq_ok
      intro column member
      obtain ⟨r, reader, rfl⟩ := List.mem_map.mp member
      apply CellKind.checkCells_eq_ok
      intro c inside n integer
      obtain ⟨row, inRows, rfl⟩ := List.mem_map.mp inside
      obtain ⟨e, inSorted, shows⟩ := exists_of_forall₂ shows row inRows
      exact (presentable e (known e inSorted)).exists_float shows reader integer
    rw [Frame.ofItem_records readers_nodup none, fits]
    exact ⟨_, rfl⟩

/-- Tables with the same entries have the same frame, or none for the same reason. -/
theorem frame_congr (filed : m.Filed) (filed' : m'.Filed) (proper : m.Proper)
    (same : ∀ x, x ∈ m.table.values.map Entry.stored ↔ x ∈ m'.table.values.map Entry.stored) :
    m.frame = m'.frame := by
  have proper' : m'.Proper := by
    intro K key
    obtain ⟨e, member, rfl⟩ := List.mem_map.mp key
    obtain ⟨d, known, is⟩ := List.mem_map.mp ((same _).mpr (List.mem_map_of_mem member))
    rw [← (Prod.mk.inj is).1]
    exact proper _ (mem_keys known)
  obtain ⟨sorted, entries⟩ := proper.entries_isOk
  obtain ⟨sorted', entries'⟩ := proper'.entries_isOk
  have lists := map_entries_eq (fun e => (rfl : (e.stored).1 = e.relations)) filed filed' proper proper'
    entries entries' same
  -- A row is read off what callers see of an entry.
  have rows (es : List Entry) : es.mapM Entry.row =
      (es.map Entry.stored).mapM fun x => Entry.row ⟨x.1, [], x.2⟩ := by
    rw [List.mapM_map]
    rfl
  rw [frame, frame, entries, entries']
  change (do Frame.ofItem (.group .list (← sorted.mapM Entry.row))) =
    (do Frame.ofItem (.group .list (← sorted'.mapM Entry.row)))
  rw [rows, rows, lists]

/-! ### The list -/

theorem isSome_find?_iff (filed : m.Filed) {K : RelationSet} :
    (m.find? K).isSome = true ↔ K.identities ∈ m.keys.map IdSet.identities := by
  rw [find?, Option.isSome_map, Option.isSome_iff_exists, keys, List.map_map, List.mem_map]
  exact exists_congr fun e => filed.found K.identities e

end Memo

namespace Change

variable {changes : List Change} {m : Memo}

/-- Whatever was done to a table that was empty at first, its sets are listed once each, by size and then
like the words of a dictionary whose letters are the sort keys of the relations in their order. A table
with the same sets lists them alike, and one with the same entries has the same frame. The rows of a
frame follow the list, whenever there is a frame, and there is one if all rows can be written. Sets of
one size that are taken from the relations of a collection come in the order in which its parts of that
size are enumerated. -/
theorem listing_canonical (ran : history ∅ changes = some m) (proper : m.Proper) :
    ∃ sets, m.subsets = .ok sets ∧ sets.Perm m.keys ∧ (sets.map IdSet.identities).Nodup ∧
      (∀ K, (m.find? K).isSome = true ↔ K.identities ∈ sets.map IdSet.identities) ∧
      sets.Pairwise RelationSet.Precedes ∧
      (∀ changes' m', history ∅ changes' = some m' →
        ((∀ K, K ∈ m.keys ↔ K ∈ m'.keys) → m'.subsets = .ok sets) ∧
        ((∀ x, x ∈ m.table.values.map Memo.Entry.stored ↔
          x ∈ m'.table.values.map Memo.Entry.stored) → m'.frame = m.frame)) ∧
      (∀ f, m.frame = .ok f → List.Forall₂ m.IsRowOf sets f.rows) ∧
      ((∀ e ∈ m.table.values, e.Presentable) → ∃ f, m.frame = .ok f) ∧
      ∀ (machine : Machine) (R : Collected), RelationSet.Proper R.relations →
        Distinct R.relations → ∀ k : Nat,
        (k * Word.bytes < machine.memory →
          ∃ parts, RelationSet.subsetsOfSize machine (.int k) none R.item = .ok parts) ∧
        ∀ parts, RelationSet.subsetsOfSize machine (.int k) none R.item = .ok parts →
          ∀ chosen : List RelationSet, chosen.Sublist sets →
            (∀ K ∈ chosen, K.size = k ∧ K.toList ⊆ R.relations) → chosen.Sublist parts := by
  have filed := history_filed ran
  obtain ⟨sorted, entries⟩ := proper.entries_isOk
  have listed : m.subsets = .ok (sorted.map (·.relations)) := by
    rw [Memo.subsets, entries]
    rfl
  have perm := Memo.perm_subsets listed
  have ordered : (sorted.map (·.relations)).Pairwise RelationSet.Precedes :=
    List.pairwise_map.mpr (Memo.ordered_entries filed proper entries)
  refine ⟨_, listed, perm, ?_, ?_, ordered, ?_, ?_, ?_, ?_⟩
  · rw [(perm.map IdSet.identities).nodup_iff, List.map_map]
    exact filed.nodup
  · intro K
    rw [Memo.isSome_find?_iff filed, (perm.map IdSet.identities).mem_iff]
    rfl
  · intro changes' m' ran'
    have filed' := history_filed ran'
    constructor
    · intro same
      rw [← listed, Memo.subsets_congr filed filed' proper same]
    · intro same
      exact (Memo.frame_congr filed filed' proper same).symm
  · intro f ok
    exact Memo.forall₂_rows filed listed ok
  · exact Memo.frame_isOk proper
  · intro machine R properR distinct k
    refine ⟨RelationSet.subsetsOfSize_isOk properR, ?_⟩
    intro parts ok chosen sub inside
    obtain ⟨xs, sorts, rfl⟩ := RelationSet.parts_of_subsetsOfSize ok
    have same := Relation.perm_of_sort sorts
    refine RelationSet.sublist_parts (fun r member => properR r (same.subset member))
      (distinct.perm same) (Relation.ordered_of_sort distinct sorts) (ordered.sublist sub) ?_
    intro K member
    exact ⟨(inside K member).1, fun r inK => same.symm.subset ((inside K member).2 inK)⟩

section Examples

open Problem (plainRelation)
open Touch (gathered joined)

/-- Relations that only their identities tell apart. -/
def alike (id : Int) : Relation := plainRelation id "A"

def entryOf (id : Int) : RelationSet × Plan :=
  (.ofList [alike id, alike (id + 1)], joined (alike id) (alike (id + 1)))

/-- Two neighbours and a plan for them, handed over to be stored. -/
def pair (id : Int) : Change :=
  .store (gathered .stream [alike (id + 1), alike id]).item (.plan (joined (alike id) (alike (id + 1))))

theorem distinct_alike (id : Int) : Distinct [alike id, alike (id + 1)] := by
  have apart : Atom.ofInt id ≠ Atom.ofInt (id + 1) := by
    intro same
    have numbers := (Atom.number.inj same).1
    omega
  rw [Distinct, List.map_cons, List.map_singleton, List.nodup_cons, List.mem_singleton]
  exact ⟨apart, List.nodup_singleton _⟩

theorem proper_of_entries (each : ∀ e ∈ m.table.values, ∃ id, e.stored = entryOf id) : m.Proper := by
  intro K key r inside
  obtain ⟨e, member, rfl⟩ := List.mem_map.mp key
  obtain ⟨id, is⟩ := each e member
  rw [(Prod.mk.inj is).1] at inside
  rcases List.mem_pair.mp (IdSet.mem_ofList r inside) with rfl | rfl <;>
    exact ⟨⟨_, rfl⟩, _, rfl⟩

theorem presentable_of_entries (each : ∀ e ∈ m.table.values, ∃ id, e.stored = entryOf id) :
    ∀ e ∈ m.table.values, e.Presentable := by
  intro e member
  obtain ⟨id, is⟩ := each e member
  obtain ⟨relations, plan⟩ := Prod.mk.inj is
  have size : e.relations.size = 2 := by
    rw [relations, IdSet.size_ofList (distinct_alike id)]
    rfl
  have plain : ∀ r ∈ e.plan.leaves, ∃ id, r = alike id := by
    rw [plan]
    intro r leaf
    rcases List.mem_pair.mp leaf with rfl | rfl <;> exact ⟨_, rfl⟩
  have written : (Value.int 10).isWritable = true := by decide +kernel
  constructor
  · intro r leaf s text
    obtain ⟨id, rfl⟩ := plain r leaf
    exact absurd text List.not_mem_nil
  · intro r leaf
    obtain ⟨id, rfl⟩ := plain r leaf
    exact written
  · rw [size]
    exact ⟨2, by decide +kernel⟩
  · rw [plan]
    exact ⟨100, 100, rfl, by decide +kernel⟩
  · rw [plan]
    exact ⟨100, 100, rfl, by decide +kernel⟩

set_option maxRecDepth 10000 in
theorem exists_histories : ∃ m m', history ∅ [pair 1, pair 2] = some m ∧
    history ∅ [pair 1, .use .reset, pair 2, .bind (.bool true), pair 1] = some m' ∧
    m.table.values.map Memo.Entry.stored = [entryOf 1, entryOf 2] ∧
    m'.table.values.map Memo.Entry.stored = [entryOf 2, entryOf 1] := by
  refine ⟨_, _, rfl, rfl, ?_, ?_⟩ <;> with_unfolding_all rfl

/-- Two sets are stored in either order, once with a reset and a binding in between. -/
theorem listing_canonical_eitherWay : ∃ m m' sets f, history ∅ [pair 1, pair 2] = some m ∧
    history ∅ [pair 1, .use .reset, pair 2, .bind (.bool true), pair 1] = some m' ∧
    m.Proper ∧ m.subsets = .ok sets ∧ m'.subsets = .ok sets ∧
    sets.Perm [(entryOf 1).1, (entryOf 2).1] ∧ sets.Pairwise RelationSet.Precedes ∧
    m.frame = .ok f ∧ m'.frame = .ok f ∧ List.Forall₂ m.IsRowOf sets f.rows := by
  obtain ⟨m, m', ran, ran', stored, stored'⟩ := exists_histories
  have each : ∀ e ∈ m.table.values, ∃ id, e.stored = entryOf id := by
    intro e member
    have known : e.stored ∈ [entryOf 1, entryOf 2] := stored ▸ List.mem_map_of_mem member
    rcases List.mem_pair.mp known with is | is <;> exact ⟨_, is⟩
  have proper := proper_of_entries each
  have keysOf (m : Memo) : m.keys = (m.table.values.map Memo.Entry.stored).map (·.1) := by
    rw [List.map_map]
    rfl
  have same : (m.table.values.map Memo.Entry.stored).Perm (m'.table.values.map Memo.Entry.stored) := by
    rw [stored, stored']
    exact List.Perm.swap ..
  have keys : m.keys.Perm m'.keys := by
    rw [keysOf, keysOf]
    exact same.map _
  obtain ⟨sets, listed, perm, _, _, ordered, others, rows, frame, _⟩ := listing_canonical ran proper
  obtain ⟨f, shown⟩ := frame (presentable_of_entries each)
  obtain ⟨lists, frames⟩ := others _ m' ran'
  have both : m.keys = [(entryOf 1).1, (entryOf 2).1] := by
    rw [keysOf, stored]
    rfl
  refine ⟨m, m', sets, f, ran, ran', proper, listed, lists fun K => keys.mem_iff, ?_, ordered, shown,
    ?_, rows f shown⟩
  · rw [← both]
    exact perm
  · rw [frames fun x => same.mem_iff]
    exact shown

/-- A relation with a number for an attribute. -/
def numbered : Relation := { plainRelation 1 "A" with attributes := .ofList [.int 1] }

def numberedPlan : Plan := joined numbered (plainRelation 2 "B")

def numberedPair : Change :=
  .store (gathered .list [numbered, plainRelation 2 "B"]).item (.plan numberedPlan)

set_option maxRecDepth 10000 in
/-- A table may list its sets, although there is no frame of it: numbers cannot be written among the
attributes of a plan. -/
theorem frame_numberedPair : ∃ m sets, history ∅ [numberedPair] = some m ∧ m.Proper ∧
    m.subsets = .ok sets ∧ sets.length = 1 ∧ ∀ f, m.frame ≠ .ok f := by
  obtain ⟨m, ran, stored⟩ : ∃ m, history ∅ [numberedPair] = some m ∧
      m.table.values.map Memo.Entry.stored =
        [(.ofList [numbered, plainRelation 2 "B"], numberedPlan)] := by
    refine ⟨_, rfl, ?_⟩
    with_unfolding_all rfl
  have proper : m.Proper := by
    intro K key r inside
    obtain ⟨e, member, rfl⟩ := List.mem_map.mp key
    have is := List.mem_singleton.mp (stored ▸ List.mem_map_of_mem member)
    rw [(Prod.mk.inj is).1] at inside
    rcases List.mem_pair.mp (IdSet.mem_ofList r inside) with rfl | rfl <;>
      exact ⟨⟨_, rfl⟩, _, rfl⟩
  obtain ⟨sorted, entries⟩ := proper.entries_isOk
  refine ⟨m, sorted.map (·.relations), ran, proper, ?_, ?_, ?_⟩
  · rw [Memo.subsets, entries]
    rfl
  · have count := congrArg List.length stored
    rw [List.length_map] at count ⊢
    rw [(Memo.perm_entries entries).length_eq, count]
    rfl
  · intro f ok
    obtain ⟨e, member, is⟩ := List.mem_map.mp (stored ▸ List.mem_singleton_self _)
    obtain ⟨text, shown⟩ := Memo.shown_of_frame ok e member
    rw [(Prod.mk.inj is).2] at shown
    have failed : numberedPlan.shown = .error .mismatch := by with_unfolding_all rfl
    rw [failed] at shown
    contradiction

end Examples

end Change

end JoinOrder
