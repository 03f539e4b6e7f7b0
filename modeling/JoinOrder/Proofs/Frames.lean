import JoinOrder.Proofs.SameValue
import JoinOrder.Proofs.Warnings
/-!
Frames that are made from records of one kind. There is a column for each thing that a record has, and
the rows are the records in their order; numbers may be changed to fit the kind of their column, texts
are not.
-/

namespace JoinOrder

theorem forall₂_of_mapM {α β : Type} {f : α → Except Error β} {xs : List α} {ys : List β}
    (ok : xs.mapM f = .ok ys) : List.Forall₂ (fun x y => f x = .ok y) xs ys := by
  induction xs generalizing ys with
  | nil =>
    cases ok
    exact .nil
  | cons x xs ih =>
    rw [List.mapM_cons] at ok
    obtain ⟨y, first, ok⟩ := ok_of_bind ok
    obtain ⟨rest, others, ok⟩ := ok_of_bind ok
    cases ok
    exact .cons first (ih others)

theorem exists_forall₂ {α β : Type} {related : α → β → Prop} {xs : List α}
    (each : ∀ x ∈ xs, ∃ y, related x y) : ∃ ys, List.Forall₂ related xs ys := by
  induction xs with
  | nil => exact ⟨[], .nil⟩
  | cons x xs ih =>
    obtain ⟨y, first⟩ := each x List.mem_cons_self
    obtain ⟨ys, others⟩ := ih fun z member => each z (List.mem_cons_of_mem x member)
    exact ⟨y :: ys, .cons first others⟩

/-- Everything in the second list is related to something in the first. -/
theorem exists_of_forall₂ {α β : Type} {related : α → β → Prop} {xs : List α} {ys : List β}
    (each : List.Forall₂ related xs ys) : ∀ y ∈ ys, ∃ x ∈ xs, related x y := by
  induction each with
  | nil => exact fun y none => absurd none List.not_mem_nil
  | cons first _ ih =>
    refine List.forall_mem_cons.mpr ⟨⟨_, List.mem_cons_self, first⟩, fun y member => ?_⟩
    obtain ⟨x, inside, is⟩ := ih y member
    exact ⟨x, List.mem_cons_of_mem _ inside, is⟩

namespace CellKind

theorem keep_of_integer?_eq_none (kind : CellKind) {cell : Item} (other : integer? cell = none) :
    kind.keep cell = cell := by
  simp only [keep, other]

/-- A column of integers may be one of objects, but never one of floats. -/
theorem keep_of_integers {cells : List Item} (integers : ∀ c ∈ cells, ∃ n : Int, c = .scalar (.int n))
    (cell : Item) : (ofCells cells).keep cell = cell := by
  have noBool : cells.any isBool = false := by
    rw [← Bool.not_eq_true, List.any_eq_true]
    rintro ⟨c, inside, is⟩
    obtain ⟨n, rfl⟩ := integers c inside
    exact nomatch is
  have noGap : (cells.any fun c => c.isNull || isReal c) = false := by
    rw [← Bool.not_eq_true, List.any_eq_true]
    rintro ⟨c, inside, is⟩
    obtain ⟨n, rfl⟩ := integers c inside
    exact nomatch is
  have kind : ofCells cells ≠ .float := by
    unfold ofCells
    simp only [noBool, noGap, Bool.false_eq_true, if_false]
    repeat' split
    all_goals simp
  unfold keep
  split
  · contradiction
  · rfl

/-- Cells can be read if all integers among them have a nearest float. -/
theorem checkCells_eq_ok {cells : List Item}
    (floats : ∀ c ∈ cells, ∀ n, integer? c = some n → ∃ x, (Value.int n).float? = .ok x)
    (before : List Int) (gap : Bool) : checkCells before gap cells = .ok () := by
  induction cells generalizing before gap with
  | nil => rfl
  | cons cell rest ih =>
    have later := ih fun c member => floats c (List.mem_cons_of_mem cell member)
    rw [checkCells]
    cases integer : integer? cell with
    | none =>
      by_cases decisive : isDecisive before gap cell = true
      · simp only [decisive]
        rfl
      · simp only [decisive]
        exact later _ _
    | some n =>
      obtain ⟨x, float⟩ := floats cell List.mem_cons_self n integer
      by_cases decisive : isDecisive before gap cell = true
      · simp only [float, decisive]
        rfl
      · simp only [float, decisive]
        exact later _ _

end CellKind

namespace Frame

variable {ρ : Type} {readers : List (String × (ρ → Item))} {xs : List ρ}

/-- What is read off one thing, under the names of the readers. -/
def record (readers : List (String × (ρ → Item))) (x : ρ) : Item :=
  .object (readers.map fun r => (r.1, r.2 x))

/-- A column for each reader. -/
def columnsOf (readers : List (String × (ρ → Item))) (xs : List ρ) : List Column :=
  readers.map fun r => ⟨r.1, xs.map r.2⟩

theorem cells_record (names : (readers.map (·.1)).Nodup) (x : ρ) :
    ((readers.map (·.1)).mapM fun name => cell name (record readers x)) =
      .ok (readers.map fun r => r.2 x) := by
  rw [List.mapM_map]
  apply mapM_eq_map
  intro r member
  have entries : ((readers.map fun r => (r.1, r.2 x)).map (·.1)).Nodup := by
    rwa [List.map_map]
  have found := Value.lookup_of_mem entries (List.mem_map_of_mem member)
  simp only [Function.comp_apply, record, cell, found]

theorem columns_records (readers : List (String × (ρ → Item))) (xs : List ρ) :
    (((List.range (readers.map (·.1)).length).zip (readers.map (·.1))).map fun (i, name) =>
      Column.mk name ((xs.map fun x => readers.map fun r => r.2 x).filterMap (·[i]?))) =
        columnsOf readers xs := by
  apply List.ext_getElem
  · simp [columnsOf]
  · intro i inRange inReaders
    have inside : i < readers.length := by simpa [columnsOf] using inReaders
    have cells : (xs.map fun x => readers.map fun r => r.2 x).filterMap (·[i]?) =
        xs.map readers[i].2 := by
      rw [List.filterMap_map, ← List.filterMap_eq_map]
      congr 1
      funext x
      simp [inside]
    simp only [columnsOf, List.getElem_map, List.getElem_zip, List.getElem_range, cells]

/-- The rows of a frame of records are read off the records, each cell as its column takes it. -/
theorem rows_records (some : readers ≠ []) (xs : List ρ) :
    (Frame.mk (columnsOf readers xs) xs.length).rows =
      xs.map fun x => readers.map fun r => (CellKind.ofCells (xs.map r.2)).keep (r.2 x) := by
  have columns : (columnsOf readers xs).isEmpty = false := by
    cases readers with
    | nil => exact absurd rfl some
    | cons r rest => rfl
  simp only [rows, columns, Bool.false_eq_true, if_false]
  apply List.ext_getElem
  · simp
  · intro i _ inXs
    have inside : i < xs.length := by simpa using inXs
    simp only [List.getElem_map, List.getElem_range, columnsOf, List.map_map, List.filterMap_map]
    rw [← List.filterMap_eq_map]
    congr 1
    funext r
    simp [Column.values, Column.kind, inside]

theorem ofItem_records (names : (readers.map (·.1)).Nodup) (some : xs ≠ []) :
    ofItem (.group .list (xs.map (record readers))) = (do
      (columnsOf readers xs).forM fun column => CellKind.checkCells [] false column.cells
      return ⟨columnsOf readers xs, xs.length⟩) := by
  have cells : ((xs.map (record readers)).mapM fun row =>
      (readers.map (·.1)).mapM fun name => cell name row) =
        .ok (xs.map fun x => readers.map fun r => r.2 x) := by
    rw [List.mapM_map]
    exact mapM_eq_map fun x _ => cells_record names x
  have made : ofRows (readers.map (·.1)) (xs.map (record readers)) = (do
      (columnsOf readers xs).forM fun column => CellKind.checkCells [] false column.cells
      return ⟨columnsOf readers xs, xs.length⟩) := by
    rw [ofRows, cells, List.length_map (record readers), ← columns_records]
    rfl
  cases xs with
  | nil => exact absurd rfl some
  | cons x rest =>
    have entries : (readers.map fun r => (r.1, r.2 x)).map (·.1) = readers.map (·.1) := by
      rw [List.map_map]
      rfl
    rw [← made, ← entries]
    rfl

end Frame

end JoinOrder
