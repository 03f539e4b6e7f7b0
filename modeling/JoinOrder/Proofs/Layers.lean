import JoinOrder.Proofs.Pool
/-!
The layered search under any schedules. Before a layer starts, all smaller parts are known and of the
larger ones only those that were known from the start; a layer that is done has solved its parts, and
the work on them has gone over into the account.
-/

namespace JoinOrder

namespace Problem

open Search

variable (P : Problem)

/-- The parts of one size that have no plan from the start. -/
def layer (size : Nat) : List (List Relation) :=
  (Subset.ofSize size P.root).filter fun xs => !P.table.knows xs

/-- The start of each layer can be told. -/
def LayersTold (a : Answerer) (workers : Value) : Prop :=
  ∀ size, 2 ≤ size → size ≤ P.root.length →
    a.Tells (.layer (P.layer size).length size workers)

/-- What holds before a layer starts. -/
structure Front (a : Answerer) (workers : Value) (e : Effort) (size : Nat) (t : Standing) :
    Prop where
  stage : P.Stage size t.memo
  above : ∀ xs, P.IsPart xs → size ≤ xs.length → t.memo.knows xs = P.table.knows xs
  told : ∀ xs, P.IsPart xs → xs.length < size → P.table.knows xs = false →
    a.Tells (.solved xs (P.plan xs))
  announced : ∀ k, 2 ≤ k → k < size → a.Tells (.layer (P.layer k).length k workers)
  balance : t.effort + P.due t.memo = e + P.due P.table

variable {P} {a : Answerer} {workers : Value} {e : Effort} {size n : Nat} {t : Standing}
  {xs : List Relation} {schedules : Nat → List Nat}

theorem front_table : P.Front a workers e 2 ⟨P.table, e⟩ where
  stage := ⟨reached_table, fun xs part small => by have := part.two; omega⟩
  above := fun _ _ _ => rfl
  told := fun xs part small => by have := part.two; omega
  announced := fun k two small => by omega
  balance := rfl

theorem Front.finished (h : P.Front a workers e (P.root.length + 1) t) : P.Finished t.memo :=
  ⟨h.stage.reached, fun xs part =>
    h.stage.below xs part (Nat.lt_succ_of_le part.sublist.length_le)⟩

/-! ### Opening a layer -/

theorem ends_missing (layer : List (List Relation)) {failed : Memo → Prop} :
    Ends a (missing layer) t (fun open' t' => open' = layer.filter (fun xs => !t.memo.knows xs) ∧
      t' = t) failed := by
  induction layer with
  | nil => exact ends_done ⟨rfl, rfl⟩
  | cons xs layer ih =>
    refine ends_consult (ends_bind (ih.mono ?_))
    rintro others t' ⟨rfl, rfl⟩
    refine ends_done ⟨?_, rfl⟩
    cases known : t'.memo.find? (.ofList xs) <;> simp [Memo.knows, known]

theorem mem_layer (two : 2 ≤ size) :
    xs ∈ P.layer size ↔ P.IsPart xs ∧ xs.length = size ∧ P.table.knows xs = false := by
  simp only [layer, List.mem_filter, Subset.mem_ofSize, Bool.not_eq_true']
  constructor
  · rintro ⟨⟨sub, rfl⟩, unknown⟩
    exact ⟨⟨sub, two⟩, rfl, unknown⟩
  · rintro ⟨part, length, unknown⟩
    exact ⟨⟨part.sublist, length⟩, unknown⟩

theorem nodup_layer : (P.layer size).Nodup :=
  (Subset.nodup_ofSize size P.distinct.nodup).filter _

theorem ends_openLayer (two : 2 ≤ size) (front : P.Front a workers e size t) :
    Ends a (openLayer workers P.root size) t
      (fun open' t' => open' = P.layer size ∧ t' = t ∧
        a.Tells (.layer (P.layer size).length size workers))
      (fun m => m = t.memo ∧ ¬ a.Tells (.layer (P.layer size).length size workers)) := by
  refine ends_bind ((ends_missing _).mono ?_)
  rintro _ t' ⟨rfl, rfl⟩
  have same : (Subset.ofSize size P.root).filter (fun xs => !t'.memo.knows xs) = P.layer size := by
    refine List.filter_congr fun xs member => ?_
    obtain ⟨sub, length⟩ := Subset.mem_ofSize.mp member
    rw [front.above xs ⟨sub, length ▸ two⟩ (Nat.le_of_eq length.symm)]
  rw [same]
  exact ends_report (fun untold => ⟨rfl, untold⟩) fun told => ends_done ⟨rfl, rfl, told⟩

/-! ### Solving a layer -/

/-- No task needs more turns than this. -/
def Bound (P : Problem) (n : Nat) : Prop :=
  ∀ xs, P.IsPart xs → P.table.knows xs = false →
    ∃ k ≤ n, P.Path xs (P.plan xs) .told .searching (P.effortOf xs) k (solve P.order xs xs)

theorem exists_bound (P : Problem) : ∃ n, P.Bound n ∧ P.parts.length ≤ n := by
  have paths (xs : List Relation) : ∃ k, P.IsPart xs → P.table.knows xs = false →
      P.Path xs (P.plan xs) .told .searching (P.effortOf xs) k (solve P.order xs xs) := by
    by_cases start : P.IsPart xs ∧ P.table.knows xs = false
    · obtain ⟨k, path⟩ := path_solve start.1 start.2
      exact ⟨k, fun _ _ => path⟩
    · exact ⟨0, fun part unknown => absurd ⟨part, unknown⟩ start⟩
  choose k path using paths
  refine ⟨(P.parts.map k).sum + P.parts.length, fun xs part unknown => ?_, Nat.le_add_left ..⟩
  have member : k xs ∈ P.parts.map k := List.mem_map_of_mem (mem_parts.mpr part)
  exact ⟨k xs, Nat.le_add_right_of_le (List.le_sum_of_mem member), path xs part unknown⟩

theorem exists_pool {m : Memo} (bound : P.Bound n) (layer : List (List Relation))
    (parts : ∀ xs ∈ layer, P.IsPart xs ∧ P.table.knows xs = false ∧ m.knows xs = false) :
    ∃ work turns, P.Pool a m layer work work turns (tasks P.order layer) ∧ ∀ k ∈ turns, k ≤ n := by
  induction layer with
  | nil => exact ⟨.zero, [], .nil, by simp⟩
  | cons xs layer ih =>
    obtain ⟨part, old, unknown⟩ := parts xs List.mem_cons_self
    obtain ⟨work, turns, pool, few⟩ := ih fun ys member => parts ys (List.mem_cons_of_mem xs member)
    obtain ⟨k, le, path⟩ := bound xs part old
    exact ⟨P.effortOf xs + work, k :: turns,
      .pending path (by simp [unknown]) (fun told => nomatch told) pool, by simpa [le] using few⟩

/-- When a layer starts, none of its parts is solved yet. -/
theorem Front.unsolved (front : P.Front a workers e size t) (two : 2 ≤ size) :
    ∀ xs ∈ P.layer size, P.IsPart xs ∧ P.table.knows xs = false ∧ t.memo.knows xs = false := by
  intro xs member
  obtain ⟨part, length, unknown⟩ := (mem_layer two).mp member
  have above := front.above xs part (Nat.le_of_eq length.symm)
  exact ⟨part, unknown, above.trans unknown⟩

/-- Every task of the layer gets a number of turns. -/
def Fair (n : Nat) (schedule : List Nat) : Prop := ∀ i < n, n ≤ schedule.count i

/-- What a layer comes to, whatever its schedule. -/
structure Turned (P : Problem) (a : Answerer) (workers : Value) (e : Effort) (size : Nat)
    (schedule : List Nat) (pool : List (Search Plan)) (s : State) : Prop where
  reached : P.Reached s.memo
  next : outcome pool = some (.ok ()) → P.Front a workers e (size + 1) s.standing
  failed : ∀ error, outcome pool = some (.error error) → ¬ P.Calm a
  fair : ∀ n, P.Bound n → P.parts.length ≤ n → P.Calm a → Fair n schedule →
    outcome pool = some (.ok ())

theorem Front.turned {s : State} (front : P.Front a workers e size s.standing)
    (agrees : a.model.Agrees P.est) (two : 2 ≤ size)
    (announced : a.Tells (.layer (P.layer size).length size workers)) (schedule : List Nat) :
    P.Turned a workers e size schedule (takeTurns a schedule (tasks P.order (P.layer size)) s).1
      (takeTurns a schedule (tasks P.order (P.layer size)) s).2 := by
  have parts : ∀ xs ∈ P.layer size,
      P.IsPart xs ∧ xs.length = size ∧ P.table.knows xs = false := fun xs => (mem_layer two).mp
  obtain ⟨n, bound, _⟩ := exists_bound P
  obtain ⟨work, turns, pool, _⟩ := exists_pool (a := a) bound (P.layer size) (front.unsolved two)
  obtain ⟨ahead', left', pool', kept⟩ :=
    pool.takeTurns agrees nodup_layer parts front.stage schedule
  refine ⟨kept.stage.reached, fun ok => ?_, fun error failed => pool'.not_calm failed, ?_⟩
  · obtain ⟨rfl, rfl, solved⟩ := pool'.done ok
    have inLayer xs (part : P.IsPart xs) (length : xs.length = size)
        (unknown : P.table.knows xs = false) := (mem_layer two).mpr ⟨part, length, unknown⟩
    refine ⟨⟨kept.stage.reached, fun xs part small => ?_⟩, fun xs part large => ?_,
      fun xs part small unknown => ?_, fun k few small => ?_, ?_⟩
    · rcases Nat.lt_succ_iff_lt_or_eq.mp small with small | length
      · exact kept.stage.below xs part small
      · cases known : P.table.knows xs with
        | true => exact kept.stage.reached.keeps.isSome known
        | false => exact (solved xs (inLayer xs part length known)).1
    -- Larger parts are not in this layer, so none of its tasks keeps a plan for them.
    · have outside : xs ∉ P.layer size := fun member => by
        have := (parts xs member).2.1
        omega
      rw [kept.others xs part outside]
      exact front.above xs part (by omega)
    · rcases Nat.lt_succ_iff_lt_or_eq.mp small with small | length
      · exact front.told xs part small unknown
      · exact (solved xs (inLayer xs part length unknown)).2
    · rcases Nat.lt_succ_iff_lt_or_eq.mp small with small | rfl
      · exact front.announced k few small
      · exact announced
    · have before := front.balance
      have balance := kept.balance
      simp only [Effort.ext_iff, Effort.subproblems_add, Effort.candidates_add,
        Effort.memoHits_add, Effort.zero] at before balance ⊢
      omega
  · intro n bound few calm fair
    -- The turns of a fair schedule are enough for any tasks on these paths.
    obtain ⟨work, turns, pool, le⟩ := exists_pool (a := a) bound (P.layer size)
      (front.unsolved two)
    obtain ⟨ahead', left', pool', kept⟩ :=
      pool.takeTurns agrees nodup_layer parts front.stage schedule
    refine pool'.outcome_ok calm fun k member => ?_
    obtain ⟨i, is⟩ := List.mem_iff_getElem?.mp member
    rw [getElem?_turnsAfter, Option.map_eq_some_iff] at is
    obtain ⟨l, whose, rfl⟩ := is
    have bounded := le l (List.mem_of_getElem? whose)
    have inside : i < n := by
      have := (List.getElem?_eq_some_iff.mp whose).1
      rw [pool.length_eq, tasks, List.length_map] at this
      have sub : (P.layer size).length ≤ P.parts.length :=
        (List.subperm_of_subset nodup_layer fun xs member =>
          mem_parts.mpr (parts xs member).1).length_le
      omega
    have := fair i inside
    omega

/-! ### All layers -/

/-- What the layered search comes to. -/
structure LayersEnd (P : Problem) (a : Answerer) (workers : Value) (e : Effort)
    (result : Except Error Plan) (s : State) : Prop where
  reached : P.Reached s.memo
  ok : ∀ p, result = .ok p → p = P.plan P.root ∧
    P.Front a workers e (P.root.length + 1) s.standing
  failed : ∀ error, result = .error error → ¬ (P.Calm a ∧ P.LayersTold a workers)

theorem Front.answer {s : State} (front : P.Front a workers e (P.root.length + 1) s.standing)
    (two : 2 ≤ P.root.length) :
    run a (readOut P.root) s = (.ok (P.plan P.root), s) := by
  obtain ⟨p, found⟩ := Option.isSome_iff_exists.mp (front.finished.all P.root ⟨.refl _, two⟩)
  have is := front.finished.reached.eq_plan (.refl _) found
  rw [readOut, run, show s.memo.find? _ = some p from found, is]
  rfl

theorem Front.allTold (front : P.Front a workers e (P.root.length + 1) t) :
    P.Told a ∧ P.LayersTold a workers :=
  ⟨fun xs part unknown => front.told xs part (Nat.lt_succ_of_le part.sublist.length_le) unknown,
    fun size two le => front.announced size two (Nat.lt_succ_of_le le)⟩

theorem layersBy_ends {s : State} (count : Nat) (front : P.Front a workers e size s.standing)
    (agrees : a.model.Agrees P.est) (two : 2 ≤ size) (all : size + count = P.root.length + 1)
    (many : 2 ≤ P.root.length) :
    (∀ result s', layersBy a P.order workers P.root schedules (List.range' size count) s =
        some (result, s') → P.LayersEnd a workers e result s') ∧
      (∀ n, P.Bound n → P.parts.length ≤ n → P.Calm a → P.LayersTold a workers →
        (∀ size, Fair n (schedules size)) →
        (layersBy a P.order workers P.root schedules (List.range' size count) s).isSome) := by
  induction count generalizing size s with
  | zero =>
    rw [Nat.add_zero] at all
    subst all
    rw [List.range'_zero, layersBy, front.answer many]
    refine ⟨?_, fun _ _ _ _ _ _ => rfl⟩
    rintro result s' ⟨⟩
    exact ⟨front.stage.reached, fun p ok => ⟨(Except.ok.inj ok).symm, front⟩,
      fun error failed => by contradiction⟩
  | succ count ih =>
    rw [List.range'_succ, layersBy]
    have opening := ends_openLayer two front s rfl
    generalize run a (openLayer workers P.root size) s = opened at opening ⊢
    obtain ⟨answer, s₁⟩ := opened
    cases answer with
    | error error =>
      obtain ⟨memo, untold⟩ := opening
      have silent : ¬ P.LayersTold a workers := fun told => untold (told size two (by omega))
      refine ⟨?_, fun _ _ _ _ told => absurd told silent⟩
      rintro result s' ⟨⟩
      exact ⟨memo ▸ front.stage.reached, fun p ok => by contradiction,
        fun _ _ calm => silent calm.2⟩
    | ok layer =>
      obtain ⟨rfl, same, announced⟩ := opening
      have turned := (same ▸ front : P.Front a workers e size s₁.standing).turned agrees two
        announced (schedules size)
      dsimp only
      cases result : outcome (takeTurns a (schedules size) (tasks P.order (P.layer size)) s₁).1 with
      | none =>
        refine ⟨fun _ _ none => by contradiction, fun n bound few calm _ fair => ?_⟩
        have := turned.fair n bound few calm (fair size)
        rw [result] at this
        contradiction
      | some ended =>
        cases ended with
        | error error =>
          have stopped := turned.failed error result
          refine ⟨?_, fun _ _ _ calm => absurd calm stopped⟩
          rintro _ _ ⟨⟩
          exact ⟨turned.reached, fun p ok => by contradiction, fun _ _ calm => stopped calm.1⟩
        | ok => exact ih (turned.next result) (by omega) (by omega)

/-- The layered search finds the plan that has to be found under every schedule that lets it end. -/
theorem solveLayersBy_ends {s : State} {result : Except Error Plan} {s' : State}
    (start : s.standing = ⟨P.table, e⟩) (agrees : a.model.Agrees P.est) (many : 2 ≤ P.root.length)
    (h : solveLayersBy a P.order workers P.root schedules s = some (result, s')) :
    P.LayersEnd a workers e result s' := by
  have front : P.Front a workers e 2 s.standing := start ▸ front_table
  exact (layersBy_ends (P.root.length - 1) front agrees le_rfl (by omega) many).1 result s' h

/-- Schedules that give every task enough turns let the layered search end. -/
theorem exists_fair {s : State} (start : s.standing = ⟨P.table, e⟩) (calm : P.Calm a)
    (told : P.LayersTold a workers) (many : 2 ≤ P.root.length) :
    ∃ n, ∀ schedules, (∀ size, Fair n (schedules size)) →
      (solveLayersBy a P.order workers P.root schedules s).isSome := by
  have front : P.Front a workers e 2 s.standing := start ▸ front_table
  obtain ⟨n, bound, few⟩ := exists_bound P
  exact ⟨n, fun schedules fair => (layersBy_ends (P.root.length - 1) front calm.estimates.agrees
    le_rfl (by omega) many).2 n bound few calm told fair⟩

end Problem

end JoinOrder
