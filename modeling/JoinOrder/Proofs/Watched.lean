import JoinOrder.Proofs.Accounts
/-!
The accounts of whole searches, recursive or layered, from any table that is filled. The tasks of one
layer have different keys, and all smaller sets have plans before they begin, so each of them keeps a
plan for its own set alone.
-/

namespace JoinOrder

theorem eq_of_keyOf {xs ys zs : List Relation} (distinct : Distinct zs) (hx : xs.Sublist zs)
    (hy : ys.Sublist zs) (same : keyOf xs = keyOf ys) : xs = ys := by
  apply distinct.eq_of_sublist hx hy
  intro a
  rw [← mem_keyOf, same, mem_keyOf]

namespace Search

variable {met : Relation → Prop} {order : Order} {mine : Set (List Atom)} {α : Type} {a : Answerer}
  {ok : α → Notes → Prop} {m : Memo} {n : Notes} {s : State} {w : Watch Plan}
  {relations source : List Relation} {added : List Memo.Entry} {debt : Debt}

/-- What a watched search for relations comes to. -/
structure Watch.Accounts (met : Relation → Prop) (order : Order) (relations : List Relation)
    (s : State) (w : Watch Plan) (added : List Memo.Entry) (debt : Debt) : Prop where
  filled : w.state.memo.Filled met
  account : Account order s .zero w.events added w.state debt
  rests : w.atRest = true → debt.subproblems = 0 ∧ debt.candidates = 0
  ok : ∀ p, w.result = .ok p → debt = .zero ∧ p.Covers met (keyOf relations) ∧
    (2 ≤ relations.length → w.state.memo.Has (keyOf relations))

/-- What is known of a table at the start. -/
def Notes.start (m : Memo) : Notes := ⟨{ k | m.Has k }, ∅, 0, none⟩

theorem fits_start : (Notes.start m).Fits mine m where
  known := fun _ member => member
  opened := fun _ none => none.elim

theorem spans_start : (Notes.start m).Spans Set.univ relations := fun _ _ _ => .inr trivial

theorem due_of_hasEnded {x : Search α} (last : x.hasEnded = true)
    (h : Conduct met order mine x n ok) : n.due = none := by
  cases x with
  | done v => exact h.1
  | fail e => exact h
  | _ => exact nomatch last

theorem debt_of_due (free : n.due = none) : n.debt = ⟨0, 0, n.tried⟩ := by
  simp [Notes.debt, free]

/-! ### The recursive search -/

theorem watch_accounts (distinct : Distinct relations)
    (valid : ∀ r ∈ relations, met r ∧ r.IsCounted) (same : keyOf source = keyOf relations)
    (integer : a.model.IsInteger) (filled : s.memo.Filled met) :
    ∃ added debt, (watch a (solve order source relations) s).Accounts met order relations s added
      debt := by
  have conduct : Conduct met order Set.univ (solve order source relations) (.start s.memo)
      (Delivers met relations (.start s.memo)) :=
    conduct_solveWithin relations.length distinct valid same spans_start rfl
  obtain ⟨n', added, goes⟩ := conduct.run integer fits_start filled
  have free := debt_of_due (due_of_hasEnded (hasEnded_ended _) goes.conduct)
  refine ⟨added, n'.debt, goes.filled, goes.account, fun _ => ?_, fun p result => ?_⟩
  · rw [free]
    exact ⟨rfl, rfl⟩
  · have delivers : Delivers met relations (.start s.memo) p n' := by
      have post := goes.conduct
      rw [show (run a (solve order source relations) s).1 = .ok p from result] at post
      exact post.2
    refine ⟨?_, delivers.covers, fun two => goes.fits.known _ (delivers.known two)⟩
    rw [free, delivers.onward.tried]
    rfl

/-! ### One layer -/

/-- The key of one set of a layer. -/
def keysAt (layer : List (List Relation)) (i : Nat) : Set (List Atom) :=
  { k | ∃ xs, layer[i]? = some xs ∧ k = keyOf xs }

theorem disjoint_keysAt {layer : List (List Relation)} {size : Nat} (distinct : Distinct relations)
    (sub : layer.Sublist (Subset.ofSize size relations)) :
    Pairwise fun i j => Disjoint (keysAt layer i) (keysAt layer j) := by
  intro i j different
  apply Set.disjoint_left.mpr
  rintro k ⟨xs, first, rfl⟩ ⟨ys, second, same⟩
  have inside (zs : List Relation) (member : zs ∈ layer) : zs.Sublist relations :=
    (Subset.mem_ofSize.mp (sub.subset member)).1
  have equal := eq_of_keyOf distinct (inside xs (List.mem_of_getElem? first))
    (inside ys (List.mem_of_getElem? second)) same
  have nodup : layer.Nodup := sub.nodup (Subset.nodup_ofSize size distinct.nodup)
  rw [equal, ← second] at first
  have before : i < layer.length := by
    by_contra outside
    rw [List.getElem?_eq_none (Nat.le_of_not_lt outside), second] at first
    exact nomatch first
  exact different ((List.getElem?_inj before nodup).mp first)

/-- All sets that are smaller than this have plans. -/
def Below (relations : List Relation) (size : Nat) (m : Memo) : Prop :=
  ∀ ys, ys.Sublist relations → 2 ≤ ys.length → ys.length < size → m.Has (keyOf ys)

/-- What each task of a layer comes to. -/
def TaskEnds (met : Relation → Prop) (layer : List (List Relation)) (m : Memo) (i : Nat) (p : Plan)
    (n' : Notes) : Prop :=
  ∀ xs, layer[i]? = some xs → Delivers met xs (.start m) p n'

variable {layer : List (List Relation)} {size : Nat}

theorem crowd_tasks (distinct : Distinct relations) (valid : ∀ r ∈ relations, met r ∧ r.IsCounted)
    (sub : layer.Sublist (Subset.ofSize size relations)) (below : Below relations size m) :
    Crowd met order (keysAt layer) (TaskEnds met layer m) (fun _ => .start m) (tasks order layer)
      m := by
  constructor
  · intro i x whose
    obtain ⟨xs, first, rfl⟩ := Option.map_eq_some_iff.mp ((List.getElem?_map ..).symm.trans whose)
    obtain ⟨inside, length⟩ := Subset.mem_ofSize.mp (sub.subset (List.mem_of_getElem? first))
    have spans : (Notes.start m).Spans (keysAt layer i) xs := by
      intro ys part two
      rcases Nat.lt_or_ge ys.length size with small | large
      · exact .inl (below ys (part.trans inside) two small)
      · rw [part.eq_of_length_le (length ▸ large)]
        exact .inr ⟨xs, first, rfl⟩
    apply (conduct_solveWithin xs.length (distinct.sublist inside)
      (fun r member => valid r (inside.subset member)) rfl spans rfl).mono
    intro p n' delivers ys whose
    rw [first] at whose
    cases whose
    exact delivers
  · intro i
    exact fits_start

variable {owned : Nat → Set (List Atom)} {goal : Nat → Plan → Notes → Prop} {notes : Nat → Notes}
  {pool : List (Search Plan)} {schedule : List Nat}

/-- Tasks that have ended owe nothing, and those that have not begun owe nothing yet. -/
theorem Crowd.rests (crowd : Crowd met order owned goal notes pool m)
    (others : ∀ i, i ∉ schedule → (notes i).due = none) (still : rests schedule pool = true) :
    (debtOf notes pool.length).subproblems = 0 ∧ (debtOf notes pool.length).candidates = 0 := by
  have free : ∀ i ∈ Finset.range pool.length, (notes i).due = none := by
    intro i member
    by_cases begun : i ∈ schedule
    · have whose := List.getElem?_eq_getElem (Finset.mem_range.mp member)
      have last := List.all_eq_true.mp still i begun
      rw [whose] at last
      exact due_of_hasEnded last (crowd.conduct i _ whose)
    · exact others i begun
  constructor
  · change ∑ i ∈ Finset.range pool.length, (notes i).debt.subproblems = 0
    apply Finset.sum_eq_zero
    intro i member
    rw [debt_of_due (free i member)]
  · change ∑ i ∈ Finset.range pool.length, (notes i).debt.candidates = 0
    apply Finset.sum_eq_zero
    intro i member
    rw [debt_of_due (free i member)]

/-- A layer that is done owes nothing, and all its sets have plans. -/
theorem Crowd.done {start : Memo}
    (crowd : Crowd met order owned (TaskEnds met layer start) notes pool m)
    (length : pool.length = layer.length) (ok : outcome pool = some (.ok ())) :
    debtOf notes pool.length = .zero ∧
      ∀ xs ∈ layer, 2 ≤ xs.length → m.Has (keyOf xs) := by
  have ends (i : Nat) (inside : i < pool.length) (xs : List Relation) (whose : layer[i]? = some xs) :
      ∃ p, (notes i).due = none ∧ Delivers met xs (.start start) p (notes i) := by
    obtain ⟨p, is⟩ := exists_done ok (List.getElem?_eq_getElem inside)
    have conduct := crowd.conduct i _ (List.getElem?_eq_getElem inside)
    rw [is] at conduct
    exact ⟨p, conduct.1, conduct.2 xs whose⟩
  constructor
  · have none : ∀ i ∈ Finset.range pool.length, (notes i).debt = .zero := by
      intro i member
      have inside := Finset.mem_range.mp member
      have whose := List.getElem?_eq_getElem (length ▸ inside)
      obtain ⟨p, free, delivers⟩ := ends i inside _ whose
      rw [debt_of_due free, delivers.onward.tried]
      rfl
    have sum (f : Debt → Nat) (zero : f .zero = 0) :
        ∑ i ∈ Finset.range pool.length, f (notes i).debt = 0 := by
      apply Finset.sum_eq_zero
      intro i member
      rw [none i member, zero]
    simp only [debtOf, sum Debt.subproblems rfl, sum Debt.candidates rfl, sum Debt.tried rfl,
      Debt.zero]
  · intro xs member two
    obtain ⟨i, whose⟩ := List.mem_iff_getElem?.mp member
    have inside : i < pool.length := length ▸ (List.getElem?_eq_some_iff.mp whose).1
    obtain ⟨p, _, delivers⟩ := ends i inside xs whose
    exact (crowd.fits i).known _ (delivers.known two)

theorem debtOf_start (m : Memo) (count : Nat) : debtOf (fun _ => .start m) count = .zero := by
  simp [debtOf, Notes.start, Notes.debt, Debt.zero]

/-- The account of the tasks of a layer under a schedule. -/
theorem tasks_account (distinct : Distinct relations) (valid : ∀ r ∈ relations, met r ∧ r.IsCounted)
    (sub : layer.Sublist (Subset.ofSize size relations)) (below : Below relations size s.memo)
    (integer : a.model.IsInteger) (filled : s.memo.Filled met) (schedule : List Nat)
    {pool : List (Search Plan)} {s' : State}
    (turned : takeTurns a schedule (tasks order layer) s = (pool, s')) :
    ∃ added debt, s'.memo.Filled met ∧
      Account order s .zero (turnsTrace a schedule (tasks order layer) s) added s' debt ∧
      (rests schedule pool = true → debt.subproblems = 0 ∧ debt.candidates = 0) ∧
      (outcome pool = some (.ok ()) → debt = .zero ∧
        ∀ xs ∈ layer, 2 ≤ xs.length → s'.memo.Has (keyOf xs)) := by
  have lengths := length_takeTurns (a := a) schedule (tasks order layer) s
  obtain ⟨notes, added, crowd, filled', account, others⟩ :=
    (crowd_tasks distinct valid sub below).takeTurns (disjoint_keysAt distinct sub) integer filled
      schedule
  rw [debtOf_start, ← lengths] at account
  rw [turned] at lengths crowd filled' account
  refine ⟨added, _, filled', account, fun still => ?_, fun ok => ?_⟩
  · apply crowd.rests _ still
    intro i outside
    rw [others i outside]
    rfl
  · apply crowd.done _ ok
    rw [lengths, tasks, List.length_map]

/-! ### All layers -/

/-- What comes before a search belongs to its account. -/
theorem Watch.Accounts.after {s₁ : State} {before : List Event} {others : List Memo.Entry}
    (h : w.Accounts met order relations s₁ added debt)
    (first : Account order s .zero before others s₁ .zero) :
    (w.after before).Accounts met order relations s (added ++ others) debt where
  filled := h.filled
  account := first.trans h.account
  rests := h.rests
  ok := h.ok

theorem watch_readOut (integer : a.model.IsInteger) (filled : s.memo.Filled met) :
    ∃ added debt, (watch a (readOut relations) s).Accounts met order relations s added debt := by
  have conduct : Conduct met order ∅ (readOut relations) (.start s.memo) _ := conduct_readOut rfl
  obtain ⟨n', added, goes⟩ := conduct.run integer fits_start filled
  have free := debt_of_due (due_of_hasEnded (hasEnded_ended _) goes.conduct)
  refine ⟨added, n'.debt, goes.filled, goes.account, fun _ => ?_, fun p result => ?_⟩
  · rw [free]
    exact ⟨rfl, rfl⟩
  · have post := goes.conduct
    rw [show (run a (readOut relations) s).1 = .ok p from result] at post
    obtain ⟨_, covers, onward, known⟩ := post
    refine ⟨?_, covers, fun _ => goes.fits.known _ known⟩
    rw [free, onward.tried]
    rfl

/-- Opening a layer asks for nothing and keeps nothing. Every set of its size has a plan or a task. -/
theorem openLayer_account (order : Order) {workers : Value} (integer : a.model.IsInteger)
    (filled : s.memo.Filled met) {result : Except Error (List (List Relation))} {s' : State}
    (opened : run a (openLayer workers relations size) s = (result, s')) :
    ∃ added, s'.memo.Filled met ∧
      (∃ debt, Account order s .zero (trace a (openLayer workers relations size) s) added s' debt ∧
        debt.subproblems = 0 ∧ debt.candidates = 0 ∧ (∀ layer, result = .ok layer → debt = .zero)) ∧
      ∀ layer, result = .ok layer → layer.Sublist (Subset.ofSize size relations) ∧
        ∀ ys ∈ Subset.ofSize size relations, s'.memo.Has (keyOf ys) ∨ ys ∈ layer := by
  have conduct : Conduct met order ∅ (openLayer workers relations size) (.start s.memo) _ :=
    conduct_openLayer rfl
  obtain ⟨n', added, goes⟩ := conduct.run integer fits_start filled
  have free := debt_of_due (due_of_hasEnded (hasEnded_ended _) goes.conduct)
  rw [opened] at goes
  have account := goes.account
  rw [free] at account
  refine ⟨added, goes.filled, ⟨_, account, rfl, rfl, ?_⟩, ?_⟩
  · rintro layer rfl
    rw [goes.conduct.2.2.2.tried]
    rfl
  · rintro layer rfl
    obtain ⟨_, sub, split, _⟩ := goes.conduct
    exact ⟨sub, fun ys member => (split ys member).imp_left (goes.fits.known _)⟩

/-- Once the sets of a layer have plans, there is nothing left to do below the next one. -/
theorem Below.succ {layer : List (List Relation)} {m m' : Memo} (below : Below relations size m)
    (stays : ∀ k, m.Has k → m'.Has k)
    (split : ∀ ys ∈ Subset.ofSize size relations, m.Has (keyOf ys) ∨ ys ∈ layer)
    (known : ∀ ys ∈ layer, 2 ≤ ys.length → m'.Has (keyOf ys)) : Below relations (size + 1) m' := by
  intro ys inside two small
  rcases Nat.lt_succ_iff_lt_or_eq.mp small with small | length
  · exact stays _ (below ys inside two small)
  · rcases split ys (Subset.mem_ofSize.mpr ⟨inside, length⟩) with old | member
    · exact stays _ old
    · exact known ys member two

/-- Layers from one size on, where all smaller sets have plans. -/
theorem watchLayers_accounts {workers : Value} {schedules : Nat → List Nat}
    (distinct : Distinct relations) (valid : ∀ r ∈ relations, met r ∧ r.IsCounted)
    (integer : a.model.IsInteger) (count : Nat) (below : Below relations size s.memo)
    (filled : s.memo.Filled met)
    (h : watchLayers a order workers relations schedules (List.range' size count) s = some w) :
    ∃ added debt, w.Accounts met order relations s added debt := by
  induction count generalizing size s w with
  | zero =>
    cases h
    exact watch_readOut integer filled
  | succ count ih =>
    rw [List.range'_succ, watchLayers] at h
    generalize opened : run a (openLayer workers relations size) s = answered at h
    obtain ⟨answer, s₁⟩ := answered
    cases answer with
    | error e =>
      obtain ⟨added, filled₁, ⟨debt, account, none, none', _⟩, _⟩ :=
        openLayer_account order integer filled opened
      cases h
      exact ⟨added, debt, filled₁, account, fun _ => ⟨none, none'⟩, by rintro p ⟨⟩⟩
    | ok layer =>
      obtain ⟨added, filled₁, ⟨debt, first, _, _, zero⟩, split⟩ :=
        openLayer_account order integer filled opened
      obtain ⟨sub, split⟩ := split layer rfl
      rw [zero layer rfl] at first
      have below₁ : Below relations size s₁.memo := fun ys inside two small =>
        (first.has _).mpr (.inl (below ys inside two small))
      dsimp only at h
      generalize turned : takeTurns a (schedules size) (tasks order layer) s₁ = after at h
      obtain ⟨pool, s₂⟩ := after
      obtain ⟨added₂, debt₂, filled₂, second, still, done⟩ :=
        tasks_account distinct valid sub below₁ integer filled₁ (schedules size) turned
      have both := first.trans second
      dsimp only at h
      cases ended : outcome pool with
      | none =>
        rw [ended] at h
        cases h
      | some result =>
        rw [ended] at h
        cases result with
        | error e =>
          cases h
          exact ⟨_, debt₂, filled₂, both, still, by rintro p ⟨⟩⟩
        | ok =>
          obtain ⟨rfl, known⟩ := done ended
          obtain ⟨w', rest, rfl⟩ := Option.map_eq_some_iff.mp h
          have below₂ : Below relations (size + 1) s₂.memo :=
            below₁.succ (fun k has => (second.has k).mpr (.inl has)) split known
          obtain ⟨added₃, debt, accounts⟩ := ih below₂ filled₂ rest
          exact ⟨_, debt, accounts.after both⟩

end Search

end JoinOrder
