import JoinOrder.Proofs.Turns
/-!
When a search reads its clock, and what comes of that. The clock is read once for every set that is
solved, before the work on it begins. Otherwise a search with a deadline does what it would do without
one. So either it comes to the same, or one of the readings that this takes is late.
-/

namespace JoinOrder

namespace Deadline

def error (d : Deadline) : Error := .timedOut d.limit.shown

/-- One of so many readings is late. -/
def Missed (d : Deadline) (clock : Clock) (first count : Nat) : Prop :=
  ∃ i < count, d.isOver (clock (first + i)) = true

variable {d : Deadline} {clock : Clock} {first m n : Nat}

theorem not_missed_zero : ¬ d.Missed clock first 0 := fun ⟨i, before, _⟩ => Nat.not_lt_zero i before

theorem missed_one : d.Missed clock first 1 ↔ d.isOver (clock first) = true := by
  simp [Missed]

theorem missed_add : d.Missed clock first (m + n) ↔
    d.Missed clock first m ∨ d.Missed clock (first + m) n := by
  constructor
  · rintro ⟨i, before, late⟩
    by_cases early : i < m
    · exact .inl ⟨i, early, late⟩
    · obtain ⟨j, rfl⟩ : ∃ j, i = m + j := Nat.exists_eq_add_of_le (Nat.le_of_not_lt early)
      refine .inr ⟨j, by omega, ?_⟩
      rwa [Nat.add_assoc]
  · rintro (⟨i, before, late⟩ | ⟨i, before, late⟩)
    · exact ⟨i, by omega, late⟩
    · exact ⟨m + i, by omega, by rwa [← Nat.add_assoc]⟩

theorem missed_succ : d.Missed clock first (n + 1) ↔
    d.isOver (clock first) = true ∨ d.Missed clock (first + 1) n := by
  rw [Nat.add_comm, missed_add, missed_one]

end Deadline

namespace Search

def Answerer.untimed (a : Answerer) : Answerer := { a with deadline := none }

/-- The same state, some readings later. -/
def State.later (s : State) (n : Nat) : State := { s with readings := s.readings + n }

variable {α β : Type} {a : Answerer} {d : Deadline} {x : Search α} {s s' : State}
  {i j k m n : Nat} {pool pool' : List (Search α)}

theorem readings_later : (s.later n).readings = s.readings + n := rfl

theorem later_later : (s.later m).later n = s.later (m + n) := by
  simp only [State.later, Nat.add_assoc]

/-! ### One request -/

theorem step_checkTime {next : Search α} (timed : a.deadline = some d) :
    step a (checkTime next) s =
      (if d.isOver (a.clock s.readings) then fail d.error else next, s.later 1) := by
  rw [step, timed]
  by_cases late : d.isOver (a.clock s.readings) = true
  · simp only [late, if_true]
    rfl
  · simp only [late]
    rfl

/-- To all other requests, neither the time nor how often it was asked for matters. -/
theorem step_other (other : ∀ next, x ≠ checkTime next) (s : State) :
    ∃ y memo effort asked log, ∀ clock deadline readings,
      step { a with clock, deadline } x { s with readings } =
        (y, ⟨memo, effort, asked, readings, log⟩) := by
  cases x with
  | done | fail => exact ⟨_, _, _, _, _, fun _ _ _ => rfl⟩
  | consult K next => exact ⟨next (s.memo.find? K), _, _, _, _, fun _ _ _ => rfl⟩
  | checkTime next => exact absurd rfl (other next)
  | count work next => exact ⟨next, _, s.effort.add work, _, _, fun _ _ _ => rfl⟩
  | record source plan next =>
    simp only [step]
    cases s.memo.store (SlotTable.ofList source).members plan <;>
      exact ⟨_, _, _, _, _, fun _ _ _ => rfl⟩
  | join left right next =>
    simp only [step]
    cases Plan.joinWith a.model s.asked left right <;> exact ⟨_, _, _, _, _, fun _ _ _ => rfl⟩
  | report progress next =>
    by_cases told : a.verbose = true
    · simp only [step, told, if_true]
      cases progress.message with
      | error e => exact ⟨_, _, _, _, _, fun _ _ _ => rfl⟩
      | ok items =>
        dsimp only
        cases (MessageLayout.default.write items).output.2 <;>
          exact ⟨_, _, _, _, _, fun _ _ _ => rfl⟩
    · simp only [step, told]
      exact ⟨_, _, _, _, _, fun _ _ _ => rfl⟩

theorem step_later (other : ∀ next, x ≠ checkTime next) (n : Nat) :
    step a x (s.later n) = ((step a.untimed x s).1, (step a.untimed x s).2.later n) := by
  obtain ⟨y, memo, effort, asked, log, same⟩ := step_other (a := a) other s
  have timed : step a x (s.later n) = (y, _) := same a.clock a.deadline (s.readings + n)
  have untimed : step a.untimed x s = (y, _) := same a.clock none s.readings
  rw [timed, untimed]
  rfl

/-- Without a deadline, nobody reads the clock. -/
theorem readings_step (x : Search α) (s : State) :
    (step a.untimed x s).2.readings = s.readings := by
  by_cases check : ∃ next, x = checkTime next
  · obtain ⟨next, rfl⟩ := check
    rfl
  · obtain ⟨y, memo, effort, asked, log, same⟩ := step_other (a := a) (not_exists.mp check) s
    have untimed : step a.untimed x s = (y, _) := same a.clock none s.readings
    rw [untimed]

/-- Every reading of the clock leads to one set that is solved. The numbers say for how many sets the
clock was read that are not solved yet, before a search and after it. -/
def Paced : Search α → Nat → Nat → Prop
  | done _, before, after => before = after
  | fail _, _, _ => True
  | consult _ next, before, after => ∀ known, Paced (next known) before after
  | record _ _ next, before, after => Paced next before after
  | join _ _ next, before, after => ∀ plan, Paced (next plan) before after
  | checkTime next, before, after => Paced next (before + 1) after
  | count .subproblem next, before, after => ∃ rest, before = rest + 1 ∧ Paced next rest after
  | count _ next, before, after => Paced next before after
  | report _ next, before, after => Paced next before after

theorem Paced.bind {f : α → Search β} (h : Paced x i j) (h' : ∀ v, Paced (f v) j k) :
    Paced (x.bind f) i k := by
  induction x generalizing i with
  | done v =>
    cases h
    exact h' v
  | fail e => trivial
  | consult K next ih => exact fun known => ih known (h known)
  | record source plan next ih => exact ih h
  | join left right next ih => exact fun plan => ih plan (h plan)
  | checkTime next ih => exact ih h
  | count work next ih =>
    cases work with
    | subproblem =>
      obtain ⟨rest, is, h⟩ := h
      exact ⟨rest, is, ih h⟩
    | candidate => exact ih h
    | memoHit => exact ih h
  | report progress next ih => exact ih h

/-- Other requests than those for the time only move sets from one number to the other. -/
theorem Paced.step (h : Paced x i k) (other : ∀ next, x ≠ checkTime next) (s : State) :
    ∃ j, Paced (step a x s).1 j k ∧
      (step a x s).2.effort.subproblems + j = s.effort.subproblems + i := by
  cases x with
  | done | fail => exact ⟨i, h, rfl⟩
  | consult K next => exact ⟨i, h _, rfl⟩
  | checkTime next => exact absurd rfl (other next)
  | count work next =>
    cases work with
    | subproblem =>
      obtain ⟨rest, rfl, h⟩ := h
      exact ⟨rest, h, Nat.add_right_comm ..⟩
    | candidate => exact ⟨i, h, rfl⟩
    | memoHit => exact ⟨i, h, rfl⟩
  | record source plan next =>
    rw [Search.step]
    cases s.memo.store (SlotTable.ofList source).members plan with
    | error e => exact ⟨i, trivial, rfl⟩
    | ok memo => exact ⟨i, h, rfl⟩
  | join left right next =>
    rw [Search.step]
    cases Plan.joinWith a.model s.asked left right with
    | error e => exact ⟨i, trivial, rfl⟩
    | ok plan => exact ⟨i, h plan, rfl⟩
  | report progress next =>
    rw [Search.step]
    by_cases told : a.verbose = true
    · simp only [told, if_true]
      cases progress.message with
      | error e => exact ⟨i, trivial, rfl⟩
      | ok items =>
        dsimp only
        cases (MessageLayout.default.write items).output.2 with
        | error e => exact ⟨i, trivial, rfl⟩
        | ok => exact ⟨i, h, rfl⟩
    · simp only [told]
      exact ⟨i, h, rfl⟩

/-! ### A run -/

theorem run_checkTime {next : Search α} (timed : a.deadline = some d) :
    run a (checkTime next) s =
      if d.isOver (a.clock s.readings) then (.error d.error, s.later 1)
      else run a next (s.later 1) := by
  rw [run, timed]
  rfl

theorem readings_run (x : Search α) (s : State) : (run a.untimed x s).2.readings = s.readings := by
  induction x, s using step_induction (a := a.untimed) with
  | done v s => rfl
  | fail e s => rfl
  | turn x s ih => rw [← run_step, ih, readings_step]

theorem Paced.run_later {v : α} (h : Paced x i j) (timed : a.deadline = some d)
    (ran : run a.untimed x s = (.ok v, s')) (k : Nat) :
    ∃ n, s'.effort.subproblems + j = s.effort.subproblems + i + n ∧
      (d.Missed a.clock (s.readings + k) n → (run a x (s.later k)).1 = .error d.error) ∧
      (¬ d.Missed a.clock (s.readings + k) n →
        run a x (s.later k) = (.ok v, s'.later (k + n))) := by
  induction x, s using step_induction (a := a.untimed) generalizing i k with
  | done w s =>
    cases ran
    cases h
    exact ⟨0, rfl, fun missed => absurd missed Deadline.not_missed_zero, fun _ => rfl⟩
  | fail e s => cases ran
  | turn x s ih =>
    rw [← run_step] at ran
    by_cases check : ∃ next, x = checkTime next
    · obtain ⟨next, rfl⟩ := check
      obtain ⟨n, account, late, inTime⟩ := @ih (i + 1) h ran (k + 1)
      change s'.effort.subproblems + j = s.effort.subproblems + (i + 1) + n at account
      refine ⟨n + 1, by omega, ?_⟩
      rw [run_checkTime timed, readings_later, later_later, Deadline.missed_succ]
      by_cases expired : d.isOver (a.clock (s.readings + k)) = true
      · rw [if_pos expired]
        exact ⟨fun _ => rfl, fun missed => absurd (.inl expired) missed⟩
      · rw [if_neg expired, or_iff_right expired, Nat.add_comm n, ← Nat.add_assoc k]
        exact ⟨late, inTime⟩
    · have other := not_exists.mp check
      obtain ⟨i', h', moved⟩ := h.step other s
      obtain ⟨n, account, rest⟩ := ih h' ran k
      rw [readings_step] at rest
      refine ⟨n, by omega, ?_⟩
      rw [← run_step, step_later other]
      exact rest

/-- A search that would come to a result without a deadline still does, if no reading on the way is
late. Otherwise it comes to nothing. -/
theorem Paced.run {v : α} (h : Paced x i j) (timed : a.deadline = some d)
    (ran : run a.untimed x s = (.ok v, s')) :
    ∃ n, s'.effort.subproblems + j = s.effort.subproblems + i + n ∧
      (d.Missed a.clock s.readings n → (run a x s).1 = .error d.error) ∧
      (¬ d.Missed a.clock s.readings n → run a x s = (.ok v, s'.later n)) := by
  obtain ⟨n, account, late, inTime⟩ := h.run_later timed ran 0
  rw [Nat.zero_add] at inTime
  exact ⟨n, account, late, inTime⟩

/-! ### Taking turns -/

/-- The searches of a pool, with the sets for which the clock was read and that are not solved yet. -/
inductive PacedPool {α : Type} : List (Search α) → Nat → Prop
  | nil : PacedPool [] 0
  | cons {x : Search α} {pool : List (Search α)} {i j : Nat} (h : Paced x i 0)
      (rest : PacedPool pool j) : PacedPool (x :: pool) (i + j)

/-- Each search of a pool has its share. -/
theorem PacedPool.share (h : PacedPool pool n) (whose : pool[k]? = some x) :
    ∃ i j, n = i + j ∧ Paced x i 0 ∧
      ∀ y i', Paced y i' 0 → PacedPool (pool.set k y) (i' + j) := by
  induction h generalizing k with
  | nil => exact nomatch whose
  | @cons z pool i j first rest ih =>
    cases k with
    | zero =>
      cases whose
      exact ⟨i, j, rfl, first, fun y i' h => .cons h rest⟩
    | succ k =>
      obtain ⟨i₁, j₁, rfl, paced, others⟩ := ih whose
      refine ⟨i₁, i + j₁, Nat.add_left_comm .., paced, fun y i' h => ?_⟩
      rw [Nat.add_left_comm]
      exact .cons first (others y i' h)

theorem PacedPool.eq_zero (h : PacedPool pool n) (ok : Search.outcome pool = some (.ok ())) : n = 0 := by
  induction h with
  | nil => rfl
  | cons first _ ih =>
    obtain ⟨⟨v, rfl⟩, ok⟩ := outcome_cons_ok ok
    rw [ih ok]
    exact first

/-- A search that has failed stays as it is. -/
theorem takeTurns_fail {e : Error} (schedule : List Nat) (failed : pool[k]? = some (fail e)) :
    (takeTurns a schedule pool s).1[k]? = some (fail e) := by
  induction schedule generalizing pool s with
  | nil => exact failed
  | cons i schedule ih =>
    rw [takeTurns]
    cases whose : pool[i]? with
    | none => exact ih failed
    | some x =>
      apply ih
      by_cases same : i = k
      · subst same
        rw [failed] at whose
        cases whose
        rw [List.getElem?_set_self (List.getElem?_eq_some_iff.mp failed).1]
        rfl
      · rwa [List.getElem?_set_ne same]

/-- Once all searches of a pool are done, nothing happens any more. -/
theorem takeTurns_done (schedule : List Nat) (ok : outcome pool = some (.ok ())) :
    takeTurns a schedule pool s = (pool, s) := by
  induction schedule with
  | nil => rfl
  | cons i schedule ih =>
    rw [takeTurns]
    cases whose : pool[i]? with
    | none => exact ih
    | some x =>
      obtain ⟨v, rfl⟩ := exists_done ok whose
      have same : pool.set i (done v) = pool := by
        rw [List.getElem?_eq_some_iff] at whose
        obtain ⟨inside, is⟩ := whose
        rw [← is, List.set_getElem_self]
      change takeTurns a schedule (pool.set i (done v)) s = _
      rw [same]
      exact ih

theorem exists_outcome_error {e : Error} (failed : pool[k]? = some (fail e)) :
    ∃ e', outcome pool = some (.error e') := by
  induction pool generalizing k with
  | nil => exact nomatch failed
  | cons x pool ih =>
    cases k with
    | zero =>
      cases failed
      exact ⟨e, rfl⟩
    | succ k =>
      obtain ⟨e', is⟩ := ih failed
      cases x with
      | fail e => exact ⟨e, rfl⟩
      | _ => exact ⟨e', by simp only [outcome, is]⟩

theorem mem_of_outcome_error {e : Error} (failed : outcome pool = some (.error e)) :
    fail e ∈ pool := by
  induction pool with
  | nil => exact nomatch failed
  | cons x pool ih =>
    rcases outcome_cons_error failed with rfl | failed
    · exact List.mem_cons_self
    · exact List.mem_cons_of_mem x (ih failed)

theorem readings_takeTurns (schedule : List Nat) (pool : List (Search α)) (s : State) :
    (takeTurns a.untimed schedule pool s).2.readings = s.readings := by
  induction schedule generalizing pool s with
  | nil => rfl
  | cons i schedule ih =>
    rw [takeTurns]
    cases pool[i]? with
    | none => exact ih pool s
    | some x => exact (ih _ _).trans (readings_step x s)

theorem PacedPool.takeTurns_later (h : PacedPool pool m) (timed : a.deadline = some d)
    (schedule : List Nat) (took : Search.takeTurns a.untimed schedule pool s = (pool', s'))
    (ok : outcome pool' = some (.ok ())) (k : Nat) :
    ∃ n, s'.effort.subproblems = s.effort.subproblems + m + n ∧
      (d.Missed a.clock (s.readings + k) n →
        ∃ i : Nat, (Search.takeTurns a schedule pool (s.later k)).1[i]? = some (fail d.error)) ∧
      (¬ d.Missed a.clock (s.readings + k) n →
        Search.takeTurns a schedule pool (s.later k) = (pool', s'.later (k + n))) := by
  induction schedule generalizing pool s m k with
  | nil =>
    cases took
    rw [h.eq_zero ok]
    exact ⟨0, rfl, fun missed => absurd missed Deadline.not_missed_zero, fun _ => rfl⟩
  | cons i schedule ih =>
    rw [Search.takeTurns] at took ⊢
    cases whose : pool[i]? with
    | none =>
      rw [whose] at took
      exact ih h took k
    | some x =>
      rw [whose] at took
      obtain ⟨mine, others, rfl, paced, put⟩ := h.share whose
      dsimp only at took ⊢
      by_cases check : ∃ next, x = checkTime next
      · obtain ⟨next, rfl⟩ := check
        obtain ⟨n, account, late, inTime⟩ := ih (put next (mine + 1) paced) took (k + 1)
        change s'.effort.subproblems = s.effort.subproblems + (mine + 1 + others) + n at account
        refine ⟨n + 1, by omega, ?_⟩
        rw [step_checkTime timed, readings_later, later_later, Deadline.missed_succ]
        by_cases expired : d.isOver (a.clock (s.readings + k)) = true
        · have failed : (pool.set i (fail d.error))[i]? = some (fail d.error) :=
            List.getElem?_set_self (List.getElem?_eq_some_iff.mp whose).1
          rw [if_pos expired]
          exact ⟨fun _ => ⟨i, takeTurns_fail schedule failed⟩,
            fun missed => absurd (.inl expired) missed⟩
        · rw [if_neg expired, or_iff_right expired, Nat.add_comm n, ← Nat.add_assoc k]
          exact ⟨late, inTime⟩
      · have other := not_exists.mp check
        obtain ⟨i', paced', moved⟩ := paced.step (a := a.untimed) other s
        obtain ⟨n, account, rest⟩ := ih (put _ i' paced') took k
        rw [readings_step] at rest
        refine ⟨n, by omega, ?_⟩
        rw [step_later other]
        exact rest

/-- Searches that would all be done after some turns, if there were no deadline, still are, if no
reading on the way is late. Otherwise one of them fails. -/
theorem PacedPool.takeTurns (h : PacedPool pool m) (timed : a.deadline = some d)
    (schedule : List Nat) (took : Search.takeTurns a.untimed schedule pool s = (pool', s'))
    (ok : outcome pool' = some (.ok ())) :
    ∃ n, s'.effort.subproblems = s.effort.subproblems + m + n ∧
      (d.Missed a.clock s.readings n →
        ∃ i : Nat, (Search.takeTurns a schedule pool s).1[i]? = some (fail d.error)) ∧
      (¬ d.Missed a.clock s.readings n →
        Search.takeTurns a schedule pool s = (pool', s'.later n)) := by
  obtain ⟨n, account, late, inTime⟩ := h.takeTurns_later timed schedule took ok 0
  rw [Nat.zero_add] at inTime
  exact ⟨n, account, late, inTime⟩

/-- What has come of searches after some turns, where without a deadline all of them would be done
after some more. -/
theorem PacedPool.outcome (h : PacedPool pool m) (timed : a.deadline = some d)
    (schedule more : List Nat)
    (took : Search.takeTurns a.untimed (schedule ++ more) pool s = (pool', s'))
    (ok : Search.outcome pool' = some (.ok ())) :
    ∃ n, s'.effort.subproblems = s.effort.subproblems + m + n ∧
      (∀ e, Search.outcome (Search.takeTurns a schedule pool s).1 = some (.error e) →
        d.Missed a.clock s.readings n) ∧
      (Search.outcome (Search.takeTurns a schedule pool s).1 = some (.ok ()) →
        ¬ d.Missed a.clock s.readings n ∧
          (Search.takeTurns a schedule pool s).2 = s'.later n) := by
  obtain ⟨n, account, late, inTime⟩ := h.takeTurns timed (schedule ++ more) took ok
  rw [takeTurns_append] at late inTime
  refine ⟨n, account, fun e failed => ?_, fun ok' => ?_⟩
  -- Whoever has failed by now would not be done after more turns.
  · by_contra none
    obtain ⟨i, is⟩ := List.mem_iff_getElem?.mp (mem_of_outcome_error failed)
    have still := @takeTurns_fail _ a (Search.takeTurns a schedule pool s).2 _ _ _ more is
    rw [inTime none] at still
    obtain ⟨v, done⟩ := exists_done ok still
    nomatch done
  · rw [takeTurns_done more ok'] at late inTime
    have none : ¬ d.Missed a.clock s.readings n := by
      intro missed
      obtain ⟨i, is⟩ := late missed
      obtain ⟨v, done⟩ := exists_done ok' is
      nomatch done
    exact ⟨none, congrArg Prod.snd (inTime none)⟩

/-- With a deadline, nobody needs more turns. -/
theorem PacedPool.isSome_outcome (h : PacedPool pool m) (timed : a.deadline = some d)
    (schedule : List Nat)
    (ok : Search.outcome (Search.takeTurns a.untimed schedule pool s).1 = some (.ok ())) :
    (Search.outcome (Search.takeTurns a schedule pool s).1).isSome := by
  obtain ⟨n, _, late, inTime⟩ := h.takeTurns timed schedule rfl ok
  by_cases missed : d.Missed a.clock s.readings n
  · obtain ⟨i, is⟩ := late missed
    obtain ⟨e, failed⟩ := exists_outcome_error is
    rw [failed]
    rfl
  · rw [inTime missed, ok]
    rfl

/-! ### What is searched -/

theorem paced_candidate (left right : Plan) (i : Nat) : Paced (candidate left right) i i :=
  fun _ => rfl

theorem paced_better (best : Option Plan) (plan : Plan) (i : Nat) :
    Paced (better best plan) i i := by
  cases best with
  | none => rfl
  | some known =>
    refine Paced.bind ?_ ?_ (j := i)
    · cases fitting (plan.tuples.less? known.tuples) <;> trivial
    · rintro (_ | _) <;> rfl

theorem paced_keep (source relations : List Relation) (plan : Plan) (i : Nat) :
    Paced (keep source relations plan) (i + 1) i := ⟨i, rfl, rfl⟩

variable {solve : List Relation → Search Plan}

theorem paced_bestFrom (solves : ∀ part i, Paced (solve part) i i) (order : Order)
    (relations : List Relation) (n splits : Nat) (best : Option Plan) (i : Nat) :
    Paced (bestFrom solve order relations n splits best) i i := by
  induction splits generalizing n best with
  | zero => rfl
  | succ splits ih =>
    refine (solves _ i).bind fun left => (solves _ i).bind fun right => ?_
    refine (paced_candidate left right i).bind fun plan => ?_
    exact (paced_better best plan i).bind fun best => ih (n + 1) best

theorem paced_bestOf (solves : ∀ part i, Paced (solve part) i i) (order : Order)
    (relations : List Relation) (i : Nat) : Paced (bestOf solve order relations) i i := by
  refine (paced_bestFrom solves order relations 0 _ none i).bind fun best => ?_
  cases best <;> trivial

theorem paced_solveWithin (order : Order) (n : Nat) (source relations : List Relation) (i : Nat) :
    Paced (solveWithin order n source relations) i i := by
  induction n generalizing source relations i with
  | zero => trivial
  | succ n ih =>
    intro known
    cases known with
    | some plan => rfl
    | none =>
      rcases relations with _ | ⟨x, _ | ⟨y, _ | ⟨z, rest⟩⟩⟩
      · trivial
      · rfl
      · exact (paced_candidate (.ofRelation x) (.ofRelation y) (i + 1)).bind fun plan =>
          paced_keep source [x, y] plan i
      · exact (paced_bestOf (fun part => ih part part) order _ (i + 1)).bind fun plan =>
          paced_keep source (x :: y :: z :: rest) plan i

theorem paced_tasks (order : Order) (layer : List (List Relation)) :
    PacedPool (tasks order layer) 0 := by
  induction layer with
  | nil => exact .nil
  | cons relations layer ih =>
    exact .cons (paced_solveWithin order relations.length relations relations 0) ih

end Search

end JoinOrder
