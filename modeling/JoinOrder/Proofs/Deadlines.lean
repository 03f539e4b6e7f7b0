import JoinOrder.Proofs.InputOrder
import JoinOrder.Proofs.Readings
/-!
Searches with a deadline, next to the same searches without one.

The recursion reads the clock in the same order, with and without a deadline. The tasks of a layer read
it in an order that depends on their turns, but as often as they are, and where one of them fails the
others may go on. What does not depend on the turns is how many sets are solved, so it is as many
readings that decide, whichever task gets which of them.
-/

namespace JoinOrder

/-- One of so many readings after the first is past a limit that counts from the first. -/
def Clock.Exceeds (clock : Clock) (first : Nat) (limit : Float) (count : Nat) : Prop :=
  ∃ i, 1 ≤ i ∧ i ≤ count ∧ clock first + limit < clock (first + i)

theorem Deadline.missed_iff {clock : Clock} {first count : Nat} {t : Float} {limit : Value} :
    (Deadline.mk limit (clock first + t)).Missed clock (first + 1) count ↔
      clock.Exceeds first t count := by
  constructor
  · rintro ⟨i, before, late⟩
    rw [Nat.add_assoc, Nat.add_comm 1] at late
    exact ⟨i + 1, by omega, before, of_decide_eq_true late⟩
  · rintro ⟨i, after, before, late⟩
    obtain ⟨j, rfl⟩ := Nat.exists_eq_add_of_le' after
    refine ⟨j, before, decide_eq_true ?_⟩
    rwa [Nat.add_assoc, Nat.add_comm 1]

namespace Search

variable {a : Answerer} {d : Deadline} {s s' : State}

theorem paced_missing (layer : List (List Relation)) (i : Nat) : Paced (missing layer) i i := by
  induction layer with
  | nil => rfl
  | cons xs layer ih => exact fun known => ih.bind fun others => rfl

theorem paced_openLayer (workers : Value) (relations : List Relation) (size i : Nat) :
    Paced (openLayer workers relations size) i i :=
  (paced_missing _ i).bind fun _ => (rfl : i = i)

/-- What comes of a search with a deadline, if without one it would come to a plan and a state. So many
readings decide. -/
structure Decided (d : Deadline) (clock : Clock) (n : Nat) (s : State) (p : Plan) (s₀ : State)
    (result : Except Error Plan) (s' : State) : Prop where
  late : d.Missed clock s.readings n → result = .error d.error
  inTime : ¬ d.Missed clock s.readings n → result = .ok p ∧
    (∀ K, s'.memo.find? K = s₀.memo.find? K) ∧ s'.effort = s₀.effort ∧
    s'.readings = s.readings + n

/-- The recursion takes a reading for each set that it solves. -/
theorem decided_run {order : Order} {source relations : List Relation} {p : Plan} {s₀ : State}
    (timed : a.deadline = some d)
    (before : run a.untimed (solve order source relations) s = (.ok p, s₀)) :
    ∃ n, s₀.effort.subproblems = s.effort.subproblems + n ∧
      Decided d a.clock n s p s₀ (run a (solve order source relations) s).1
        (run a (solve order source relations) s).2 := by
  obtain ⟨n, account, late, inTime⟩ :=
    (paced_solveWithin order relations.length source relations 0).run timed before
  have unread := readings_run (a := a) (solve order source relations) s
  rw [before] at unread
  refine ⟨n, account, late, fun missed => ?_⟩
  rw [solve, inTime missed]
  exact ⟨rfl, fun K => rfl, rfl, congrArg (· + n) unread⟩

end Search

namespace Problem

open Search

variable {P : Problem} {a : Answerer} {d : Deadline} {workers : Value} {e : Effort} {s : State}
  {size n i : Nat} {m : Memo} {xs : List Relation} {layer : List (List Relation)}
  {ahead left : Effort} {turns : List Nat} {pool : List (Search Plan)} {x : Search Plan}
  {schedules : Nat → List Nat}

/-! ### Tasks that fail -/

theorem Path.not_fail {v : Plan} {last phase : Phase} {e : Effort} {k : Nat} {error : Error} :
    ¬ P.Path xs v last phase e k (fail error) := fun path => nomatch path

/-- Where nothing else can stop a search, a task fails of a late reading. -/
theorem Path.fails {v : Plan} {last phase : Phase} {e : Effort} {k : Nat} {error : Error}
    (h : P.Path xs v last phase e k x) (part : P.IsPart xs) (old : P.table.knows xs = false)
    (timed : a.deadline = some d) (calm : P.Calm a.untimed) (stage : P.Stage xs.length s.memo)
    (free : phase = .searching → s.memo.knows xs = false)
    (failed : (Search.step a x s).1 = fail error) : error = d.error := by
  rcases h.step (t := s.standing) part old calm.estimates.agrees stage free with
    ⟨rfl, _⟩ | ⟨next, _, _, _, _, _, _, steps, stop, rest, _⟩
  · cases failed
  · have goes : (Search.step a.untimed x s).1 = next := by
      rcases steps s rfl with ⟨search, _⟩ | ⟨_, _, denied⟩
      · exact search
      · exact absurd calm (stop denied)
    by_cases check : ∃ next, x = Search.checkTime next
    · obtain ⟨next', rfl⟩ := check
      rw [step_checkTime timed] at failed
      by_cases expired : d.isOver (a.clock s.readings) = true
      · simp only [expired, if_true] at failed
        cases failed
        rfl
      · simp only [expired] at failed
        subst goes
        change next' = fail error at failed
        rw [show (Search.step a.untimed (Search.checkTime next') s).1 = next' from rfl, failed] at rest
        exact absurd rest not_fail
    · have same : Search.step a x s = Search.step a.untimed x s := step_later (not_exists.mp check) 0
      rw [same, goes] at failed
      subst failed
      exact absurd rest not_fail

theorem Pool.task (h : P.Pool a m layer ahead left turns pool) (whose : pool[i]? = some x) :
    (∃ error, x = fail error) ∨ ∃ xs ∈ layer, ∃ phase e k,
      P.Path xs (P.plan xs) .told phase e k x ∧ (phase = .searching ↔ m.knows xs = false) := by
  induction h generalizing i with
  | nil => exact nomatch whose
  | @pending xs phase e k y layer ahead left turns pool path free told rest ih =>
    cases i with
    | zero =>
      cases whose
      exact .inr ⟨xs, List.mem_cons_self, phase, e, k, path, free⟩
    | succ i =>
      refine (ih whose).imp_right ?_
      rintro ⟨ys, member, others⟩
      exact ⟨ys, List.mem_cons_of_mem xs member, others⟩
  | @failed xs e d k error layer ahead left turns pool stopped rest ih =>
    cases i with
    | zero =>
      cases whose
      exact .inl ⟨error, rfl⟩
    | succ i =>
      refine (ih whose).imp_right ?_
      rintro ⟨ys, member, others⟩
      exact ⟨ys, List.mem_cons_of_mem xs member, others⟩

theorem Pool.takeTurns_fails (h : P.Pool a s.memo layer ahead left turns pool) (nodup : layer.Nodup)
    (parts : ∀ xs ∈ layer, P.IsPart xs ∧ xs.length = n ∧ P.table.knows xs = false)
    (stage : P.Stage n s.memo) (timed : a.deadline = some d) (calm : P.Calm a.untimed)
    (only : ∀ error, fail error ∈ pool → error = d.error) (schedule : List Nat) :
    ∀ error, fail error ∈ (Search.takeTurns a schedule pool s).1 → error = d.error := by
  have agrees : a.model.Agrees P.est := calm.estimates.agrees
  induction schedule generalizing ahead left turns pool s with
  | nil => exact only
  | cons i schedule ih =>
    rw [Search.takeTurns]
    cases whose : pool[i]? with
    | none => exact ih h stage only
    | some x =>
      obtain ⟨_, _, h', kept⟩ := h.turn agrees nodup parts stage whose
      refine ih h' kept.stage fun error member => ?_
      rcases List.mem_or_eq_of_mem_set member with member | failed
      · exact only error member
      · rcases h.task whose with ⟨error', rfl⟩ | ⟨xs, member, phase, _, _, path, free⟩
        · cases failed
          exact only error (List.mem_of_getElem? whose)
        · obtain ⟨part, length, old⟩ := parts xs member
          exact path.fails part old timed calm (length ▸ stage) free.mp failed.symm

/-! ### One layer -/

/-- The sets that are solved altogether. -/
def total (P : Problem) (e : Effort) : Nat := e.subproblems + (P.due P.table).subproblems

theorem Front.le_total {t : Standing} (front : P.Front a workers e size t) :
    t.effort.subproblems ≤ P.total e := by
  have balance := (Effort.ext_iff.mp front.balance).1
  simp only [Effort.subproblems_add] at balance
  unfold total
  omega

/-- To nothing that was told or found before a layer does a deadline matter. -/
theorem Front.untimed {t : Standing} (front : P.Front a workers e size t) :
    P.Front a.untimed workers e size t :=
  ⟨front.stage, front.above, front.told, front.announced, front.balance⟩

/-- What a deadline makes of a layer that takes so many readings. -/
structure Timed (a : Answerer) (d : Deadline) (n : Nat) (s : State) (pool : List (Search Plan))
    (s' : State) : Prop where
  failed : ∀ error, outcome pool = some (.error error) →
    error = d.error ∧ d.Missed a.clock s.readings n
  ok : outcome pool = some (.ok ()) → ¬ d.Missed a.clock s.readings n ∧
    s'.readings = s.readings + n ∧ s'.effort.subproblems = s.effort.subproblems + n

theorem fail_not_mem_tasks (two : 2 ≤ size) (error : Error) :
    fail error ∉ tasks P.order (P.layer size) := by
  intro member
  obtain ⟨xs, inside, is⟩ := List.mem_map.mp member
  obtain ⟨part, _, unknown⟩ := (mem_layer two).mp inside
  obtain ⟨k, path⟩ := path_solve part unknown
  rw [is] at path
  exact path.not_fail

theorem Front.timed (front : P.Front a workers e size s.standing) (timed : a.deadline = some d)
    (calm : P.Calm a.untimed) (two : 2 ≤ size)
    (announced : a.Tells (.layer (P.layer size).length size workers)) (schedule : List Nat) :
    ∃ n, s.effort.subproblems + n ≤ P.total e ∧
      Timed a d n s (takeTurns a schedule (tasks P.order (P.layer size)) s).1
        (takeTurns a schedule (tasks P.order (P.layer size)) s).2 := by
  -- Without a deadline, more turns can follow those of the schedule until all tasks are done.
  obtain ⟨more, completed, _⟩ := exists_schedule (a := a.untimed)
    (takeTurns a.untimed schedule (tasks P.order (P.layer size)) s).1
    (takeTurns a.untimed schedule (tasks P.order (P.layer size)) s).2
  rw [← takeTurns_append] at completed
  have turned := front.untimed.turned calm.estimates.agrees two announced (schedule ++ more)
  have unread := readings_takeTurns (a := a) (schedule ++ more) (tasks P.order (P.layer size)) s
  generalize took : takeTurns a.untimed (schedule ++ more) (tasks P.order (P.layer size)) s = after
    at completed turned unread
  obtain ⟨pool', s'⟩ := after
  have ok : outcome pool' = some (.ok ()) := by
    cases result : outcome pool' with
    | none => rw [result] at completed; nomatch completed
    | some ended =>
      cases ended with
      | ok => rfl
      | error error => exact absurd calm (turned.failed error result)
  obtain ⟨n, account, failed, ended⟩ :=
    (paced_tasks P.order (P.layer size)).outcome timed schedule more took ok
  have few := (turned.next ok).le_total
  change s'.effort.subproblems ≤ P.total e at few
  refine ⟨n, by omega, fun error is => ⟨?_, failed error is⟩, fun is => ?_⟩
  · obtain ⟨_, bound, _⟩ := exists_bound P
    obtain ⟨_, _, pool, _⟩ := exists_pool (a := a) bound (P.layer size) (front.unsolved two)
    exact pool.takeTurns_fails nodup_layer (fun xs => (mem_layer two).mp) front.stage timed calm
      (fun error member => absurd member (fail_not_mem_tasks two error)) schedule error
      (mem_of_outcome_error is)
  · obtain ⟨none, last⟩ := ended is
    refine ⟨none, ?_, ?_⟩
    · rw [last, readings_later]
      exact congrArg (· + n) unread
    · rw [last]
      exact account

/-- The turns of a fair schedule are enough, with a deadline as without one. -/
theorem Front.fair (front : P.Front a workers e size s.standing) (timed : a.deadline = some d)
    (calm : P.Calm a.untimed) (two : 2 ≤ size)
    (announced : a.Tells (.layer (P.layer size).length size workers)) {schedule : List Nat}
    (bound : P.Bound n) (few : P.parts.length ≤ n) (fair : Fair n schedule) :
    (outcome (takeTurns a schedule (tasks P.order (P.layer size)) s).1).isSome :=
  (paced_tasks P.order (P.layer size)).isSome_outcome timed schedule
    ((front.untimed.turned calm.estimates.agrees two announced schedule).fair n bound few calm fair)

/-- No layer takes a reading before its first task. -/
theorem Front.opened (front : P.Front a workers e size s.standing) (timed : a.deadline = some d)
    (told : P.LayersTold a workers) (two : 2 ≤ size) (le : size ≤ P.root.length) :
    ∃ s', run a (openLayer workers P.root size) s = (.ok (P.layer size), s') ∧
      s'.standing = s.standing ∧ s'.readings = s.readings := by
  have opening := ends_openLayer two front.untimed s rfl
  have unread := readings_run (a := a) (openLayer workers P.root size) s
  generalize ran : run a.untimed (openLayer workers P.root size) s = opened at opening unread
  obtain ⟨answer, s'⟩ := opened
  cases answer with
  | error error => exact absurd (told size two le) opening.2
  | ok layer =>
    obtain ⟨rfl, same, _⟩ := opening
    obtain ⟨n, account, _, inTime⟩ := (paced_openLayer workers P.root size 0).run timed ran
    have effort : s'.effort = s.effort := congrArg Standing.effort same
    obtain rfl : n = 0 := by
      rw [effort] at account
      omega
    exact ⟨_, inTime Deadline.not_missed_zero, same, unread⟩

/-! ### All layers -/

/-- What a deadline makes of the layers that are left: they take a reading for every set that is not
solved yet, and either all of these are in time or the search fails. -/
theorem layersBy_timed (count : Nat) (front : P.Front a workers e size s.standing)
    (timed : a.deadline = some d) (calm : P.Calm a.untimed) (told : P.LayersTold a workers)
    (two : 2 ≤ size) (all : size + count = P.root.length + 1) (many : 2 ≤ P.root.length)
    (rest : s.effort.subproblems + n = P.total e) :
    (∀ result s', layersBy a P.order workers P.root schedules (List.range' size count) s =
        some (result, s') →
      (d.Missed a.clock s.readings n → result = .error d.error) ∧
        (¬ d.Missed a.clock s.readings n →
          result = .ok (P.plan P.root) ∧ s'.readings = s.readings + n)) ∧
      ∀ k, P.Bound k → P.parts.length ≤ k → (∀ size, Fair k (schedules size)) →
        (layersBy a P.order workers P.root schedules (List.range' size count) s).isSome := by
  induction count generalizing size s n with
  | zero =>
    rw [Nat.add_zero] at all
    subst all
    have settled := front.settled.subproblems
    change s.effort.subproblems = P.total e at settled
    obtain rfl : n = 0 := by omega
    rw [List.range'_zero, layersBy, front.answer many]
    refine ⟨?_, fun _ _ _ _ => rfl⟩
    rintro result s' ⟨⟩
    exact ⟨fun missed => absurd missed Deadline.not_missed_zero, fun _ => ⟨rfl, rfl⟩⟩
  | succ count ih =>
    rw [List.range'_succ, layersBy]
    have announced := told size two (by omega)
    obtain ⟨s₁, opened, same, unread⟩ := front.opened timed told two (by omega)
    rw [opened]
    have front₁ : P.Front a workers e size s₁.standing := same ▸ front
    have effort : s₁.effort = s.effort := congrArg Standing.effort same
    obtain ⟨n₁, few, ends⟩ := front₁.timed timed calm two announced (schedules size)
    have next := (front₁.turned calm.estimates.agrees two announced (schedules size)).next
    have fair {k : Nat} (bound : P.Bound k) (few : P.parts.length ≤ k)
        (fair : ∀ size, Fair k (schedules size)) :=
      front₁.fair timed calm two announced bound few (fair size)
    obtain ⟨n₂, rfl⟩ : ∃ n₂, n = n₁ + n₂ := Nat.exists_eq_add_of_le (by rw [effort] at few; omega)
    dsimp only
    generalize takeTurns a (schedules size) (tasks P.order (P.layer size)) s₁ = turned
      at ends next fair ⊢
    obtain ⟨pool, s₂⟩ := turned
    rw [Deadline.missed_add, ← unread]
    cases is : outcome pool with
    | none =>
      refine ⟨fun _ _ none => by contradiction, fun k bound few fair' => ?_⟩
      have := fair bound few fair'
      rw [is] at this
      contradiction
    | some ended =>
      cases ended with
      | error error =>
        obtain ⟨rfl, missed⟩ := ends.failed error is
        refine ⟨?_, fun _ _ _ _ => rfl⟩
        rintro result s' ⟨⟩
        exact ⟨fun _ => rfl, fun inTime => absurd (.inl missed) inTime⟩
      | ok =>
        obtain ⟨inTime, readings, solved⟩ := ends.ok is
        change s₂.readings = s₁.readings + n₁ at readings
        change s₂.effort.subproblems = s₁.effort.subproblems + n₁ at solved
        have later := ih (s := s₂) (n := n₂) (next is) (by omega) (by omega)
          (by rw [solved, effort]; omega)
        rw [or_iff_right inTime, ← Nat.add_assoc, ← readings]
        exact later

theorem decided_layers {p : Plan} {s₀ : State} (start : s.standing = ⟨P.table, e⟩)
    (timed : a.deadline = some d) (calm : P.Calm a.untimed) (told : P.LayersTold a workers)
    (many : 2 ≤ P.root.length) (plan : p = P.plan P.root) (finished : P.Finished s₀.memo)
    (settled : P.Settled true e s₀.effort) :
    (∀ schedules result s',
      solveLayersBy a P.order workers P.root schedules s = some (result, s') →
        Decided d a.clock (P.due P.table).subproblems s p s₀ result s') ∧
      ∃ k, ∀ schedules, (∀ size, Fair k (schedules size)) →
        (solveLayersBy a P.order workers P.root schedules s).isSome := by
  have agrees : a.model.Agrees P.est := calm.estimates.agrees
  have front : P.Front a workers e 2 s.standing := start ▸ front_table
  have effort : s.effort = e := congrArg Standing.effort start
  have left : s.effort.subproblems + (P.due P.table).subproblems = P.total e := by
    rw [effort]
    rfl
  have ends (schedules : Nat → List Nat) := @layersBy_timed P a d workers e s 2 _ schedules
    (P.root.length - 1) front timed calm told le_rfl (by omega) many left
  obtain ⟨k, bound, few⟩ := exists_bound P
  refine ⟨fun schedules result s' h => ?_, k, fun schedules fair => (ends schedules).2 k bound few fair⟩
  obtain ⟨late, inTime⟩ := (ends schedules).1 result s' h
  refine ⟨late, fun missed => ?_⟩
  obtain ⟨rfl, readings⟩ := inTime missed
  obtain ⟨_, front'⟩ := (solveLayersBy_ends start agrees many h).ok _ rfl
  exact ⟨congrArg Except.ok plan.symm, front'.finished.find?_eq finished,
    front'.settled.unique settled, readings⟩

end Problem

namespace Optimizer

open Search

variable {o : Optimizer} {est : Plan → Plan → Int} {clock : Clock} {readings : Nat}
  {memo table : Memo} {collection : Item} {relations source : List Relation} {a : Answerer}
  {d : Deadline} {e : Effort} {schedules schedules' : Nat → List Nat} {out : Outcome}

/-! ### The search -/

/-- What a deadline makes of a search that would find a plan without one. -/
theorem searchBy_timed (P : Problem) (order : o.settings.order = P.order)
    (same : source.Perm P.root) (some : P.root ≠ []) (estimates : a.model.Estimates P.est)
    (timed : a.deadline = .some d) {s s₀ : State} {p : Plan} (start : s.standing = ⟨P.table, e⟩)
    (before : o.searchBy schedules a.untimed P.table source P.root s = .some (.ok p, s₀)) :
    ∃ n, s₀.effort.subproblems = e.subproblems + n ∧
      (∀ schedules' result s',
        o.searchBy schedules' a P.table source P.root s = .some (result, s') →
          Decided d a.clock n s p s₀ result s') ∧
      ∃ k, ∀ schedules', (∀ size, Problem.Fair k (schedules' size)) →
        (o.searchBy schedules' a P.table source P.root s).isSome := by
  cases layered : o.isLayered P.table P.root with
  | false =>
    have effort : s.effort = e := congrArg Standing.effort start
    simp only [searchBy, layered, Bool.false_eq_true, if_false] at before ⊢
    obtain ⟨n, account, decided⟩ := decided_run timed (Option.some.inj before)
    refine ⟨n, effort ▸ account, fun schedules' result s' h => ?_, 0, fun schedules' _ => rfl⟩
    rwa [Option.some.inj h] at decided
  | true =>
    obtain ⟨many, new⟩ := unsolved_of_isLayered layered
    have agrees : a.untimed.model.Agrees P.est := estimates.agrees
    have searched := (searchBy_ends P order same some agrees start before).ok p rfl
    obtain ⟨finished, settled⟩ := searchBy_settled P order same some agrees new start before
    rw [layered] at settled
    have calm : P.Calm a.untimed := ⟨rfl, estimates, searched.told new (by omega)⟩
    obtain ⟨ends, fair⟩ := Problem.decided_layers start timed calm (searched.layersTold layered)
      (by omega) searched.plan finished settled
    simp only [searchBy, layered, if_true, order]
    exact ⟨_, settled.subproblems, ends, fair⟩

/-! ### The whole call -/

/-- The same without a time limit. -/
def untimed (o : Optimizer) : Optimizer := { o with settings := { o.settings with timeout := .null } }

theorem prepare_timed {t start : Float} (limited : o.settings.timeout.isNull = false)
    (number : o.settings.timeout.float? = .ok t) {deadline : Option Deadline}
    {warnings : List String} {sorted : List Relation} {opening : List Item}
    (prepared : o.untimed.prepare start relations = .ok (deadline, warnings, sorted, opening)) :
    deadline = none ∧ o.prepare start relations =
      .ok (some ⟨o.settings.timeout, start + t⟩, warnings, sorted, opening) := by
  have limit : Deadline.ofLimit start o.settings.timeout =
      .ok (some ⟨o.settings.timeout, start + t⟩) := by
    rw [Deadline.ofLimit, limited, number]
    rfl
  refine ⟨(Except.ok.inj (prepare_eq_ok prepared).1).symm, ?_⟩
  rw [prepare, limit]
  -- What comes after the deadline does not look at it.
  change (do
    let warnings ← o.warnings relations
    let sorted ← Relation.sort relations
    return (none, warnings, sorted, ← (Progress.started sorted).message)) = _ at prepared
  cases warned : o.warnings relations with
  | error e => rw [warned] at prepared; cases prepared
  | ok w =>
    rw [warned] at prepared
    cases sort : Relation.sort relations with
    | error e => rw [sort] at prepared; cases prepared
    | ok list =>
      rw [sort] at prepared
      cases message : (Progress.started list).message with
      | error e =>
        change (do return (none, w, list, ← (Progress.started list).message)) = _ at prepared
        rw [message] at prepared
        cases prepared
      | ok items =>
        change (do return (none, w, list, ← (Progress.started list).message)) = _ at prepared
        change (do return (_, w, list, ← (Progress.started list).message)) = _
        rw [message] at prepared ⊢
        cases prepared
        rfl

theorem conclude_error {start : Float} {warnings : List String} {error : Error} {s : State} :
    (o.conclude clock start warnings (.error error) s).result = .error error := by
  unfold conclude
  cases o.settings.verbose.truthy <;> rfl

theorem conclude_readings {start : Float} {warnings : List String} {result : Except Error Plan}
    {s : State} : (o.conclude clock start warnings result s).readings = s.readings + 1 := by
  unfold conclude
  cases result <;> cases o.settings.verbose.truthy <;> rfl

/-- What is known already, or is one relation alone, takes no work. -/
theorem run_nothing_to_solve {order : Order} {s : State}
    (few : relations.length = 1 ∨ s.memo.knows relations = true) (some : relations ≠ []) :
    (run a (solve order source relations) s).2.effort.subproblems = s.effort.subproblems := by
  obtain ⟨r, rest, rfl⟩ := List.exists_cons_of_ne_nil some
  change (run a (consult (.ofList (r :: rest)) _) s).2.effort.subproblems = _
  rw [run]
  cases found : s.memo.find? (.ofList (r :: rest)) with
  | some p => rfl
  | none =>
    have alone : rest = [] := by simpa [Memo.knows, found] using few
    subst alone
    rfl

/-- Without a time limit and without a listener, relations that can be put in order get a plan. -/
theorem untimed_isOk (estimates : o.model.Estimates est) (sound : Sound memo.find?)
    (accepted : o.accept memo collection = .ok (relations, table))
    (orderly : Relation.Orderly relations) (quiet : o.settings.verbose.truthy = false)
    (ran : o.untimed.optimizeBy schedules clock readings memo collection = some out) :
    ∃ plan, out.result = .ok plan := by
  obtain ⟨checked, description, _, bound⟩ := accept_eq_ok.mp accepted
  obtain ⟨⟨deadline, warnings, sorted, opening⟩, prepared⟩ :=
    @prepare_isOk o.untimed _ (clock readings) none rfl orderly
  obtain ⟨limit, sort, _⟩ := prepare_eq_ok prepared
  cases limit
  let P := posed est o.settings.order table (Memo.find?_bind bound ▸ sound) checked sort
  have unstopped : o.untimed.Unstopped P (o.untimed.answerer clock none) :=
    ⟨⟨rfl, estimates, Problem.told_of_quiet quiet⟩, fun _ => Problem.layersTold_of_quiet quiet⟩
  have silent (listens : o.settings.verbose.truthy = true) : Presentable (P.plan P.root) := by
    rw [quiet] at listens
    contradiction
  exact ⟨_, optimizeBy_isOk (o := o.untimed) P rfl accepted prepared (sorted_ne_nil checked sort)
    unstopped silent ran⟩

theorem subproblems_eq_zero {plan : Plan} {e : Effort}
    (accepted : o.accept memo collection = .ok (relations, table))
    (ran : o.optimizeBy schedules clock readings memo collection = some out)
    (ok : out.result = .ok plan) (counted : out.effort = some e)
    (few : relations.length = 1 ∨ memo.knows relations = true) : e.subproblems = 0 := by
  obtain ⟨checked, description, _, bound⟩ := accept_eq_ok.mp accepted
  obtain ⟨deadline, warnings, sorted, opening, prepared⟩ := exists_prepared accepted ran ok
  have sort := (prepare_eq_ok prepared).2.1
  have same := Relation.perm_of_sort sort
  have knows : table.knows sorted = memo.knows relations := by
    rw [Memo.knows, Memo.knows, Memo.find?_bind bound,
      Memo.find?_congr (IdSet.identities_ofList_perm same)]
  rw [← same.length_eq, ← knows] at few
  have recursive : o.isLayered table sorted = false := by
    by_contra layered
    obtain ⟨many, unknown⟩ := unsolved_of_isLayered (Bool.not_eq_false _ ▸ layered)
    rcases few with one | known
    · omega
    · rw [unknown] at known
      contradiction
  rw [optimizeBy_prepared accepted prepared, searchBy, recursive] at ran
  cases ran
  rw [conclude_effort, Option.some.injEq] at counted
  rw [← counted]
  exact run_nothing_to_solve few (sorted_ne_nil checked sort)

/-- What a time limit makes of a call that returns a plan without one. -/
theorem optimizeBy_timed {t : Float} {before : Outcome} {plan : Plan}
    (estimates : o.model.Estimates est) (sound : Sound memo.find?)
    (accepted : o.accept memo collection = .ok (relations, table))
    (limited : o.settings.timeout.isNull = false) (number : o.settings.timeout.float? = .ok t)
    (ran : o.untimed.optimizeBy schedules clock readings memo collection = some before)
    (ok : before.result = .ok plan) : ∃ e, before.effort = some e ∧
      (∀ schedules' out, o.optimizeBy schedules' clock readings memo collection = some out →
        (clock.Exceeds readings t e.subproblems →
          out.result = .error (.timedOut o.settings.timeout.shown)) ∧
        (¬ clock.Exceeds readings t e.subproblems →
          out.Agrees before ∧ out.readings = readings + e.subproblems + 2)) ∧
      ∃ n, ∀ schedules', (∀ size, Problem.Fair n (schedules' size)) →
        (o.optimizeBy schedules' clock readings memo collection).isSome := by
  obtain ⟨checked, description, _, bound⟩ := accept_eq_ok.mp accepted
  obtain ⟨deadline, warnings, sorted, opening, prepared⟩ :=
    exists_prepared (o := o.untimed) accepted ran ok
  obtain ⟨rfl, prepared'⟩ := prepare_timed limited number prepared
  have sort := (prepare_eq_ok prepared).2.1
  let P := posed est o.settings.order table (Memo.find?_bind bound ▸ sound) checked sort
  rw [optimizeBy_prepared (o := o.untimed) accepted prepared] at ran
  obtain ⟨⟨result, s₀⟩, searched, rfl⟩ := Option.map_eq_some_iff.mp ran
  obtain ⟨rfl, presentable⟩ := conclude_ok_iff.mp ok
  obtain ⟨n, solved, ends, k, fair⟩ := searchBy_timed
    (a := o.answerer clock (some ⟨o.settings.timeout, clock readings + t⟩))
    (s := o.started table readings opening) P rfl (Relation.perm_of_sort sort).symm
    (sorted_ne_nil checked sort) estimates rfl rfl searched
  obtain rfl : s₀.effort.subproblems = n := solved.trans (Nat.zero_add n)
  refine ⟨s₀.effort, conclude_effort, fun schedules' out ran' => ?_, k, fun schedules' fair' => ?_⟩
  · rw [optimizeBy_prepared accepted prepared'] at ran'
    obtain ⟨⟨result', s'⟩, searched', rfl⟩ := Option.map_eq_some_iff.mp ran'
    have ⟨late, inTime⟩ := ends schedules' result' s' searched'
    rw [← @Deadline.missed_iff _ _ _ _ o.settings.timeout]
    constructor
    · intro missed
      rw [late missed]
      exact conclude_error
    · intro missed
      obtain ⟨rfl, entries, effort, read⟩ := inTime missed
      refine ⟨⟨?_, ?_, ?_⟩, ?_⟩
      · rw [ok]
        exact conclude_ok_iff.mpr ⟨rfl, presentable⟩
      · intro K
        rw [conclude_memo, conclude_memo]
        exact entries K
      · rw [conclude_effort, conclude_effort, effort]
      · rw [conclude_readings, read]
        change readings + 1 + _ + 1 = _
        omega
  · rw [optimizeBy_prepared accepted prepared', Option.isSome_map]
    exact fair schedules' fair'

/-- A time limit only ever stops a call, and does so exactly if a reading of the clock is past it.

Next to a call without a limit that returns a plan, one with a limit returns the same, leaves the same
plans in the table and counts the same, unless one of as many readings after the first as there are
sets to solve is past the limit. Then it fails for that. Which sets the readings are for and in what
order, which workers take their turns when, and what the clock says otherwise does not matter; nor does
it matter whether the clock ever goes back. With nothing to solve, nothing can be late.

The sum and the comparison are those of the machine. Where they are those of exact numbers, these
decide. -/
theorem timedOut_iff {t : Float} (estimates : o.model.Estimates est) (sound : Sound memo.find?)
    (accepted : o.accept memo collection = .ok (relations, table))
    (limited : o.settings.timeout.isNull = false) (number : o.settings.timeout.float? = .ok t)
    {before : Outcome}
    (ran : o.untimed.optimizeBy schedules clock readings memo collection = some before) :
    (Relation.Orderly relations → o.settings.verbose.truthy = false →
        ∃ plan, before.result = .ok plan) ∧
      ∀ plan, before.result = .ok plan → ∃ e, before.effort = some e ∧
        (∀ schedules' out, o.optimizeBy schedules' clock readings memo collection = some out →
          (out.result = .error (.timedOut o.settings.timeout.shown) ↔
              clock.Exceeds readings t e.subproblems) ∧
            (¬ clock.Exceeds readings t e.subproblems →
              out.Agrees before ∧ out.readings = readings + e.subproblems + 2) ∧
            ∀ (c : Nat → ℚ) (limit : ℚ),
              (∀ i, 1 ≤ i → (clock readings + t < clock (readings + i) ↔ c 0 + limit < c i)) →
              (out.result = .error (.timedOut o.settings.timeout.shown) ↔
                ∃ i, 1 ≤ i ∧ i ≤ e.subproblems ∧ c 0 + limit < c i)) ∧
        (relations.length = 1 ∨ memo.knows relations = true →
          e.subproblems = 0 ∧ ¬ clock.Exceeds readings t e.subproblems) ∧
        ∃ n, ∀ schedules', (∀ size, Problem.Fair n (schedules' size)) →
          (o.optimizeBy schedules' clock readings memo collection).isSome := by
  refine ⟨fun orderly quiet => untimed_isOk estimates sound accepted orderly quiet ran,
    fun plan ok => ?_⟩
  obtain ⟨e, counted, ends, fair⟩ :=
    optimizeBy_timed estimates sound accepted limited number ran ok
  refine ⟨e, counted, fun schedules' out ran' => ?_, ?_, fair⟩
  · obtain ⟨late, inTime⟩ := ends schedules' out ran'
    have iff : out.result = .error (.timedOut o.settings.timeout.shown) ↔
        clock.Exceeds readings t e.subproblems := by
      refine ⟨fun failed => ?_, late⟩
      by_contra none
      rw [(inTime none).1.result, ok] at failed
      contradiction
    refine ⟨iff, inTime, fun c limit numbers => iff.trans ?_⟩
    exact exists_congr fun i => and_congr_right fun one => and_congr_right fun _ => numbers i one
  · intro few
    have none := subproblems_eq_zero (o := o.untimed) accepted ran ok counted few
    rw [none]
    exact ⟨rfl, fun ⟨i, one, zero, _⟩ => by omega⟩

/-- From an empty table, a search for three relations solves four sets. -/
theorem subproblems_three {plan : Plan} {e : Effort} (agrees : o.model.Agrees est)
    (accepted : o.accept ∅ collection = .ok (relations, table)) (three : relations.length = 3)
    (ran : o.optimizeBy schedules clock readings ∅ collection = some out)
    (ok : out.result = .ok plan) (counted : out.effort = some e) : e.subproblems = 4 := by
  obtain ⟨sorted, sort, finds⟩ := exists_finds agrees accepted ran ok
  obtain ⟨e', counted', settled⟩ := finds.effort
  obtain rfl : e = e' := Option.some.inj (counted.symm.trans counted')
  have three : sorted.length = 3 := (Relation.perm_of_sort sort).length_eq.trans three
  obtain ⟨x, y, z, rfl⟩ := List.length_eq_three.mp three
  have new (xs : List Relation) : table.knows xs = false := by
    rw [Memo.knows, fresh_of_accept accepted]
    rfl
  have solved := settled.subproblems
  simp only [Problem.due, Problem.outstanding, posed, new] at solved
  exact solved

def limitedOptimizer : Optimizer :=
  ⟨{ Settings.default with timeout := .int 1, parallelWorkers := .int 2 }, .crossProduct .small,
    0, none⟩

/-- A clock that is late once and goes back after that. -/
def jumpyClock (late : Nat) : Clock := fun i => if i = late then 2 else 0

/-- The fourth reading is for one of the four sets that three relations take, the fifth is not. -/
theorem timedOut_iff_jumpyClock :
    (limitedOptimizer.optimize (jumpyClock 4) 0 ∅ (listOf Relisted.sameNames)).result =
        .error (.timedOut "1") ∧
      ∃ plan, (limitedOptimizer.optimize (jumpyClock 5) 0 ∅
        (listOf Relisted.sameNames)).result = .ok plan := by
  have proper : ∀ r ∈ Relisted.sameNames, r.IsNumbered ∧ r.IsNamed := by
    intro r member
    simp only [Relisted.sameNames, List.mem_cons, List.not_mem_nil, or_false] at member
    rcases member with rfl | rfl | rfl <;> exact ⟨⟨_, rfl⟩, _, rfl⟩
  have orderly : Relation.Orderly Relisted.sameNames :=
    .of_pairwise (fun r member => (proper r member).2)
      (Relation.pairwise_comparable fun r member => (proper r member).1)
  obtain ⟨table, accepted⟩ := accept_fresh (o := limitedOptimizer) (describe_known .crossProduct)
    (show RelationSet.checkAll (listOf Relisted.sameNames) _ = .ok Relisted.sameNames from rfl)
  have number : limitedOptimizer.settings.timeout.float? = .ok 1 := by decide +kernel
  have calls (clock : Clock) :
      (clock.Exceeds 0 1 4 →
        (limitedOptimizer.optimize clock 0 ∅ (listOf Relisted.sameNames)).result =
          .error (.timedOut "1")) ∧
      (¬ clock.Exceeds 0 1 4 → ∃ plan,
        (limitedOptimizer.optimize clock 0 ∅ (listOf Relisted.sameNames)).result = .ok plan) := by
    obtain ⟨schedules, ran⟩ := limitedOptimizer.untimed.exists_optimizeBy clock 0 ∅
      (listOf Relisted.sameNames)
    obtain ⟨schedules', ran'⟩ := limitedOptimizer.exists_optimizeBy clock 0 ∅
      (listOf Relisted.sameNames)
    obtain ⟨returns, limits⟩ :=
      timedOut_iff CostModel.estimates_crossProduct sound_empty accepted rfl number ran
    obtain ⟨plan, ok⟩ := returns orderly rfl
    obtain ⟨e, counted, timed, _⟩ := limits plan ok
    have solved : e.subproblems = 4 := subproblems_three (o := limitedOptimizer.untimed)
      CostModel.estimates_crossProduct.agrees accepted rfl ran ok counted
    obtain ⟨iff, inTime, _⟩ := timed schedules' _ ran'
    rw [solved] at iff inTime
    exact ⟨iff.mpr, fun none => ⟨plan, (inTime none).1.result.trans ok⟩⟩
  constructor
  · exact (calls (jumpyClock 4)).1 ⟨4, by decide, by decide, by decide +kernel⟩
  · apply (calls (jumpyClock 5)).2
    rintro ⟨i, one, four, late⟩
    interval_cases i <;> exact absurd late (by decide +kernel)

end Optimizer

end JoinOrder
