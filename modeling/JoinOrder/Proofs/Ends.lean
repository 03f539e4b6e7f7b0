import JoinOrder.Proofs.Estimate
import JoinOrder.Proofs.Memo
import JoinOrder.Search
/-!
Runs of searches, request by request. What a search does to a table and to the account of its work
is all that matters here: how often the model was asked or the clock was read decides at most where
a run fails.
-/

namespace JoinOrder

namespace Search

/-- The progress is told, unless nobody listens. -/
def Answerer.Tells (a : Answerer) (progress : Progress) : Prop :=
  a.verbose = true → ∃ items, progress.message = .ok items ∧
    (MessageLayout.default.write items).output.2 = .ok ()

theorem Answerer.tells_of_quiet {a : Answerer} (quiet : a.verbose = false) (progress : Progress) :
    a.Tells progress :=
  fun listens => by rw [quiet] at listens; contradiction

/-! ### One request -/

/-- Answers the next request of a search. A search that has ended stays as it is. -/
def step {α : Type} (a : Answerer) : Search α → State → Search α × State
  | done v, s => (done v, s)
  | fail e, s => (fail e, s)
  | consult relations next, s => (next (s.memo.find? relations), s)
  | record source plan next, s =>
    match s.memo.store (SlotTable.ofList source).members plan with
    | .ok memo => (next, { s with memo })
    | .error e => (fail e, s)
  | join left right next, s =>
    match Plan.joinWith a.model s.asked left right with
    | .ok plan => (next plan, { s with asked := s.asked + 1 })
    | .error e => (fail e, { s with asked := s.asked + 1 })
  | checkTime next, s =>
    match a.deadline with
    | none => (next, s)
    | some deadline =>
      if deadline.isOver (a.clock s.readings) then
        (fail (.timedOut deadline.limit.shown), { s with readings := s.readings + 1 })
      else (next, { s with readings := s.readings + 1 })
  | count work next, s => (next, { s with effort := s.effort.add work })
  | report progress next, s =>
    if a.verbose then
      match progress.message with
      | .error e => (fail e, s)
      | .ok items =>
        let (line, written) := (MessageLayout.default.write items).output
        match written with
        | .ok () => (next, { s with log := s.log ++ [line] })
        | .error e => (fail e, { s with log := s.log ++ [line] })
    else (next, s)

variable {α β : Type} {a : Answerer} {s : State} {est : Plan → Plan → Int}

theorem run_step (x : Search α) : run a (step a x s).1 (step a x s).2 = run a x s := by
  cases x with
  | done | fail | consult | count => rfl
  | record source plan next =>
    rw [run, step]
    cases s.memo.store (SlotTable.ofList source).members plan <;> rfl
  | join left right next =>
    rw [run, step]
    cases Plan.joinWith a.model s.asked left right <;> rfl
  | checkTime next =>
    rw [run, step]
    cases a.deadline with
    | none => rfl
    | some deadline =>
      by_cases late : deadline.isOver (a.clock s.readings) = true
      · simp [late, run]
      · simp [late]
  | report progress next =>
    rw [run, step]
    by_cases told : a.verbose = true
    · simp only [told, if_true]
      cases progress.message with
      | error e => rfl
      | ok items =>
        dsimp only
        cases (MessageLayout.default.write items).output.2 <;> rfl
    · simp only [told, Bool.false_eq_true, if_false]

/-- What holds of searches that have ended, and of others if it does after their next request, holds
of all searches. -/
theorem step_induction {motive : Search α → State → Prop} (done : ∀ v s, motive (done v) s)
    (fail : ∀ e s, motive (fail e) s)
    (turn : ∀ x s, motive (step a x s).1 (step a x s).2 → motive x s) (x : Search α) (s : State) :
    motive x s := by
  induction x generalizing s with
  | done v => exact done v s
  | fail e => exact fail e s
  | consult relations next ih => exact turn _ _ (ih _ _)
  | count work next ih => exact turn _ _ (ih _)
  | record source plan next ih =>
    apply turn
    rw [step]
    cases s.memo.store (SlotTable.ofList source).members plan with
    | error e => exact fail e _
    | ok memo => exact ih _
  | join left right next ih =>
    apply turn
    rw [step]
    cases Plan.joinWith a.model s.asked left right with
    | error e => exact fail e _
    | ok plan => exact ih _ _
  | checkTime next ih =>
    apply turn
    rw [step]
    cases a.deadline with
    | none => exact ih _
    | some deadline =>
      by_cases late : deadline.isOver (a.clock s.readings) = true
      · simp only [late, if_true]
        exact fail _ _
      · simp only [late]
        exact ih _
  | report progress next ih =>
    apply turn
    rw [step]
    by_cases told : a.verbose = true
    · simp only [told, if_true]
      cases progress.message with
      | error e => exact fail e _
      | ok items =>
        dsimp only
        cases (MessageLayout.default.write items).output.2 with
        | error e => exact fail e _
        | ok => exact ih _
    · simp only [told]
      exact ih _

/-- What a search does to the table and to the account of its work. -/
structure Standing where
  memo : Memo
  effort : Effort

def State.standing (s : State) : Standing := ⟨s.memo, s.effort⟩

namespace Standing

def count (t : Standing) (work : Work) : Standing := { t with effort := t.effort.add work }

def withPlan (t : Standing) (source : List Relation) (plan : Plan) : Standing :=
  { t with memo := t.memo.withPlan source plan }

end Standing

/-- A request either is granted and lets the search go on from here, or it is refused, which ends the
search and leaves everything alone. -/
def StepsTo (a : Answerer) (x : Search α) (t : Standing) (next : Search α) (t' : Standing)
    (granted refused : Prop) : Prop :=
  ∀ s : State, s.standing = t →
    ((step a x s).1 = next ∧ (step a x s).2.standing = t' ∧ granted) ∨
      (∃ e, (step a x s).1 = fail e) ∧ (step a x s).2.standing = t ∧ refused

variable {t : Standing}

theorem stepsTo_consult {relations : RelationSet} {next : Option Plan → Search α} :
    StepsTo a (consult relations next) t (next (t.memo.find? relations)) t True False := by
  rintro s rfl
  exact .inl ⟨rfl, rfl, trivial⟩

theorem stepsTo_count {work : Work} {next : Search α} :
    StepsTo a (count work next) t next (t.count work) True False := by
  rintro s rfl
  exact .inl ⟨rfl, rfl, trivial⟩

theorem stepsTo_record {source : List Relation} {plan : Plan} {next : Search α}
    (covers : plan.relations.identities = (IdSet.ofList source).identities) :
    StepsTo a (record source plan next) t next (t.withPlan source plan) True False := by
  rintro s rfl
  refine .inl ?_
  rw [step, Memo.store_eq_ok covers]
  exact ⟨rfl, rfl, trivial⟩

theorem stepsTo_join {left right : Plan} {next : Plan → Search α} (agrees : a.model.Agrees est)
    (hl : left.IsCounted) (hr : right.IsCounted) :
    StepsTo a (join left right next) t (next (.joined est left right)) t True
      (¬ a.model.Estimates est) := by
  rintro s rfl
  cases estimate : a.model.estimate s.asked left right with
  | ok v =>
    refine .inl ?_
    rw [agrees s.asked left right v hl hr estimate] at estimate
    rw [step, Plan.joinWith_eq_ok hl hr estimate]
    exact ⟨rfl, rfl, trivial⟩
  | error e =>
    refine .inr ?_
    rw [step, Plan.joinWith_eq_error estimate]
    exact ⟨⟨e, rfl⟩, rfl, fun estimates => by
      rw [estimates s.asked left right hl hr] at estimate
      contradiction⟩

theorem stepsTo_checkTime {next : Search α} :
    StepsTo a (checkTime next) t next t True (a.deadline ≠ none) := by
  rintro s rfl
  unfold step
  cases a.deadline with
  | none => exact .inl ⟨rfl, rfl, trivial⟩
  | some deadline =>
    by_cases late : deadline.isOver (a.clock s.readings) = true
    · simp only [late, if_true]
      exact .inr ⟨⟨_, rfl⟩, rfl, Option.some_ne_none _⟩
    · simp only [late]
      exact .inl ⟨rfl, rfl, trivial⟩

theorem stepsTo_report {progress : Progress} {next : Search α} :
    StepsTo a (report progress next) t next t (a.Tells progress) (¬ a.Tells progress) := by
  rintro s rfl
  unfold step Answerer.Tells
  by_cases told : a.verbose = true
  · simp only [told, if_true, true_imp_iff]
    cases progress.message with
    | error e => exact .inr ⟨⟨e, rfl⟩, rfl, fun ⟨_, message, _⟩ => nomatch message⟩
    | ok items =>
      dsimp only
      cases output : (MessageLayout.default.write items).output.2 with
      | ok => exact .inl ⟨rfl, rfl, items, rfl, output⟩
      | error e =>
        refine .inr ⟨⟨e, rfl⟩, rfl, fun ⟨others, message, fine⟩ => ?_⟩
        cases message
        rw [output] at fine
        contradiction
  · exact .inl ⟨by simp [told], by simp [told], fun h => absurd h told⟩

/-! ### Whole runs -/

theorem run_bind (x : Search α) (f : α → Search β) (s : State) :
    run a (x.bind f) s =
      match run a x s with
      | (.ok v, s) => run a (f v) s
      | (.error e, s) => (.error e, s) := by
  induction x generalizing s with
  | done | fail => rfl
  | consult relations next ih => exact ih _ _
  | count work next ih => exact ih _
  | record source plan next ih =>
    rw [bind, run, run]
    cases s.memo.store (SlotTable.ofList source).members plan with
    | error e => rfl
    | ok memo => exact ih _
  | join left right next ih =>
    rw [bind, run, run]
    cases Plan.joinWith a.model s.asked left right with
    | error e => rfl
    | ok plan => exact ih _ _
  | checkTime next ih =>
    rw [bind, run, run]
    cases a.deadline with
    | none => exact ih _
    | some deadline =>
      by_cases late : deadline.isOver (a.clock s.readings) = true
      · simp only [late, if_true]
      · simp only [late]
        exact ih _
  | report progress next ih =>
    rw [bind, run, run]
    by_cases told : a.verbose = true
    · simp only [told, if_true]
      cases progress.message with
      | error e => rfl
      | ok items =>
        dsimp only
        cases (MessageLayout.default.write items).output.2 with
        | error e => rfl
        | ok => exact ih _
    · simp only [told]
      exact ih _

/-- Where a run ends, however often the model was asked and the clock was read before. Of a run that
fails only the table matters. -/
def Ends (a : Answerer) (x : Search α) (t : Standing) (ok : α → Standing → Prop)
    (failed : Memo → Prop) : Prop :=
  ∀ s : State, s.standing = t →
    match run a x s with
    | (.ok v, s) => ok v s.standing
    | (.error _, s) => failed s.memo

variable {x : Search α} {ok : α → Standing → Prop} {failed : Memo → Prop}

theorem ends_done {v : α} (h : ok v t) : Ends a (done v) t ok failed := by
  rintro s rfl
  exact h

theorem Ends.mono {ok' : α → Standing → Prop} (h : Ends a x t ok failed)
    (weaker : ∀ v t, ok v t → ok' v t) : Ends a x t ok' failed := by
  intro s same
  have before := h s same
  match run a x s, before with
  | (.ok v, s), before => exact weaker v s.standing before
  | (.error e, s), before => exact before

theorem ends_bind {f : α → Search β} {ok : β → Standing → Prop}
    (h : Ends a x t (fun v t => Ends a (f v) t ok failed) failed) :
    Ends a (x.bind f) t ok failed := by
  intro s same
  rw [run_bind]
  have first := h s same
  match run a x s, first with
  | (.ok v, s), first => exact first s rfl
  | (.error e, s), first => exact first

theorem ends_step {next : Search α} {t' : Standing} {granted refused : Prop}
    (steps : StepsTo a x t next t' granted refused) (stop : refused → failed t.memo)
    (h : granted → Ends a next t' ok failed) : Ends a x t ok failed := by
  rintro s rfl
  rw [← run_step]
  rcases steps s rfl with ⟨search, standing, given⟩ | ⟨⟨e, search⟩, standing, denied⟩
  · rw [search]
    exact h given _ standing
  · have memo : (step a x s).2.memo = s.memo := congrArg Standing.memo standing
    rw [search]
    change failed (step a x s).2.memo
    rw [memo]
    exact stop denied

theorem ends_consult {relations : RelationSet} {next : Option Plan → Search α}
    (h : Ends a (next (t.memo.find? relations)) t ok failed) :
    Ends a (consult relations next) t ok failed :=
  ends_step stepsTo_consult False.elim fun _ => h

theorem ends_count {work : Work} {next : Search α} (h : Ends a next (t.count work) ok failed) :
    Ends a (count work next) t ok failed :=
  ends_step stepsTo_count False.elim fun _ => h

theorem ends_record {source : List Relation} {plan : Plan} {next : Search α}
    (covers : plan.relations.identities = (IdSet.ofList source).identities)
    (h : Ends a next (t.withPlan source plan) ok failed) :
    Ends a (record source plan next) t ok failed :=
  ends_step (stepsTo_record covers) False.elim fun _ => h

theorem ends_join {left right : Plan} {next : Plan → Search α} (agrees : a.model.Agrees est)
    (hl : left.IsCounted) (hr : right.IsCounted) (stop : ¬ a.model.Estimates est → failed t.memo)
    (h : Ends a (next (.joined est left right)) t ok failed) :
    Ends a (join left right next) t ok failed :=
  ends_step (stepsTo_join agrees hl hr) stop fun _ => h

theorem ends_checkTime {next : Search α} (stop : a.deadline ≠ none → failed t.memo)
    (h : Ends a next t ok failed) : Ends a (checkTime next) t ok failed :=
  ends_step stepsTo_checkTime stop fun _ => h

theorem ends_report {progress : Progress} {next : Search α}
    (stop : ¬ a.Tells progress → failed t.memo)
    (h : a.Tells progress → Ends a next t ok failed) :
    Ends a (report progress next) t ok failed :=
  ends_step stepsTo_report stop h

end Search

end JoinOrder
