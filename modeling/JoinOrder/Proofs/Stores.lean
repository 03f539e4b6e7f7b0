import JoinOrder.Proofs.Optimizing
/-!
What happens to a table during a call. Searches do nothing to it but store plans, and what a store
leaves true stays true through a request, a run, any turns of the tasks of a layer, the layers, and the
call as a whole, however it ends.
-/

namespace JoinOrder

namespace Memo

variable {m m' : Memo} {listed : List Relation} {plan : Plan}

/-- What was true of a table is true after every store that is accepted. -/
def KeptByStores (holds : Memo → Prop) : Prop :=
  ∀ m m' listed plan, m.store listed plan = .ok m' → holds m → holds m'

/-- What is true of a table does not depend on what it is bound to. -/
def KeptByBinding (holds : Memo → Prop) : Prop :=
  ∀ m configuration, holds m → holds { m with configuration }

/-- A store is accepted if the plan covers the set, and then the plan is put there. -/
theorem eq_put_of_store (ok : m.store listed plan = .ok m') :
    plan.relations.same (.ofList listed) = true ∧ m' = m.put listed plan := by
  unfold store at ok
  split at ok
  · next covers =>
    cases ok
    exact ⟨covers, rfl⟩
  · cases shown : plan.shown with
    | error e => rw [shown] at ok; exact nomatch ok
    | ok text =>
      cases names : RelationSet.names listed with
      | error e => rw [shown, names] at ok; exact nomatch ok
      | ok names' => rw [shown, names] at ok; exact nomatch ok

theorem KeptByBinding.bind {holds : Memo → Prop} (kept : KeptByBinding holds) {configuration : Value}
    (ok : m.bind configuration = .ok m') (before : holds m) : holds m' := by
  rcases bind_eq_ok.mp ok with ⟨_, rfl⟩ | ⟨_, _, rfl⟩
  · exact kept m configuration before
  · exact before

end Memo

namespace Search

variable {α : Type} {a : Answerer} {order : Order} {workers : Value} {relations : List Relation}
  {schedules : Nat → List Nat} {holds : Memo → Prop}

/-- A request leaves the table alone, unless it is one to store a plan that is accepted. -/
theorem step_memo (x : Search α) (s : State) : (step a x s).2.memo = s.memo ∨
    ∃ listed plan, s.memo.store listed plan = .ok (step a x s).2.memo := by
  cases x with
  | done | fail | consult | count => exact .inl rfl
  | record source plan next =>
    cases stored : s.memo.store (SlotTable.ofList source).members plan with
    | error e => simp only [step, stored, true_or]
    | ok m =>
      simp only [step, stored]
      exact .inr ⟨_, _, stored⟩
  | join left right next =>
    rw [step]
    cases Plan.joinWith a.model s.asked left right <;> exact .inl rfl
  | checkTime next =>
    rw [step]
    cases a.deadline with
    | none => exact .inl rfl
    | some deadline =>
      by_cases late : deadline.isOver (a.clock s.readings) = true
      · simp only [late, if_true, true_or]
      · simp only [late, Bool.false_eq_true, if_false, true_or]
  | report progress next =>
    rw [step]
    by_cases told : a.verbose = true
    · simp only [told, if_true]
      cases progress.message with
      | error e => exact .inl rfl
      | ok items =>
        dsimp only
        cases (MessageLayout.default.write items).output.2 <;> exact .inl rfl
    · simp only [told, Bool.false_eq_true, if_false, true_or]

theorem step_keeps (kept : Memo.KeptByStores holds) (x : Search α) {s : State}
    (before : holds s.memo) : holds (step a x s).2.memo := by
  rcases step_memo (a := a) x s with same | ⟨listed, plan, stored⟩
  · rw [same]
    exact before
  · exact kept _ _ listed plan stored before

/-- What one request preserves, a whole run preserves. -/
theorem run_keeps (kept : Memo.KeptByStores holds) (x : Search α) {s : State}
    (before : holds s.memo) : holds (run a x s).2.memo := by
  induction x, s using step_induction (a := a) with
  | done v s => exact before
  | fail e s => exact before
  | turn x s ih =>
    rw [← run_step]
    exact ih (step_keeps kept x before)

theorem takeTurns_keeps (kept : Memo.KeptByStores holds) (schedule : List Nat)
    (pool : List (Search α)) {s : State} (before : holds s.memo) :
    holds (takeTurns a schedule pool s).2.memo := by
  induction schedule generalizing pool s with
  | nil => exact before
  | cons i schedule ih =>
    rw [takeTurns]
    cases pool[i]? with
    | none => exact ih pool before
    | some x => exact ih _ (step_keeps kept x before)

theorem layersBy_keeps (kept : Memo.KeptByStores holds) {sizes : List Nat} {s s' : State}
    {result : Except Error Plan} (before : holds s.memo)
    (ran : layersBy a order workers relations schedules sizes s = some (result, s')) :
    holds s'.memo := by
  induction sizes generalizing s with
  | nil =>
    have last := run_keeps (a := a) kept (readOut relations) before
    rwa [Option.some.inj ran] at last
  | cons size sizes ih =>
    have opened := run_keeps (a := a) kept (openLayer workers relations size) before
    rw [layersBy] at ran
    generalize run a (openLayer workers relations size) s = answered at opened ran
    cases answered with
    | mk answer t =>
      cases answer with
      | error e =>
        cases ran
        exact opened
      | ok layer =>
        have turned := takeTurns_keeps (a := a) kept (schedules size) (tasks order layer) opened
        dsimp only at ran
        cases ended : outcome (takeTurns a (schedules size) (tasks order layer) t).1 with
        | none =>
          rw [ended] at ran
          cases ran
        | some result =>
          rw [ended] at ran
          cases result with
          | error e =>
            cases ran
            exact turned
          | ok => exact ih turned ran

end Search

namespace Optimizer

variable {o : Optimizer} {schedules : Nat → List Nat} {a : Search.Answerer} {memo : Memo}
  {source relations : List Relation} {holds : Memo → Prop} {clock : Clock} {readings : Nat}
  {collection : Item} {out : Outcome}

theorem searchBy_keeps (kept : Memo.KeptByStores holds) {s s' : Search.State}
    {result : Except Error Plan} (before : holds s.memo)
    (ran : o.searchBy schedules a memo source relations s = some (result, s')) : holds s'.memo := by
  unfold searchBy at ran
  split at ran
  · exact Search.layersBy_keeps kept before ran
  · have last := Search.run_keeps (a := a) kept (.solve o.settings.order source relations) before
    rwa [Option.some.inj ran] at last

/-- A call that is refused leaves the table as it was; any other binds it and may store plans. -/
theorem optimizeBy_keeps (kept : Memo.KeptByStores holds) (free : Memo.KeptByBinding holds)
    (before : holds memo) (ran : o.optimizeBy schedules clock readings memo collection = some out) :
    holds out.memo := by
  cases accepted : o.accept memo collection with
  | error e =>
    rw [optimizeBy_refused accepted] at ran
    cases ran
    exact before
  | ok checked =>
    cases checked with
    | mk relations bound =>
      obtain ⟨_, description, _, binding⟩ := accept_eq_ok.mp accepted
      have held : holds bound := free.bind binding before
      cases prepared : o.prepare (clock readings) relations with
      | error e =>
        rw [optimizeBy_unprepared accepted prepared] at ran
        cases ran
        exact held
      | ok preparation =>
        obtain ⟨deadline, warnings, sorted, opening⟩ := preparation
        rw [optimizeBy_prepared accepted prepared] at ran
        obtain ⟨⟨result, s⟩, searched, rfl⟩ := Option.map_eq_some_iff.mp ran
        rw [conclude_memo]
        exact searchBy_keeps kept held searched

end Optimizer

end JoinOrder
