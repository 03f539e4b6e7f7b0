import JoinOrder.Proofs.Turns
/-!
What a search asks of the model and hands to the table, event by event, whether it runs alone or takes
turns with others.

A search that is watched keeps these events beside its result. When one task of a layer fails, those
that have begun still come to their end before the layer does; whether a schedule lets them is watched
as well.
-/

namespace JoinOrder

namespace Search

inductive Event where
  | asked (left right : Plan) (answer : Except Error Value)
  | stored (source : List Relation) (plan : Plan) (answer : Except Error Memo)

namespace Event

/-- The model gave an estimate. -/
def isEstimate : Event → Bool
  | asked _ _ (.ok _) => true
  | _ => false

/-- The table refused a plan. -/
def isRefusal : Event → Bool
  | stored _ _ (.error _) => true
  | _ => false

end Event

variable {α : Type}

/-- The event of the next request, if it is one to the model or the table. -/
def event (a : Answerer) : Search α → State → List Event
  | join left right _, s => [.asked left right (a.model.estimate s.asked left right)]
  | record source plan _, s =>
    [.stored source plan (s.memo.store (SlotTable.ofList source).members plan)]
  | _, _ => []

/-- The events of a run. -/
def trace (a : Answerer) : Search α → State → List Event
  | done _, _ => []
  | fail _, _ => []
  | consult relations next, s => trace a (next (s.memo.find? relations)) s
  | record source plan next, s =>
    .stored source plan (s.memo.store (SlotTable.ofList source).members plan) ::
      match s.memo.store (SlotTable.ofList source).members plan with
      | .ok memo => trace a next { s with memo }
      | .error _ => []
  | join left right next, s =>
    .asked left right (a.model.estimate s.asked left right) ::
      match Plan.joinWith a.model s.asked left right with
      | .ok plan => trace a (next plan) { s with asked := s.asked + 1 }
      | .error _ => []
  | checkTime next, s =>
    match a.deadline with
    | none => trace a next s
    | some deadline =>
      if deadline.isOver (a.clock s.readings) then []
      else trace a next { s with readings := s.readings + 1 }
  | count work next, s => trace a next { s with effort := s.effort.add work }
  | report progress next, s =>
    if a.verbose then
      match progress.message with
      | .error _ => []
      | .ok items =>
        let (line, written) := (MessageLayout.default.write items).output
        match written with
        | .ok () => trace a next { s with log := s.log ++ [line] }
        | .error _ => []
    else trace a next s

/-- The events of searches that take turns. -/
def turnsTrace (a : Answerer) : List Nat → List (Search α) → State → List Event
  | [], _, _ => []
  | i :: schedule, pool, s =>
    match pool[i]? with
    | none => turnsTrace a schedule pool s
    | some x => event a x s ++ turnsTrace a schedule (pool.set i (step a x s).1) (step a x s).2

variable {a : Answerer} {s : State}

theorem trace_step (x : Search α) :
    trace a x s = event a x s ++ trace a (step a x s).1 (step a x s).2 := by
  cases x with
  | done | fail | consult | count => rfl
  | record source plan next =>
    rw [trace, event, step]
    cases s.memo.store (SlotTable.ofList source).members plan <;> rfl
  | join left right next =>
    rw [trace, event, step]
    cases Plan.joinWith a.model s.asked left right <;> rfl
  | checkTime next =>
    change trace a (checkTime next) s = trace a _ _
    rw [trace, step]
    cases a.deadline with
    | none => rfl
    | some deadline =>
      by_cases late : deadline.isOver (a.clock s.readings) = true
      · simp [late, trace]
      · simp [late]
  | report progress next =>
    change trace a (report progress next) s = trace a _ _
    rw [trace, step]
    by_cases told : a.verbose = true
    · simp only [told, if_true]
      cases progress.message with
      | error e => rfl
      | ok items =>
        dsimp only
        cases (MessageLayout.default.write items).output.2 <;> rfl
    · simp only [told, Bool.false_eq_true, if_false]

/-! ### Watching a search -/

/-- What there is to see of a search. -/
structure Watch (α : Type) where
  result : Except Error α
  state : State
  events : List Event
  /-- every task that has begun has come to its end -/
  atRest : Bool

namespace Watch

/-- What is seen of a search after some events. -/
def after (events : List Event) (w : Watch α) : Watch α := { w with events := events ++ w.events }

end Watch

def watch (a : Answerer) (x : Search α) (s : State) : Watch α :=
  ⟨(run a x s).1, (run a x s).2, trace a x s, true⟩

/-- Watches the layers of some sizes, and how the answer is read out. -/
def watchLayers (a : Answerer) (order : Order) (workers : Value) (relations : List Relation)
    (schedules : Nat → List Nat) : List Nat → State → Option (Watch Plan)
  | [], s => some (watch a (readOut relations) s)
  | size :: sizes, s =>
    let opening := trace a (openLayer workers relations size) s
    match run a (openLayer workers relations size) s with
    | (.error e, s) => some ⟨.error e, s, opening, true⟩
    | (.ok layer, s) =>
      let events := opening ++ turnsTrace a (schedules size) (tasks order layer) s
      let (pool, s) := takeTurns a (schedules size) (tasks order layer) s
      match outcome pool with
      | none => none
      | some (.error e) => some ⟨.error e, s, events, rests (schedules size) pool⟩
      | some (.ok ()) =>
        (watchLayers a order workers relations schedules sizes s).map (.after events)

/-- Who watches does not change anything. -/
theorem watchLayers_ended {order : Order} {workers : Value} {relations : List Relation}
    {schedules : Nat → List Nat} (sizes : List Nat) (s : State) :
    (watchLayers a order workers relations schedules sizes s).map (fun w => (w.result, w.state)) =
      layersBy a order workers relations schedules sizes s := by
  induction sizes generalizing s with
  | nil => rfl
  | cons size sizes ih =>
    simp only [watchLayers, layersBy]
    match run a (openLayer workers relations size) s with
    | (.error e, s) => rfl
    | (.ok layer, s) =>
      dsimp only
      match outcome (takeTurns a (schedules size) (tasks order layer) s).1 with
      | none => rfl
      | some (.error e) => rfl
      | some (.ok ()) =>
        dsimp only
        rw [Option.map_map, ← ih]
        rfl

variable {order : Order} {workers : Value} {relations : List Relation}

/-- Schedules of other layers do not matter. -/
theorem watchLayers_congr {schedules schedules' : Nat → List Nat} {sizes : List Nat} (s : State)
    (same : ∀ size ∈ sizes, schedules size = schedules' size) :
    watchLayers a order workers relations schedules sizes s =
      watchLayers a order workers relations schedules' sizes s := by
  induction sizes generalizing s with
  | nil => rfl
  | cons size sizes ih =>
    have others s := ih s fun k member => same k (List.mem_cons_of_mem _ member)
    simp only [watchLayers, same size List.mem_cons_self, others]

/-- A single run of the layered search follows one of the schedules, and leaves no task in between. -/
theorem exists_watchLayers (order : Order) (workers : Value) (relations : List Relation)
    (sizes : List Nat) (nodup : sizes.Nodup) (s : State) :
    ∃ schedules w, watchLayers a order workers relations schedules sizes s = some w ∧
      (w.result, w.state) = run a (solveSizes order workers relations sizes) s ∧ w.atRest = true := by
  induction sizes generalizing s with
  | nil => exact ⟨fun _ => [], _, rfl, rfl, rfl⟩
  | cons size sizes ih =>
    have ⟨fresh, nodup⟩ := List.nodup_cons.mp nodup
    rw [solveSizes_cons, run_bind]
    simp only [watchLayers]
    match run a (openLayer workers relations size) s with
    | (.error e, s) => exact ⟨fun _ => [], _, rfl, rfl, rfl⟩
    | (.ok layer, s) =>
      obtain ⟨schedule, result, after, still⟩ := exists_schedule (a := a) (tasks order layer) s
      simp only [run_bind]
      match run a (oneByOne (tasks order layer)) s, result, after with
      | (.error e, s'), result, after =>
        refine ⟨fun _ => schedule, ?_⟩
        simp only [result, after]
        exact ⟨_, rfl, rfl, still⟩
      | (.ok v, s'), result, after =>
        obtain ⟨schedules, w, rest, ended, still⟩ := ih nodup s'
        -- The schedule of this layer does not touch those of the later ones, which have other sizes.
        have others : watchLayers a order workers relations
            (Function.update schedules size schedule) sizes s' =
              watchLayers a order workers relations schedules sizes s' :=
          watchLayers_congr s' fun k member =>
            Function.update_of_ne (fun same : k = size => fresh (same ▸ member)) ..
        refine ⟨Function.update schedules size schedule, ?_⟩
        simp only [Function.update_self, result, after]
        rw [others, rest]
        exact ⟨_, rfl, ended, still⟩

theorem exists_schedules (order : Order) (workers : Value) (relations : List Relation) (s : State) :
    ∃ schedules, solveLayersBy a order workers relations schedules s =
      some (run a (solveLayers order workers relations) s) := by
  obtain ⟨schedules, w, watched, ended, _⟩ := exists_watchLayers (a := a) order workers relations
    (List.range' 2 (relations.length - 1)) List.nodup_range' s
  refine ⟨schedules, ?_⟩
  rw [solveLayersBy, ← watchLayers_ended, watched]
  exact congrArg some ended

end Search

end JoinOrder
