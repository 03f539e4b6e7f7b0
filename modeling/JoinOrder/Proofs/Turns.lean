import JoinOrder.Proofs.Ends
/-!
Searches that take turns. A schedule says whose turn it is next; whoever has a turn gets one request
answered, and all see the same table.

The layered search hands out the tasks of a layer under any schedule, and goes on to the next layer
when all of them are done. One schedule lets every task finish before the next one starts, which is
what a single run does.
-/

namespace JoinOrder

namespace Search

variable {α : Type}

/-- Gives turns to the searches of a pool. Turns of searches that do not exist pass. -/
def takeTurns (a : Answerer) : List Nat → List (Search α) → State → List (Search α) × State
  | [], pool, s => (pool, s)
  | i :: schedule, pool, s =>
    match pool[i]? with
    | none => takeTurns a schedule pool s
    | some x => takeTurns a schedule (pool.set i (step a x s).1) (step a x s).2

/-- What a pool has come to: an error as soon as one search failed, and nothing yet as long as one is
neither done nor failed. -/
def outcome : List (Search α) → Option (Except Error Unit)
  | [] => some (.ok ())
  | done _ :: pool => outcome pool
  | fail e :: _ => some (.error e)
  | _ :: pool =>
    match outcome pool with
    | some (.error e) => some (.error e)
    | _ => none

def hasEnded : Search α → Bool
  | done _ | fail _ => true
  | _ => false

/-- All searches that had a turn have ended. -/
def rests (schedule : List Nat) (pool : List (Search α)) : Bool :=
  schedule.all fun i => (pool[i]?.map hasEnded).getD true

/-- Looks up which sets of a layer have no plan yet, and says so. -/
def openLayer (workers : Value) (relations : List Relation) (size : Nat) :
    Search (List (List Relation)) := do
  let layer ← missing (Subset.ofSize size relations)
  report (.layer layer.length size workers) (done layer)

def readOut (relations : List Relation) : Search Plan :=
  consult (.ofList relations) fun
    | some plan => done plan
    | none => fail .absentKey

/-- Solves layers one after the other, each under a schedule of its own. -/
def layersBy (a : Answerer) (order : Order) (workers : Value) (relations : List Relation)
    (schedules : Nat → List Nat) : List Nat → State → Option (Except Error Plan × State)
  | [], s => some (run a (readOut relations) s)
  | size :: sizes, s =>
    match run a (openLayer workers relations size) s with
    | (.error e, s) => some (.error e, s)
    | (.ok layer, s) =>
      let (pool, s) := takeTurns a (schedules size) (tasks order layer) s
      match outcome pool with
      | none => none
      | some (.error e) => some (.error e, s)
      | some (.ok ()) => layersBy a order workers relations schedules sizes s

/-- The layered search, if all its schedules last until their layers are done. -/
def solveLayersBy (a : Answerer) (order : Order) (workers : Value) (relations : List Relation)
    (schedules : Nat → List Nat) (s : State) : Option (Except Error Plan × State) :=
  layersBy a order workers relations schedules (List.range' 2 (relations.length - 1)) s

variable {a : Answerer} {s : State}

/-! ### What a pool has come to -/

theorem outcome_cons_ok {x : Search α} {pool : List (Search α)}
    (h : outcome (x :: pool) = some (.ok ())) : (∃ v, x = .done v) ∧ outcome pool = some (.ok ()) := by
  cases x with
  | done v => exact ⟨⟨v, rfl⟩, h⟩
  | fail e => exact nomatch h
  | _ =>
    unfold outcome at h
    split at h <;> exact nomatch h

theorem outcome_cons_error {x : Search α} {pool : List (Search α)} {e : Error}
    (h : outcome (x :: pool) = some (.error e)) :
    x = .fail e ∨ outcome pool = some (.error e) := by
  cases x with
  | done v => exact .inr h
  | fail e' =>
    cases h
    exact .inl rfl
  | _ =>
    unfold outcome at h
    split at h
    case h_1 found => exact .inr (found.trans h)
    case h_2 => exact nomatch h

theorem exists_done {x : Search α} {pool : List (Search α)} {i : Nat}
    (h : outcome pool = some (.ok ())) (whose : pool[i]? = some x) : ∃ v, x = done v := by
  induction pool generalizing i with
  | nil => exact nomatch whose
  | cons y pool ih =>
    obtain ⟨first, rest⟩ := outcome_cons_ok h
    cases i with
    | zero =>
      cases whose
      exact first
    | succ i => exact ih rest whose

/-! ### One search after the other -/

/-- The search that has ended in a result. -/
def ended : Except Error α → Search α
  | .ok v => done v
  | .error e => fail e

/-- Enough turns in a row bring a search to its end. -/
theorem exists_turns (x : Search α) (pool : List (Search α)) (s : State) :
    ∃ n, takeTurns a (List.replicate n 0) (x :: pool) s =
      (ended (run a x s).1 :: pool, (run a x s).2) := by
  induction x, s using step_induction (a := a) with
  | done v s => exact ⟨0, rfl⟩
  | fail e s => exact ⟨0, rfl⟩
  -- One more turn comes before all others.
  | turn x s ih =>
    obtain ⟨n, ih⟩ := ih
    rw [run_step] at ih
    exact ⟨n + 1, ih⟩

theorem takeTurns_append (first second : List Nat) (pool : List (Search α)) (s : State) :
    takeTurns a (first ++ second) pool s =
      takeTurns a second (takeTurns a first pool s).1 (takeTurns a first pool s).2 := by
  induction first generalizing pool s with
  | nil => rfl
  | cons i first ih =>
    rw [List.cons_append, takeTurns, takeTurns]
    cases pool[i]? with
    | none => exact ih pool s
    | some x => exact ih _ _

theorem length_takeTurns (schedule : List Nat) (pool : List (Search α)) (s : State) :
    (takeTurns a schedule pool s).1.length = pool.length := by
  induction schedule generalizing pool s with
  | nil => rfl
  | cons i schedule ih =>
    rw [takeTurns]
    cases pool[i]? with
    | none => exact ih pool s
    | some x => rw [ih, List.length_set]

/-- The others take their turns as if the first search were not there. -/
theorem takeTurns_map_succ (schedule : List Nat) (x : Search α) (pool : List (Search α)) (s : State) :
    takeTurns a (schedule.map (· + 1)) (x :: pool) s =
      (x :: (takeTurns a schedule pool s).1, (takeTurns a schedule pool s).2) := by
  induction schedule generalizing pool s with
  | nil => rfl
  | cons i schedule ih =>
    rw [List.map_cons, takeTurns, takeTurns, List.getElem?_cons_succ]
    cases pool[i]? with
    | none => exact ih pool s
    | some y => exact ih _ _

def oneByOne (pool : List (Search α)) : Search Unit := pool.forM fun x => do let _ ← x

theorem run_oneByOne_cons (x : Search α) (pool : List (Search α)) (s : State) :
    run a (oneByOne (x :: pool)) s =
      match run a x s with
      | (.ok _, s) => run a (oneByOne pool) s
      | (.error e, s) => (.error e, s) := by
  change run a ((x.bind fun _ => done ()).bind fun _ => oneByOne pool) s = _
  rw [run_bind, run_bind]
  match run a x s with
  | (.ok v, s) => rfl
  | (.error e, s) => rfl

theorem hasEnded_ended (result : Except Error α) : (ended result).hasEnded = true := by
  cases result <;> rfl

theorem rests_first (n : Nat) {x : Search α} (pool : List (Search α)) (last : x.hasEnded = true) :
    rests (List.replicate n 0) (x :: pool) = true := by
  apply List.all_eq_true.mpr
  intro i member
  obtain rfl := List.eq_of_mem_replicate member
  exact last

/-- Running searches one by one is one way to let them take turns, and leaves no search in between. -/
theorem exists_schedule (pool : List (Search α)) (s : State) :
    ∃ schedule, outcome (takeTurns a schedule pool s).1 = some (run a (oneByOne pool) s).1 ∧
      (takeTurns a schedule pool s).2 = (run a (oneByOne pool) s).2 ∧
      rests schedule (takeTurns a schedule pool s).1 = true := by
  induction pool generalizing s with
  | nil => exact ⟨[], rfl, rfl, rfl⟩
  | cons x pool ih =>
    obtain ⟨n, first⟩ := exists_turns (a := a) x pool s
    rw [run_oneByOne_cons]
    match run a x s, first with
    | (.error e, s'), first =>
      refine ⟨List.replicate n 0, ?_⟩
      rw [first]
      exact ⟨rfl, rfl, rests_first n pool (hasEnded_ended _)⟩
    | (.ok v, s'), first =>
      obtain ⟨schedule, others, last, still⟩ := ih s'
      refine ⟨List.replicate n 0 ++ schedule.map (· + 1), ?_⟩
      rw [takeTurns_append, first, takeTurns_map_succ]
      refine ⟨others, last, ?_⟩
      rw [rests, List.all_append, List.all_map, Bool.and_eq_true]
      exact ⟨rests_first n _ (hasEnded_ended (.ok v)), still⟩

theorem bind_assoc {β γ : Type} (x : Search α) (f : α → Search β) (g : β → Search γ) :
    (x.bind f).bind g = x.bind fun v => (f v).bind g := by
  induction x with
  | done | fail => rfl
  | consult relations next ih => exact congrArg (consult relations) (funext ih)
  | record source plan next ih => exact congrArg (record source plan) ih
  | join left right next ih => exact congrArg (join left right) (funext ih)
  | checkTime next ih => exact congrArg checkTime ih
  | count work next ih => exact congrArg (count work) ih
  | report progress next ih => exact congrArg (report progress) ih

/-- The layers of some sizes, and then the answer. -/
def solveSizes (order : Order) (workers : Value) (relations : List Relation) (sizes : List Nat) :
    Search Plan := do
  sizes.forM (solveLayer order workers relations)
  readOut relations

theorem solveSizes_cons (order : Order) (workers : Value) (relations : List Relation) (size : Nat)
    (sizes : List Nat) :
    solveSizes order workers relations (size :: sizes) =
      (openLayer workers relations size).bind fun layer =>
        (oneByOne (tasks order layer)).bind fun _ => solveSizes order workers relations sizes := by
  have layer : solveLayer order workers relations size =
      (openLayer workers relations size).bind fun layer => oneByOne (tasks order layer) :=
    (bind_assoc (missing (Subset.ofSize size relations))
      (fun layer => report (.layer layer.length size workers) (done layer)) _).symm
  change ((solveLayer order workers relations size).bind fun _ => sizes.forM _).bind _ = _
  rw [layer, bind_assoc, bind_assoc]
  rfl

end Search

end JoinOrder
