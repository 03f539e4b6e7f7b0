import JoinOrder.Memo
import JoinOrder.Message
/-!
The search for the best plan, as a tree of requests.

A request asks for one thing: what a memo table knows, an estimate, the time. What comes next
depends on the answer alone. So a search says nothing about who answers and when: requests of one
search can be answered one after the other, and requests of several searches in turns.
-/

namespace JoinOrder

inductive Progress where
  | started (relations : List Relation)
  | layer (subsets size : Nat) (workers : Value)
  | solved (relations : List Relation) (plan : Plan)

namespace Progress

/-- What is said, as far as it has a name. -/
def message : Progress → Except Error (List Item)
  | started relations => do
    let names ← RelationSet.namesInOrder relations
    return [.text "Optimizing", .natural relations.length, .text "relations", .text names]
  | layer subsets size workers =>
    .ok [.text "Solving", .natural subsets, .text "subsets of size", .natural size, .text "with",
      .ofValue workers, .text "workers"]
  | solved relations plan => do
    let names ← RelationSet.namesInOrder relations
    return [.text "Best plan for", .text names, .text "is", .plan plan, .text "with",
      .ofValue plan.tuples, .text "tuples"]

end Progress

inductive Work where
  | subproblem
  | candidate
  | memoHit
deriving DecidableEq, Repr

inductive Search (α : Type) where
  | done (result : α)
  | fail (e : Error)
  /-- asks for the plan that is known for a set -/
  | consult (relations : RelationSet) (next : Option Plan → Search α)
  /-- keeps the plan of a set, whose members were put together in this order -/
  | record (source : List Relation) (plan : Plan) (next : Search α)
  /-- asks for a join, which takes an estimate -/
  | join (left right : Plan) (next : Plan → Search α)
  | checkTime (next : Search α)
  | count (work : Work) (next : Search α)
  | report (progress : Progress) (next : Search α)

namespace Search

def bind {α β : Type} : Search α → (α → Search β) → Search β
  | done a, f => f a
  | fail e, _ => fail e
  | consult relations next, f => consult relations fun known => bind (next known) f
  | record source plan next, f => record source plan (bind next f)
  | join left right next, f => join left right fun plan => bind (next plan) f
  | checkTime next, f => checkTime (bind next f)
  | count work next, f => count work (bind next f)
  | report progress next, f => report progress (bind next f)

instance : Monad Search where
  pure := done
  bind := bind

def ofExcept {α : Type} : Except Error α → Search α
  | .ok a => done a
  | .error e => fail e

def candidate (left right : Plan) : Search Plan :=
  join left right fun plan => count .candidate (done plan)

/-- The better of two plans: the new one only if it has fewer tuples. -/
def better (best : Option Plan) (plan : Plan) : Search (Option Plan) :=
  match best with
  | none => done (some plan)
  | some known => do
    -- Of plans with as many tuples the first one stays.
    if ← ofExcept (fitting (plan.tuples.less? known.tuples)) then return some plan
    return some known

/-- Goes through the splits of a list from one number on, so many of them. The two sides of each are
solved before they are joined. -/
def bestFrom (solve : List Relation → Search Plan) (order : Order) (relations : List Relation)
    (i : Nat) : Nat → Option Plan → Search (Option Plan)
  | 0, best => done best
  | splits + 1, best => do
    let (left, right) := Split.nth order relations i
    let leftPlan ← solve left
    let rightPlan ← solve right
    let best ← better best (← candidate leftPlan rightPlan)
    bestFrom solve order relations (i + 1) splits best

def bestOf (solve : List Relation → Search Plan) (order : Order) (relations : List Relation) :
    Search Plan := do
  match ← bestFrom solve order relations 0 (Split.count order relations.length) none with
  | some plan => return plan
  | none => fail .noRelations

def keep (source relations : List Relation) (plan : Plan) : Search Plan :=
  record source plan <| count .subproblem <| report (.solved relations plan) <| done plan

/-- Solves relations that are in their order, if there are at most as many as the number says. Two
relations are joined in their order, more of them in the best way over all splits. The sides of a
split are put together in their order, the whole set was in the order of its source. -/
def solveWithin (order : Order) : Nat → List Relation → List Relation → Search Plan
  | 0, _, _ => fail .noRelations
  | n + 1, source, relations =>
    consult (.ofList relations) fun
      | some plan => count .memoHit (done plan)
      | none =>
        match relations with
        | [] => fail .noRelations
        | [r] => done (.ofRelation r)
        | [left, right] => checkTime do
          keep source [left, right] (← candidate (.ofRelation left) (.ofRelation right))
        | relations => checkTime do
          let solve part := solveWithin order n part part
          keep source relations (← bestOf solve order relations)

def solve (order : Order) (source relations : List Relation) : Search Plan :=
  solveWithin order relations.length source relations

def missing : List (List Relation) → Search (List (List Relation))
  | [] => done []
  | relations :: rest => consult (.ofList relations) fun known => do
    let others ← missing rest
    return if known.isNone then relations :: others else others

/-- The tasks of a layer: all of one size, so none needs another's result. -/
def tasks (order : Order) (layer : List (List Relation)) : List (Search Plan) :=
  layer.map fun relations => solve order relations relations

def solveLayer (order : Order) (workers : Value) (relations : List Relation) (size : Nat) :
    Search Unit := do
  -- All look-ups of a layer come before its first task.
  let layer ← missing (Subset.ofSize size relations)
  report (.layer layer.length size workers) (done ())
  (tasks order layer).forM fun task => do let _ ← task

/-- Solves the small subsets before the large ones. -/
def solveLayers (order : Order) (workers : Value) (relations : List Relation) : Search Plan := do
  (List.range' 2 (relations.length - 1)).forM (solveLayer order workers relations)
  consult (.ofList relations) fun
    | some plan => done plan
    | none => fail .absentKey

end Search

structure Effort where
  subproblems : Nat
  candidates : Nat
  memoHits : Nat
deriving DecidableEq, Repr

namespace Effort

def zero : Effort := ⟨0, 0, 0⟩

def add (e : Effort) : Work → Effort
  | .subproblem => { e with subproblems := e.subproblems + 1 }
  | .candidate => { e with candidates := e.candidates + 1 }
  | .memoHit => { e with memoHits := e.memoHits + 1 }

end Effort

/-- The readings of a clock, one after the other. -/
abbrev Clock := Nat → Float

/-- The last moment at which a search may go on. -/
structure Deadline where
  limit : Value
  latest : Float

namespace Deadline

/-- Without a time limit there is no deadline. -/
def ofLimit (start : Float) (limit : Value) : Except Error (Option Deadline) := do
  if limit.isNull then return none
  return some ⟨limit, start + (← limit.float?)⟩

def isOver (d : Deadline) (reading : Float) : Bool := d.latest < reading

end Deadline

namespace Search

/-- What stays the same while requests are answered. -/
structure Answerer where
  model : CostModel
  clock : Clock
  deadline : Option Deadline
  verbose : Bool

/-- What changes while requests are answered. -/
structure State where
  memo : Memo
  effort : Effort
  /-- how often the cost model was asked -/
  asked : Nat
  /-- how often the clock was read -/
  readings : Nat
  log : List String

def run {α : Type} (answerer : Answerer) : Search α → State → Except Error α × State
  | done a, s => (.ok a, s)
  | fail e, s => (.error e, s)
  | consult relations next, s => run answerer (next (s.memo.find? relations)) s
  | record source plan next, s =>
    match s.memo.store (SlotTable.ofList source).members plan with
    | .ok memo => run answerer next { s with memo }
    | .error e => (.error e, s)
  | join left right next, s =>
    -- The question counts even if there is no estimate.
    let after := { s with asked := s.asked + 1 }
    match Plan.joinWith answerer.model s.asked left right with
    | .ok plan => run answerer (next plan) after
    | .error e => (.error e, after)
  | checkTime next, s =>
    match answerer.deadline with
    | none => run answerer next s
    | some deadline =>
      let after := { s with readings := s.readings + 1 }
      if deadline.isOver (answerer.clock s.readings) then
        (.error (.timedOut deadline.limit.shown), after)
      else run answerer next after
  | count work next, s => run answerer next { s with effort := s.effort.add work }
  | report progress next, s =>
    if answerer.verbose then
      match progress.message with
      | .error e => (.error e, s)
      | .ok items =>
        -- The beginning of a line stays even if the line cannot be finished.
        let (line, written) := (MessageLayout.default.write items).output
        let after := { s with log := s.log ++ [line] }
        match written with
        | .ok () => run answerer next after
        | .error e => (.error e, after)
    else run answerer next s

end Search

end JoinOrder
