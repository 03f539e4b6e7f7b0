import JoinOrder.Admission
import JoinOrder.Search
/-!
The optimizer: checks what it is given, binds the memo table, runs the search that its settings ask
for, and keeps account of the work.
-/

namespace JoinOrder

structure Statistics where
  effort : Effort
  elapsed : Float

namespace Statistics

def entries (s : Statistics) : List (String × Value) :=
  [("subproblems", .int s.effort.subproblems), ("candidates", .int s.effort.candidates),
    ("memo_hits", .int s.effort.memoHits), ("elapsed_seconds", .real s.elapsed)]

def toValue (s : Statistics) : Value := .object s.entries

def shown (s : Statistics) : String :=
  "OptimizerStatistics(" ++
    ", ".intercalate (s.entries.map fun (name, v) => name ++ "=" ++ v.literal) ++ ")"

end Statistics

structure Optimizer where
  settings : Settings
  model : CostModel
  /-- how often the model was asked so far -/
  asked : Nat
  /-- what the last search took, if there was one -/
  statistics : Option Statistics

namespace Optimizer

/-- An optimizer with some settings replaced. Without a model of its own it takes the one that its
settings name. -/
def build (machine : Machine) (settings : Settings) (overrides : List (String × Value))
    (model : Option CostModel) : Except Error Optimizer := do
  let settings ← settings.override overrides
  return ⟨settings, model.getD (settings.costModel machine), 0, none⟩

def shown (o : Optimizer) : String :=
  "DynamicProgrammingOptimizer(cost_model=" ++ o.model.name ++ ", order=" ++
    o.settings.order.name ++ ")"

/-- The name that a model gives itself in its description, or else the one it has anyway. -/
def modelName (o : Optimizer) : Value → Except Error Value
  | .object entries => .ok ((entries.lookup "name").getD (.text o.model.name))
  | _ => .error .absentMember

def describe (machine : Machine) (o : Optimizer) : Except Error Value := do
  let model ← o.model.describe
  let _ ← o.settings.describe machine
  let settings := Json.setEntry "cost_model" (← o.modelName model) o.settings.entries
  return .object [("name", .text "dynamic_programming"), ("flavor", .text "bushy"),
    ("cost_model", model), ("settings", .object settings)]

/-- What decides which plans a memo table gets. -/
def configuration (o : Optimizer) : Except Error Value := do
  return .object [("cost_model", ← o.model.describe),
    ("enumeration_order", .text o.settings.order.name)]

def accept (o : Optimizer) (memo : Memo) (collection : Item) :
    Except Error (List Relation × Memo) := do
  let relations ← RelationSet.checkAll collection o.settings.maxRelations
  return (relations, ← memo.bind (← o.configuration))

/-- Warns of relations that no chain of shared attributes connects, if that is wanted. -/
def warnings (o : Optimizer) (relations : List Relation) : Except Error (List String) := do
  if !o.settings.warnOnCrossProducts.truthy then return []
  let graph := JoinGraph.ofSorted (← Relation.sort relations)
  if graph.isConnected then return []
  let components ← (← graph.components).mapM fun component => RelationSet.names component.toList
  return ["Relations can only be joined using cross products. Connected components: " ++
    ", ".intercalate components]

/-- Several workers go through the sets layer by layer, unless the answer is known or there is only
one set to solve. -/
def search (o : Optimizer) (memo : Memo) (source relations : List Relation) : Search Plan :=
  let workers := o.settings.parallelWorkers
  let isKnown := (memo.find? (.ofList relations)).isSome
  if (Value.less? (.int 1) workers).getD false && 2 < relations.length && !isKnown then
    .solveLayers o.settings.order workers relations
  else .solve o.settings.order source relations

/-- What comes of an attempt to optimize: also one that fails may have bound the table, stored plans
and taken time. -/
structure Outcome where
  result : Except Error Plan
  optimizer : Optimizer
  memo : Memo
  readings : Nat
  warnings : List String
  log : List String

def closingMessage (plan : Plan) (statistics : Statistics) : List Item :=
  [.text "Optimal plan", .plan plan, .text "produces", .ofValue plan.tuples,
    .text "tuples; statistics:", .text statistics.shown]

/-- Everything between the start of the clock and the search: the deadline, warnings, relations in
their order, and the first message. -/
def prepare (o : Optimizer) (start : Float) (relations : List Relation) :
    Except Error (Option Deadline × List String × List Relation × List Item) := do
  let deadline ← Deadline.ofLimit start o.settings.timeout
  let warnings ← o.warnings relations
  let sorted ← Relation.sort relations
  return (deadline, warnings, sorted, ← (Progress.started sorted).message)

/-- What comes of a search that began at some time: statistics whether it succeeded or not, and a last
message. -/
def conclude (o : Optimizer) (clock : Clock) (start : Float) (warnings : List String)
    (result : Except Error Plan) (s : Search.State) : Outcome :=
  let statistics : Statistics := ⟨s.effort, clock s.readings - start⟩
  let optimizer := { o with asked := s.asked, statistics := some statistics }
  match result, o.settings.verbose.truthy with
  | .ok plan, true =>
    -- A plan that cannot be told about is not handed over.
    let (line, written) := (MessageLayout.default.write (closingMessage plan statistics)).output
    ⟨written.map fun _ => plan, optimizer, s.memo, s.readings + 1, warnings, s.log ++ [line]⟩
  | result, _ => ⟨result, optimizer, s.memo, s.readings + 1, warnings, s.log⟩

/-- Who answers the requests of a search. -/
def answerer (o : Optimizer) (clock : Clock) (deadline : Option Deadline) : Search.Answerer :=
  ⟨o.model, clock, deadline, o.settings.verbose.truthy⟩

/-- Where a search starts, with the first message told. -/
def started (o : Optimizer) (memo : Memo) (readings : Nat) (opening : List Item) : Search.State :=
  ⟨memo, .zero, o.asked, readings + 1,
    if o.settings.verbose.truthy then [(MessageLayout.default.write opening).output.1] else []⟩

/-- Optimizes a collection. The clock was read so many times before. -/
def optimize (o : Optimizer) (clock : Clock) (readings : Nat) (memo : Memo) (collection : Item) :
    Outcome :=
  match o.accept memo collection with
  | .error e => ⟨.error e, o, memo, readings, [], []⟩
  | .ok (relations, memo) =>
    let start := clock readings
    match o.prepare start relations with
    -- The table stays bound, and the start was read off the clock.
    | .error e => ⟨.error e, o, memo, readings + 1, [], []⟩
    | .ok (deadline, warnings, sorted, opening) =>
      let (result, s) := (o.search memo relations sorted).run (o.answerer clock deadline)
        (o.started memo readings opening)
      o.conclude clock start warnings result s

end Optimizer

end JoinOrder
