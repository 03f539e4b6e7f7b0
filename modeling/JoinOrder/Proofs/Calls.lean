import JoinOrder.Proofs.Histories
import JoinOrder.Proofs.Watched
/-!
Calls one after the other on one table, watched. A call that gets as far as its search leaves the
account of that search behind in its statistics, whether the search finds a plan, runs out of time or
fails under its model.
-/

namespace JoinOrder

open Search

namespace Optimizer

variable {o : Optimizer} {schedules : Nat → List Nat} {clock : Clock} {readings : Nat}
  {memo bound : Memo} {collection : Item} {a : Answerer} {source relations sorted : List Relation}
  {s : State}

/-- The search of a call with its layers under schedules, watched. -/
def watchSearch (o : Optimizer) (schedules : Nat → List Nat) (a : Answerer) (memo : Memo)
    (source relations : List Relation) (s : State) : Option (Watch Plan) :=
  if o.isLayered memo relations then
    watchLayers a o.settings.order o.settings.parallelWorkers relations schedules
      (List.range' 2 (relations.length - 1)) s
  else some (watch a (.solve o.settings.order source relations) s)

theorem watchSearch_ended :
    (o.watchSearch schedules a memo source relations s).map (fun w => (w.result, w.state)) =
      o.searchBy schedules a memo source relations s := by
  unfold watchSearch searchBy
  split
  · exact watchLayers_ended _ s
  · rfl

/-- A single run is one of those that can be watched, and it leaves no task in between. -/
theorem exists_watchSearch (o : Optimizer) (a : Answerer) (memo : Memo)
    (source relations : List Relation) (s : State) : ∃ schedules w,
      o.watchSearch schedules a memo source relations s = some w ∧
        (w.result, w.state) = run a (o.search memo source relations) s ∧ w.atRest = true := by
  unfold watchSearch
  rw [search_eq]
  cases o.isLayered memo relations with
  | true =>
    exact exists_watchLayers o.settings.order o.settings.parallelWorkers relations
      (List.range' 2 (relations.length - 1)) List.nodup_range' s
  | false => exact ⟨fun _ => [], _, rfl, rfl, rfl⟩

/-- What there is to see of a call. -/
structure Watched where
  outcome : Outcome
  /-- nothing if the call did not get as far as its search -/
  search : Option (Watch Plan)

namespace Watched

variable (w : Watched)

/-- No task is left in between. -/
def atRest : Bool := (w.search.map (·.atRest)).getD true

/-- What the statistics say after a call that got as far as its search. -/
def reported : Effort :=
  match w.search, w.outcome.optimizer.statistics with
  | some _, some statistics => statistics.effort
  | _, _ => .zero

end Watched

/-- The whole call with the layers of its search under schedules, watched. -/
def watchBy (o : Optimizer) (schedules : Nat → List Nat) (clock : Clock) (readings : Nat)
    (memo : Memo) (collection : Item) : Option Watched :=
  match o.accept memo collection with
  | .error e => some ⟨⟨.error e, o, memo, readings, [], []⟩, none⟩
  | .ok (relations, memo) =>
    match o.prepare (clock readings) relations with
    | .error e => some ⟨⟨.error e, o, memo, readings + 1, [], []⟩, none⟩
    | .ok (deadline, warnings, sorted, opening) =>
      (o.watchSearch schedules (o.answerer clock deadline) memo relations sorted
        (o.started memo readings opening)).map fun w =>
          ⟨o.conclude clock (clock readings) warnings w.result w.state, some w⟩

/-- Watching a call does not change what comes of it. -/
theorem watchBy_outcome :
    (o.watchBy schedules clock readings memo collection).map (·.outcome) =
      o.optimizeBy schedules clock readings memo collection := by
  unfold watchBy optimizeBy
  match o.accept memo collection with
  | .error e => rfl
  | .ok (relations, memo) =>
    dsimp only
    match o.prepare (clock readings) relations with
    | .error e => rfl
    | .ok (deadline, warnings, sorted, opening) =>
      dsimp only
      rw [← watchSearch_ended, Option.map_map, Option.map_map]
      rfl

/-- A call alone is one of those that can be watched, and it leaves no task in between. -/
theorem exists_watchBy (o : Optimizer) (clock : Clock) (readings : Nat) (memo : Memo)
    (collection : Item) : ∃ schedules w,
      o.watchBy schedules clock readings memo collection = some w ∧
        w.outcome = o.optimize clock readings memo collection ∧ w.atRest = true := by
  unfold watchBy optimize
  match o.accept memo collection with
  | .error error => exact ⟨fun _ => [], _, rfl, rfl, rfl⟩
  | .ok (relations, memo) =>
    dsimp only
    match o.prepare (clock readings) relations with
    | .error error => exact ⟨fun _ => [], _, rfl, rfl, rfl⟩
    | .ok (deadline, warnings, sorted, opening) =>
      obtain ⟨schedules, w, watched, ended, still⟩ := o.exists_watchSearch
        (o.answerer clock deadline) memo relations sorted (o.started memo readings opening)
      refine ⟨schedules, ?_⟩
      dsimp only
      rw [watched, ← ended]
      exact ⟨_, rfl, rfl, still⟩

/-- A call either leaves the plans alone or gets as far as its search. -/
theorem watchBy_cases {w : Watched}
    (h : o.watchBy schedules clock readings memo collection = some w) :
    (w.search = none ∧ (∃ e, w.outcome.result = .error e) ∧ w.outcome.memo.table = memo.table ∧
        (w.outcome.memo = memo ∨ memo.configuration.isNull = true)) ∨
      ∃ relations bound deadline warnings sorted opening search,
        o.accept memo collection = .ok (relations, bound) ∧
        o.prepare (clock readings) relations = .ok (deadline, warnings, sorted, opening) ∧
        o.watchSearch schedules (o.answerer clock deadline) bound relations sorted
          (o.started bound readings opening) = some search ∧
        w = ⟨o.conclude clock (clock readings) warnings search.result search.state, some search⟩ := by
  unfold watchBy at h
  match accepted : o.accept memo collection with
  | .error e =>
    rw [accepted] at h
    cases h
    exact .inl ⟨rfl, ⟨e, rfl⟩, rfl, .inl rfl⟩
  | .ok (relations, bound) =>
    rw [accepted] at h
    dsimp only at h
    match prepared : o.prepare (clock readings) relations with
    | .error e =>
      rw [prepared] at h
      cases h
      obtain ⟨_, _, _, binding⟩ := accept_eq_ok.mp accepted
      refine .inl ⟨rfl, ⟨e, rfl⟩, Memo.table_bind binding, ?_⟩
      rcases Memo.bind_eq_ok.mp binding with ⟨free, _⟩ | ⟨_, _, same⟩
      · exact .inr free
      · exact .inl same
    | .ok (deadline, warnings, sorted, opening) =>
      rw [prepared] at h
      obtain ⟨search, watched, rfl⟩ := Option.map_eq_some_iff.mp h
      exact .inr ⟨relations, bound, deadline, warnings, sorted, opening, search, rfl, prepared,
        watched, rfl⟩

/-! ### The account of a call -/

variable {met : Relation → Prop} {w : Watched} {added : List Memo.Entry}

theorem watchSearch_accounts {search : Watch Plan} (distinct : Distinct relations)
    (valid : ∀ r ∈ relations, met r ∧ r.IsCounted) (same : keyOf source = keyOf relations)
    (integer : a.model.IsInteger) (filled : s.memo.Filled met)
    (h : o.watchSearch schedules a memo source relations s = some search) :
    ∃ added debt, search.Accounts met o.settings.order relations s added debt := by
  unfold watchSearch at h
  split at h
  -- There is nothing to know before the first layer.
  · apply watchLayers_accounts distinct valid integer _ _ filled h
    intro ys _ two small
    omega
  · cases h
    exact watch_accounts distinct valid same integer filled

/-- What a watched call comes to. -/
structure Watched.Accounts (met : Relation → Prop) (o : Optimizer) (memo : Memo) (collection : Item)
    (w : Watched) (added : List Memo.Entry) : Prop where
  filled : w.outcome.memo.Filled met
  keeps : memo.Keeps w.outcome.memo
  values : w.outcome.memo.table.values.Perm (added ++ memo.table.values)
  new : ∀ entry ∈ added, memo.find? entry.relations = none
  idle : w.search = none → added = []
  bound : memo.configuration.isNull = false ∨ w.search.isSome = true →
    w.outcome.memo.configuration.isNull = false
  granted : ∀ search, w.search = some search → ∀ event ∈ search.events, event.isRefusal = false
  subproblems : w.atRest = true → w.reported.subproblems = added.length
  candidates : ∀ search, w.search = some search → w.atRest = true →
    w.reported.candidates = search.events.countP Event.isEstimate
  found : ∀ search p, w.search = some search → search.result = .ok p → w.reported.candidates =
    (added.map fun entry => o.settings.order.tries entry.relations.size).sum
  statistics : w.search.isSome = true → ∃ statistics,
    w.outcome.optimizer.statistics = some statistics ∧ statistics.effort = w.reported
  returned : ∀ p, w.outcome.result = .ok p → w.search.isSome = true ∧ ∃ relations,
    RelationSet.checkAll collection o.settings.maxRelations = .ok relations ∧
      Relation.Orderly relations ∧ (∀ r ∈ relations, met r) ∧ p.Covers met (keyOf relations) ∧
      (2 ≤ relations.length → w.outcome.memo.Has (keyOf relations))

theorem Watched.reported_eq {start : Float} {warnings : List String} {search : Watch Plan} :
    Watched.reported ⟨o.conclude clock start warnings search.result search.state, some search⟩ =
      search.state.effort := by
  unfold conclude Watched.reported
  cases search.result <;> cases o.settings.verbose.truthy <;> rfl

theorem conclude_statistics {start : Float} {warnings : List String} {result : Except Error Plan} :
    ∃ statistics, (o.conclude clock start warnings result s).optimizer.statistics = some statistics ∧
      statistics.effort = s.effort := by
  unfold conclude
  cases result <;> cases o.settings.verbose.truthy <;> exact ⟨_, rfl, rfl⟩

/-- A call that does not get as far as its search leaves no account. -/
theorem accounts_idle (filled : memo.Filled met) (search : w.search = none)
    (failed : ∃ e, w.outcome.result = .error e) (table : w.outcome.memo.table = memo.table)
    (configuration : w.outcome.memo = memo ∨ memo.configuration.isNull = true) :
    w.Accounts met o memo collection [] where
  filled := filled.congr table
  keeps := fun K p found => by rwa [Memo.find?, table]
  values := by rw [table]; exact .refl _
  new := by simp
  idle := fun _ => rfl
  bound := by
    intro bound
    rcases configuration with same | free
    · simpa [same, search] using bound
    · simp [free, search] at bound
  granted := fun _ is => by rw [search] at is; contradiction
  subproblems := fun _ => by simp [Watched.reported, search, Effort.zero]
  candidates := fun _ is => by rw [search] at is; contradiction
  found := fun _ _ is => by rw [search] at is; contradiction
  statistics := fun is => by rw [search] at is; contradiction
  returned := fun p ok => by
    obtain ⟨e, error⟩ := failed
    rw [error] at ok
    contradiction

theorem accounts_searched {start : Float} {warnings : List String} {search : Watch Plan}
    {debt : Debt} {readings : Nat} {opening : List Item}
    (checked : RelationSet.checkAll collection o.settings.maxRelations = .ok relations)
    (orderly : Relation.Orderly relations) (known : ∀ r ∈ relations, met r)
    (same : keyOf relations = keyOf sorted) (length : relations.length = sorted.length)
    (table : bound.table = memo.table) (configuration : bound.configuration.isNull = false)
    (h : search.Accounts met o.settings.order sorted (o.started bound readings opening) added debt) :
    Watched.Accounts met o memo collection
      ⟨o.conclude clock start warnings search.result search.state, some search⟩ added := by
  have account := h.account
  constructor
  case filled =>
    rw [conclude_memo]
    exact h.filled
  case keeps =>
    rw [conclude_memo]
    intro K p found
    apply account.keeps
    rwa [started, Memo.find?, table]
  case values =>
    rw [conclude_memo, ← table]
    exact account.values
  case new =>
    intro entry member
    have new := (account.new entry member).1
    rwa [Memo.find?_eq_none, Memo.Has, ← table]
  case idle =>
    rintro ⟨⟩
  case bound =>
    intro _
    rw [conclude_memo, account.configuration]
    exact configuration
  case granted =>
    rintro _ ⟨⟩
    exact account.granted
  case subproblems =>
    intro still
    have owed := (h.rests still).1
    have counts := account.subproblems
    rw [Watched.reported_eq]
    simp only [started, Effort.zero, Debt.zero] at counts
    omega
  case candidates =>
    rintro _ ⟨⟩ still
    have owed := (h.rests still).2
    have counts := account.candidates
    rw [Watched.reported_eq]
    simp only [started, Effort.zero, Debt.zero] at counts
    omega
  case found =>
    rintro _ p ⟨⟩ ok
    obtain ⟨rfl, _⟩ := h.ok p ok
    have counts := account.candidates
    have tried := account.tried
    have sizes : (added.map fun entry => o.settings.order.tries entry.relations.size) =
        added.map fun entry => o.settings.order.tries entry.key.length := by
      apply List.map_congr_left
      intro entry _
      rw [Memo.Entry.key, length_identities]
    rw [Watched.reported_eq, sizes]
    simp only [started, Effort.zero, Debt.zero] at counts tried
    omega
  case statistics =>
    intro _
    rw [Watched.reported_eq]
    exact conclude_statistics
  case returned =>
    intro p ok
    obtain ⟨_, covers, has⟩ := h.ok p (conclude_ok_iff.mp ok).1
    refine ⟨rfl, relations, checked, orderly, known, same ▸ covers, fun two => ?_⟩
    rw [conclude_memo, same]
    exact has (length ▸ two)

theorem isNull_of_bind {d : Value} {order : Order}
    (binding : memo.bind (configurationOf d order) = .ok bound) :
    bound.configuration.isNull = false := by
  rcases Memo.bind_eq_ok.mp binding with ⟨_, rfl⟩ | ⟨taken, _, rfl⟩
  · rfl
  · exact taken

theorem watchBy_accounts (integer : o.model.IsInteger) (filled : memo.Filled met)
    (known : ∀ relations, RelationSet.checkAll collection o.settings.maxRelations = .ok relations →
      ∀ r ∈ relations, met r)
    (h : o.watchBy schedules clock readings memo collection = some w) :
    ∃ added, w.Accounts met o memo collection added := by
  rcases watchBy_cases h with ⟨search, failed, table, configuration⟩ |
    ⟨relations, bound, deadline, warnings, sorted, opening, search, accepted, prepared, watched, rfl⟩
  · exact ⟨[], accounts_idle filled search failed table configuration⟩
  · obtain ⟨checked, d, _, binding⟩ := accept_eq_ok.mp accepted
    obtain ⟨_, _, _, valid, distinct, _⟩ := RelationSet.checkAll_eq_ok.mp checked
    have perm := Relation.perm_of_sort (prepare_eq_ok prepared).2.1
    have table := Memo.table_bind binding
    have same : keyOf relations = keyOf sorted := IdSet.identities_ofList_perm perm.symm
    have inside : ∀ r ∈ sorted, met r ∧ r.IsCounted := fun r member =>
      have member := perm.subset member
      ⟨known relations checked r member, (valid r member).isCounted⟩
    obtain ⟨added, debt, accounts⟩ := watchSearch_accounts (distinct.perm perm) inside same integer
      (filled.congr table) watched
    exact ⟨added, accounts_searched checked (orderly_of_prepare prepared distinct)
      (known relations checked) same perm.length_eq.symm table (isNull_of_bind binding) accounts⟩

end Optimizer

/-! ### Histories of calls -/

structure Call where
  optimizer : Optimizer
  schedules : Nat → List Nat
  clock : Clock
  readings : Nat
  collection : Item

namespace Call

open Optimizer

def watch (m : Memo) (c : Call) : Option Watched :=
  c.optimizer.watchBy c.schedules c.clock c.readings m c.collection

/-- Calls one after the other: what there is to see of them, and the table in the end. -/
def history (m : Memo) : List Call → Option (List Watched × Memo)
  | [] => some ([], m)
  | c :: later => do
    let w ← c.watch m
    let (ws, m) ← history w.outcome.memo later
    return (w :: ws, m)

def relations (c : Call) : List Relation :=
  (Use.optimize c.optimizer c.schedules c.clock c.readings c.collection).relations

variable {met : Relation → Prop} {m m' : Memo} {c : Call} {calls : List Call} {w : Watched}
  {ws : List Watched}

theorem watch_accounts (integer : c.optimizer.model.IsInteger) (known : ∀ r ∈ c.relations, met r)
    (filled : m.Filled met) (h : c.watch m = some w) :
    ∃ added, w.Accounts met c.optimizer m c.collection added := by
  apply watchBy_accounts integer filled _ h
  intro relations checked r member
  apply known
  rwa [Call.relations, Use.relations_of_checked checked]

theorem history_cons (h : history m (c :: calls) = some (ws, m')) : ∃ w later,
    c.watch m = some w ∧ history w.outcome.memo calls = some (later, m') ∧ ws = w :: later := by
  rw [history] at h
  obtain ⟨w, watched, h⟩ := Option.bind_eq_some_iff.mp h
  obtain ⟨⟨later, last⟩, rest, is⟩ := Option.bind_eq_some_iff.mp h
  cases is
  exact ⟨w, later, watched, rest, rfl⟩

/-- What a history comes to that starts from a table that is filled. -/
structure Account (met : Relation → Prop) (m : Memo) (calls : List Call) (ws : List Watched)
    (m' : Memo) : Prop where
  filled : m'.Filled met
  keeps : m.Keeps m'
  bound : m.configuration.isNull = false → m'.configuration.isNull = false
  size : (∀ w ∈ ws, w.atRest = true) →
    m'.size = m.size + (ws.map (·.reported.subproblems)).sum
  /-- each call has an account, and what it knows is known for good -/
  calls : List.Forall₂ (fun c w => ∃ before added,
    w.Accounts met c.optimizer before c.collection added ∧ w.outcome.memo.Keeps m' ∧
      (w.outcome.memo.configuration.isNull = false → m'.configuration.isNull = false)) calls ws

theorem history_account (integer : ∀ c ∈ calls, c.optimizer.model.IsInteger)
    (known : ∀ c ∈ calls, ∀ r ∈ c.relations, met r) (filled : m.Filled met)
    (h : history m calls = some (ws, m')) : Account met m calls ws m' := by
  induction calls generalizing m ws with
  | nil =>
    cases h
    exact ⟨filled, .refl _, id, fun _ => rfl, .nil⟩
  | cons c calls ih =>
    obtain ⟨w, later, watched, rest, rfl⟩ := history_cons h
    obtain ⟨added, first⟩ := watch_accounts (integer c List.mem_cons_self)
      (known c List.mem_cons_self) filled watched
    have others := ih (fun c member => integer c (List.mem_cons_of_mem _ member))
      (fun c member => known c (List.mem_cons_of_mem _ member)) first.filled rest
    constructor
    · exact others.filled
    · exact first.keeps.trans others.keeps
    · intro bound
      exact others.bound (first.bound (.inl bound))
    · intro still
      have size := others.size fun w member => still w (List.mem_cons_of_mem _ member)
      have grown : w.outcome.memo.size = added.length + m.size := by
        rw [Memo.size, Trie.size, first.values.length_eq, List.length_append]
        rfl
      have counts := first.subproblems (still w List.mem_cons_self)
      rw [List.map_cons, List.sum_cons]
      omega
    · exact .cons ⟨m, added, first, others.keeps, others.bound⟩ others.calls

/-- An optimizer can be called with any inputs one after the other, and no task is left in between. -/
theorem exists_history (o : Optimizer) (m : Memo) (inputs : List (List Relation)) :
    ∃ calls ws m', calls.map relations = inputs ∧ (∀ c ∈ calls, c.optimizer = o) ∧
      history m calls = some (ws, m') ∧ ∀ w ∈ ws, w.atRest = true := by
  induction inputs generalizing m with
  | nil => exact ⟨[], [], m, rfl, by simp, rfl, by simp⟩
  | cons input inputs ih =>
    obtain ⟨schedules, w, watched, _, still⟩ := o.exists_watchBy (fun _ => 0) 0 m (listOf input)
    obtain ⟨calls, ws, m', same, all, ran, others⟩ := ih w.outcome.memo
    let c : Call := ⟨o, schedules, fun _ => 0, 0, listOf input⟩
    have first : c.watch m = some w := watched
    refine ⟨c :: calls, w :: ws, m', ?_, ?_, ?_, ?_⟩
    · rw [List.map_cons, same]
      exact congrArg (· :: inputs) (Use.relations_plainCall schedules input)
    · simpa [c] using all
    · rw [history, first]
      simp only [Option.bind_eq_bind, Option.bind_some, ran]
      rfl
    · simpa [still] using others

end Call

end JoinOrder
