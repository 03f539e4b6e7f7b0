import JoinOrder.Proofs.Events
import JoinOrder.Proofs.Schedules
import JoinOrder.Proofs.Warnings
/-!
What an optimizer does with an input that was accepted. Whichever search its settings ask for, a plan
that it returns is the one that has to be found, and the table it leaves could be reached on the way
there.
-/

namespace JoinOrder

namespace Optimizer

open Search

variable {o : Optimizer} {clock : Clock} {readings : Nat} {memo memo' : Memo} {collection : Item}
  {relations sorted source : List Relation} {a : Answerer} {e : Effort}
  {schedules : Nat → List Nat}

/-! ### What is accepted -/

/-- What a table is bound to. -/
def configurationOf (description : Value) (order : Order) : Value :=
  .object [("cost_model", description), ("enumeration_order", .text order.name)]

theorem configuration_eq_ok {configuration : Value} : o.configuration = .ok configuration ↔
    ∃ description, o.model.describe = .ok description ∧
      configuration = configurationOf description o.settings.order := by
  unfold Optimizer.configuration
  cases o.model.describe with
  | error e => exact iff_of_false (fun ok => nomatch ok) fun ⟨_, ok, _⟩ => nomatch ok
  | ok description =>
    constructor
    · rintro ⟨⟩
      exact ⟨description, rfl, rfl⟩
    · rintro ⟨_, ⟨⟩, rfl⟩
      rfl

/-- An input is accepted if the collection is, the model describes itself, and the table can be bound
to that. -/
theorem accept_eq_ok : o.accept memo collection = .ok (relations, memo') ↔
    RelationSet.checkAll collection o.settings.maxRelations = .ok relations ∧
      ∃ description, o.model.describe = .ok description ∧
        memo.bind (configurationOf description o.settings.order) = .ok memo' := by
  unfold accept
  cases RelationSet.checkAll collection o.settings.maxRelations with
  | error e => exact iff_of_false (fun ok => nomatch ok) fun ⟨ok, _⟩ => nomatch ok
  | ok checked =>
    cases configured : o.configuration with
    | error e =>
      refine iff_of_false (fun ok => ?_) fun ⟨_, description, described, _⟩ => ?_
      · exact nomatch ok
      · rw [configuration_eq_ok.mpr ⟨description, described, rfl⟩] at configured
        contradiction
    | ok configuration =>
      obtain ⟨description, described, rfl⟩ := configuration_eq_ok.mp configured
      change (do return (checked, ← memo.bind _)) = _ ↔ _
      simp only [described, Except.ok.injEq, exists_eq_left']
      cases memo.bind (configurationOf description o.settings.order) with
      | error e => exact iff_of_false (fun ok => nomatch ok) fun ⟨_, ok⟩ => nomatch ok
      | ok bound =>
        change Except.ok (checked, bound) = _ ↔ _
        rw [Except.ok.injEq, Prod.mk.injEq, Except.ok.injEq]

/-- What a collection that is accepted asks for. -/
def posed (est : Plan → Plan → Int) (order : Order) (table : Memo) (sound : Sound table.find?)
    {limit : Value} (checked : RelationSet.checkAll collection limit = .ok relations)
    (sort : Relation.sort relations = .ok sorted) : Problem where
  est := est
  order := order
  root := sorted
  table := table
  distinct :=
    have ⟨_, _, _, _, distinct, _⟩ := RelationSet.checkAll_eq_ok.mp checked
    distinct.perm (Relation.perm_of_sort sort)
  integers := fun r member =>
    have ⟨_, _, _, valid, _⟩ := RelationSet.checkAll_eq_ok.mp checked
    (valid r ((Relation.perm_of_sort sort).subset member)).isCounted
  sound := sound

theorem sorted_ne_nil {limit : Value} (checked : RelationSet.checkAll collection limit = .ok relations)
    (sort : Relation.sort relations = .ok sorted) : sorted ≠ [] := by
  have ⟨_, _, nonempty, _⟩ := RelationSet.checkAll_eq_ok.mp checked
  intro none
  subst none
  exact nonempty (Relation.perm_of_sort sort).symm.eq_nil

/-! ### The search -/

/-- Whether the search goes through layers. -/
def isLayered (o : Optimizer) (memo : Memo) (relations : List Relation) : Bool :=
  (Value.less? (.int 1) o.settings.parallelWorkers).getD false && 2 < relations.length &&
    !memo.knows relations

/-- There are layers only where something is left to solve. -/
theorem unsolved_of_isLayered (layered : o.isLayered memo relations = true) :
    2 < relations.length ∧ memo.knows relations = false := by
  simp only [isLayered, Bool.and_eq_true, decide_eq_true_eq, Bool.not_eq_true'] at layered
  exact ⟨layered.1.2, layered.2⟩

/-- The search with its layers under schedules. -/
def searchBy (o : Optimizer) (schedules : Nat → List Nat) (a : Answerer) (memo : Memo)
    (source relations : List Relation) (s : State) : Option (Except Error Plan × State) :=
  if o.isLayered memo relations then
    solveLayersBy a o.settings.order o.settings.parallelWorkers relations schedules s
  else some (run a (.solve o.settings.order source relations) s)

theorem search_eq (o : Optimizer) (memo : Memo) (source relations : List Relation) :
    o.search memo source relations =
      if o.isLayered memo relations then
        .solveLayers o.settings.order o.settings.parallelWorkers relations
      else .solve o.settings.order source relations := rfl

/-- A single run follows one of the schedules. -/
theorem exists_searchBy (o : Optimizer) (a : Answerer) (memo : Memo)
    (source relations : List Relation) (s : State) : ∃ schedules,
      o.searchBy schedules a memo source relations s =
        some (run a (o.search memo source relations) s) := by
  unfold searchBy
  rw [search_eq]
  cases o.isLayered memo relations with
  | true => exact exists_schedules o.settings.order o.settings.parallelWorkers relations s
  | false => exact ⟨fun _ => [], rfl⟩

/-- What has to be told for a search to go on, and nothing else may stop it. -/
def Unstopped (o : Optimizer) (P : Problem) (a : Answerer) : Prop :=
  P.Calm a ∧ (o.isLayered P.table P.root = true → P.LayersTold a o.settings.parallelWorkers)

/-- What a search that has found a plan has done. -/
structure Searched (o : Optimizer) (P : Problem) (a : Answerer) (p : Plan) (m : Memo) : Prop where
  plan : p = P.plan P.root
  reached : P.Reached m
  told : P.table.knows P.root = false → 2 ≤ P.root.length → P.Told a
  layersTold : o.isLayered P.table P.root = true → P.LayersTold a o.settings.parallelWorkers

/-- What a search comes to under schedules that let it end. -/
structure SearchEnd (o : Optimizer) (P : Problem) (a : Answerer) (result : Except Error Plan)
    (m : Memo) : Prop where
  reached : P.Reached m
  ok : ∀ p, result = .ok p → o.Searched P a p m
  failed : ∀ error, result = .error error → ¬ o.Unstopped P a

theorem searchBy_ends (P : Problem) (order : o.settings.order = P.order)
    (same : source.Perm P.root) (some : P.root ≠ []) (agrees : a.model.Agrees P.est) {s s' : State}
    {result : Except Error Plan} (start : s.standing = ⟨P.table, e⟩)
    (h : o.searchBy schedules a P.table source P.root s = .some (result, s')) :
    o.SearchEnd P a result s'.memo := by
  rw [searchBy, order] at h
  cases layered : o.isLayered P.table P.root with
  | true =>
    rw [layered, if_pos rfl] at h
    have ⟨many, _⟩ := unsolved_of_isLayered layered
    have layers := Problem.solveLayersBy_ends start agrees (by omega) h
    refine ⟨layers.reached, fun p ok => ?_, fun error failed unstopped => ?_⟩
    · obtain ⟨plan, front⟩ := layers.ok p ok
      exact ⟨plan, layers.reached, fun _ _ => front.allTold.1, fun _ => front.allTold.2⟩
    · exact layers.failed error failed ⟨unstopped.1, unstopped.2 layered⟩
  | false =>
    rw [layered, if_neg (by simp)] at h
    have recursion := Problem.ends_solveWithin P.root.length (.refl _) some le_rfl
      (IdSet.identities_ofList_perm same) Problem.reached_table agrees s start
    rw [← solve, Option.some.inj h] at recursion
    cases result with
    | error error =>
      exact ⟨recursion.1, fun p ok => by contradiction, fun _ _ unstopped => recursion.2 unstopped.1⟩
    | ok q =>
      have solved : P.Solved a P.root ⟨P.table, e⟩ q s'.standing := recursion
      refine ⟨solved.advance.reached, ?_, fun error failed => by contradiction⟩
      rintro p ⟨⟩
      refine ⟨solved.plan, solved.advance.reached, fun new two => ?_, fun h => ?_⟩
      · exact Problem.told_of_solved solved two new
      · rw [layered] at h
        contradiction

/-! ### The whole call -/

/-- The whole call with the layers of its search under schedules, if these let it end. -/
def optimizeBy (o : Optimizer) (schedules : Nat → List Nat) (clock : Clock) (readings : Nat)
    (memo : Memo) (collection : Item) : Option Outcome :=
  match o.accept memo collection with
  | .error e => some ⟨.error e, o, memo, readings, [], []⟩
  | .ok (relations, memo) =>
    match o.prepare (clock readings) relations with
    | .error e => some ⟨.error e, o, memo, readings + 1, [], []⟩
    | .ok (deadline, warnings, sorted, opening) =>
      (o.searchBy schedules (o.answerer clock deadline) memo relations sorted
        (o.started memo readings opening)).map fun (result, s) =>
          o.conclude clock (clock readings) warnings result s

/-- A single run of the whole call follows one of the schedules. -/
theorem exists_optimizeBy (o : Optimizer) (clock : Clock) (readings : Nat) (memo : Memo)
    (collection : Item) : ∃ schedules,
      o.optimizeBy schedules clock readings memo collection =
        some (o.optimize clock readings memo collection) := by
  unfold optimizeBy optimize
  match o.accept memo collection with
  | .error error => exact ⟨fun _ => [], rfl⟩
  | .ok (relations, memo) =>
    dsimp only
    match o.prepare (clock readings) relations with
    | .error error => exact ⟨fun _ => [], rfl⟩
    | .ok (deadline, warnings, sorted, opening) =>
      obtain ⟨schedules, single⟩ := o.exists_searchBy (o.answerer clock deadline) memo relations
        sorted (o.started memo readings opening)
      refine ⟨schedules, ?_⟩
      dsimp only
      rw [single]
      rfl

theorem optimizeBy_refused {error : Error} (refused : o.accept memo collection = .error error) :
    o.optimizeBy schedules clock readings memo collection =
      some ⟨.error error, o, memo, readings, [], []⟩ := by
  rw [optimizeBy, refused]

theorem optimizeBy_unprepared {error : Error}
    (accepted : o.accept memo collection = .ok (relations, memo'))
    (unprepared : o.prepare (clock readings) relations = .error error) :
    o.optimizeBy schedules clock readings memo collection =
      some ⟨.error error, o, memo', readings + 1, [], []⟩ := by
  rw [optimizeBy, accepted]
  dsimp only
  rw [unprepared]

theorem optimizeBy_prepared {deadline : Option Deadline} {warnings : List String}
    {opening : List Item} (accepted : o.accept memo collection = .ok (relations, memo'))
    (prepared : o.prepare (clock readings) relations = .ok (deadline, warnings, sorted, opening)) :
    o.optimizeBy schedules clock readings memo collection =
      (o.searchBy schedules (o.answerer clock deadline) memo' relations sorted
        (o.started memo' readings opening)).map fun (result, s) =>
          o.conclude clock (clock readings) warnings result s := by
  rw [optimizeBy, accepted]
  dsimp only
  rw [prepared]

/-- The closing message can be written. -/
def Presentable (plan : Plan) : Prop :=
  (∃ text, plan.shown = .ok text) ∧ ∃ text, (Item.ofValue plan.tuples).shown = .ok text

theorem closing_ok_iff {plan : Plan} {statistics : Statistics} :
    (MessageLayout.default.write (closingMessage plan statistics)).output.2 = .ok () ↔
      Presentable plan := by
  have joins : (∃ text, (Item.plan plan).shown = .ok text) ↔ ∃ text, plan.shown = .ok text := .rfl
  simp only [MessageLayout.write_ok_iff, closingMessage, List.forall_mem_cons, Item.shown_text,
    joins, Presentable, true_and, List.not_mem_nil, false_imp_iff, implies_true, and_true]

section

variable {start : Float} {warnings : List String} {result : Except Error Plan} {s : State}

theorem conclude_memo : (o.conclude clock start warnings result s).memo = s.memo := by
  unfold conclude
  cases result <;> cases o.settings.verbose.truthy <;> rfl

theorem conclude_ok_iff {plan : Plan} : (o.conclude clock start warnings result s).result = .ok plan ↔
    result = .ok plan ∧ (o.settings.verbose.truthy = true → Presentable plan) := by
  unfold conclude
  cases o.settings.verbose.truthy with
  | false => cases result <;> simp
  | true =>
    cases result with
    | error error => simp
    | ok p =>
      dsimp only
      constructor
      · intro ok
        cases written : (MessageLayout.default.write (closingMessage p
          ⟨s.effort, clock s.readings - start⟩)).output.2 with
        | error error => rw [written] at ok; exact nomatch ok
        | ok =>
          rw [written] at ok
          cases ok
          exact ⟨rfl, fun _ => closing_ok_iff.mp written⟩
      · rintro ⟨same, presentable⟩
        cases same
        rw [closing_ok_iff.mpr (presentable rfl)]
        rfl

end

/-- Whoever returns a plan has got as far as its search. -/
theorem exists_prepared (accepted : o.accept memo collection = .ok (relations, memo')) {out : Outcome}
    (h : o.optimizeBy schedules clock readings memo collection = some out) {plan : Plan}
    (ok : out.result = .ok plan) : ∃ deadline warnings sorted opening,
      o.prepare (clock readings) relations = .ok (deadline, warnings, sorted, opening) := by
  match prepared : o.prepare (clock readings) relations with
  | .error error =>
    rw [optimizeBy_unprepared accepted prepared] at h
    cases h
    exact nomatch ok
  | .ok (deadline, warnings, sorted, opening) => exact ⟨deadline, warnings, sorted, opening, rfl⟩

/-- Whatever becomes of a call, its table could be reached on the way to the plan that has to be
found, and no other plan is returned. -/
theorem optimizeBy_reached (P : Problem) (order : o.settings.order = P.order)
    (accepted : o.accept memo collection = .ok (relations, P.table))
    (sort : Relation.sort relations = .ok P.root) (some : P.root ≠ [])
    (agrees : o.model.Agrees P.est) {out : Outcome}
    (h : o.optimizeBy schedules clock readings memo collection = .some out) :
    P.Reached out.memo ∧ ∀ plan, out.result = .ok plan → plan = P.plan P.root := by
  match prepared : o.prepare (clock readings) relations with
  | .error error =>
    rw [optimizeBy_unprepared accepted prepared] at h
    cases h
    exact ⟨Problem.reached_table, fun plan ok => nomatch ok⟩
  | .ok (deadline, warnings, sorted, opening) =>
    obtain rfl : sorted = P.root := sorted_of_prepare prepared sort
    rw [optimizeBy_prepared accepted prepared] at h
    obtain ⟨⟨result, s⟩, searched, rfl⟩ := Option.map_eq_some_iff.mp h
    have ends := searchBy_ends P order (Relation.perm_of_sort sort).symm some agrees rfl searched
    rw [conclude_memo]
    refine ⟨ends.reached, fun plan ok => ?_⟩
    exact (ends.ok plan (conclude_ok_iff.mp ok).1).plan

section

variable {deadline : Option Deadline} {warnings : List String} {opening : List Item} {out : Outcome}
  (P : Problem) (order : o.settings.order = P.order)
  (accepted : o.accept memo collection = .ok (relations, P.table))
  (prepared : o.prepare (clock readings) relations = .ok (deadline, warnings, P.root, opening))
  (some : P.root ≠ [])

include order accepted prepared some

/-- A call that got as far as its search returns a plan only if everything about it was told. -/
theorem optimizeBy_searched (agrees : o.model.Agrees P.est)
    (h : o.optimizeBy schedules clock readings memo collection = .some out) {plan : Plan}
    (ok : out.result = .ok plan) :
    o.Searched P (o.answerer clock deadline) plan out.memo ∧
      (o.settings.verbose.truthy = true → Presentable plan) := by
  rw [optimizeBy_prepared accepted prepared] at h
  obtain ⟨⟨result, s⟩, searched, rfl⟩ := Option.map_eq_some_iff.mp h
  have ends := searchBy_ends P order (Relation.perm_of_sort (prepare_eq_ok prepared).2.1).symm some
    agrees rfl searched
  rw [conclude_memo]
  obtain ⟨ok, presentable⟩ := conclude_ok_iff.mp ok
  exact ⟨ends.ok plan ok, presentable⟩

/-- It returns one if nothing can stop it. -/
theorem optimizeBy_isOk (unstopped : o.Unstopped P (o.answerer clock deadline))
    (presentable : o.settings.verbose.truthy = true → Presentable (P.plan P.root))
    (h : o.optimizeBy schedules clock readings memo collection = .some out) :
    out.result = .ok (P.plan P.root) := by
  rw [optimizeBy_prepared accepted prepared] at h
  obtain ⟨⟨result, s⟩, searched, rfl⟩ := Option.map_eq_some_iff.mp h
  have ends := searchBy_ends P order (Relation.perm_of_sort (prepare_eq_ok prepared).2.1).symm some
    unstopped.1.estimates.agrees rfl searched
  apply conclude_ok_iff.mpr
  cases result with
  | error error => exact absurd unstopped (ends.failed error rfl)
  | ok p =>
    rw [(ends.ok p rfl).plan]
    exact ⟨rfl, presentable⟩

end

end Optimizer

end JoinOrder
