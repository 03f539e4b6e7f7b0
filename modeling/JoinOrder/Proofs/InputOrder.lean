import JoinOrder.Proofs.Finished
import JoinOrder.RelationSplit
/-!
The order in which relations are listed does not matter. They are put into their own order before
anything is done with them, and the table alone gets to see how they were listed, which it keeps with
the set but never asks for. So two calls for two listings go hand in hand, request by request.

Calls that are not made alike, under other schedules of their layers or by other clocks, still find the
same under a pure model.
-/

namespace JoinOrder

open Search

namespace Relation

variable {relations : List Relation}

theorem ofItems_map (relations : List Relation) :
    ofItems (relations.map .relation) = .ok relations := by
  rw [ofItems, Item.mapM_relation?]

theorem sortItems_eq {collection : Item}
    (elements : collection.elements = .ok (relations.map .relation)) :
    sortItems collection = sort relations := by
  rw [sortItems, elements]
  change (do sort (← ofItems (relations.map .relation))) = _
  rw [ofItems_map]
  rfl

end Relation

/-- Tables with the same plans for the same sets, and for the same configuration. -/
structure Memo.Matches (m m' : Memo) : Prop where
  entries : ∀ K, m.find? K = m'.find? K
  configuration : m.configuration = m'.configuration

theorem Memo.Matches.refl (m : Memo) : m.Matches m := ⟨fun _ => rfl, rfl⟩

/-- A table takes the plan of a set or refuses it, however the set is listed. -/
theorem Memo.store_congr {m : Memo} {listed listed' : List Relation} {plan : Plan}
    (same : listed.Perm listed') (some : listed ≠ []) (distinct : Distinct listed)
    (orderly : Relation.Orderly listed) :
    (∃ e, m.store listed plan = .error e ∧ m.store listed' plan = .error e) ∨
      ∃ m₁ m₂, m.store listed plan = .ok m₁ ∧ m.store listed' plan = .ok m₂ ∧ m₁.Matches m₂ := by
  have keys : (IdSet.ofList listed).identities = (IdSet.ofList listed').identities :=
    IdSet.identities_ofList_perm same
  have covers : plan.relations.same (.ofList listed') = plan.relations.same (.ofList listed) :=
    Bool.eq_iff_iff.mpr (by rw [IdSet.same_iff, IdSet.same_iff, keys])
  have names : RelationSet.names listed' = RelationSet.names listed := by
    rw [RelationSet.names, RelationSet.names, orderly.sort_congr distinct same]
  rw [store, store, covers, names]
  cases plan.relations.same (.ofList listed) with
  | true =>
    refine .inr ⟨_, _, rfl, rfl, fun K => ?_, rfl⟩
    rw [find?_put some, find?_put (fun none => some (same.trans (.of_eq none)).eq_nil), keys]
  | false =>
    left
    cases plan.shown with
    | error e => exact ⟨e, rfl, rfl⟩
    | ok text =>
      cases RelationSet.names listed with
      | error e => exact ⟨e, rfl, rfl⟩
      | ok names => exact ⟨_, rfl, rfl⟩

namespace Search

/-! ### Searches that go hand in hand -/

/-- States that differ at most in how the table lists its sets. -/
structure State.Matches (s s' : State) : Prop where
  memo : s.memo.Matches s'.memo
  others : s' = { s with memo := s'.memo }

theorem State.Matches.refl (s : State) : s.Matches s := ⟨.refl s.memo, rfl⟩

variable {α β : Type} {a : Answerer}

/-- From each state, both searches come to the same result and to states that match. -/
def HandInHand (a : Answerer) (x y : Search α) : Prop :=
  ∀ s, (run a x s).1 = (run a y s).1 ∧ (run a x s).2.Matches (run a y s).2

theorem HandInHand.refl (x : Search α) : HandInHand a x x := fun _ => ⟨rfl, .refl _⟩

theorem HandInHand.bind {f g : α → Search β} (x : Search α) (h : ∀ v, HandInHand a (f v) (g v)) :
    HandInHand a (x.bind f) (x.bind g) := by
  intro s
  rw [run_bind, run_bind]
  match run a x s with
  | (.ok v, s) => exact h v s
  | (.error e, s) => exact ⟨rfl, .refl s⟩

theorem HandInHand.checkTime {x y : Search α} (h : HandInHand a x y) :
    HandInHand a (checkTime x) (checkTime y) := by
  intro s
  rw [run, run]
  cases a.deadline with
  | none => exact h s
  | some deadline =>
    by_cases late : deadline.isOver (a.clock s.readings) = true
    · simp only [late, if_true, true_and]
      exact .refl _
    · simp only [late]
      exact h _

theorem HandInHand.consult {K : RelationSet} {f g : Option Plan → Search α}
    (h : ∀ found, HandInHand a (f found) (g found)) :
    HandInHand a (consult K f) (consult K g) := fun s => h (s.memo.find? K) s

/-- What is left to do once a plan is in the table has nothing to do with the table. -/
theorem run_afterwards {progress : Progress} {v : α} (s : State) (m : Memo) :
    run a (count .subproblem (report progress (done v))) { s with memo := m } =
      ((run a (count .subproblem (report progress (done v))) s).1,
        { (run a (count .subproblem (report progress (done v))) s).2 with memo := m }) := by
  simp only [run]
  split
  · cases progress.message with
    | error e => rfl
    | ok items =>
      dsimp only
      cases (MessageLayout.default.write items).output.2 <;> rfl
  · rfl

variable {source source' sorted : List Relation}

theorem HandInHand.keep (same : source.Perm source') (some : source ≠ [])
    (distinct : Distinct source) (orderly : Relation.Orderly source) (plan : Plan) :
    HandInHand a (keep source sorted plan) (keep source' sorted plan) := by
  intro s
  have left := SlotTable.perm_ofList distinct
  have right := SlotTable.perm_ofList (distinct.perm same.symm)
  rw [Search.keep, Search.keep, run, run]
  rcases @Memo.store_congr s.memo _ _ plan (left.trans (same.trans right.symm))
    (Memo.members_ne_nil some) (distinct.perm left) (orderly.subset left.subset) with
      ⟨e, first, second⟩ | ⟨m₁, m₂, first, second, alike⟩
  · rw [first, second]
    exact ⟨rfl, .refl s⟩
  · rw [first, second]
    dsimp only
    rw [run_afterwards s m₁, run_afterwards s m₂]
    exact ⟨rfl, alike, rfl⟩

/-- Only at its very end does the recursion hand on how its relations were listed. -/
theorem HandInHand.solve (order : Order) (same : source.Perm source') (some : source ≠ [])
    (distinct : Distinct source) (orderly : Relation.Orderly source) :
    HandInHand a (solve order source sorted) (solve order source' sorted) := by
  have keeps {sorted : List Relation} (plan : Plan) :
      HandInHand a (Search.keep source sorted plan) (Search.keep source' sorted plan) :=
    .keep same some distinct orderly plan
  rcases sorted with _ | ⟨x, _ | ⟨y, _ | ⟨z, rest⟩⟩⟩
  · exact .refl _
  · exact .refl _
  · refine .consult fun found => ?_
    cases found with
    | some plan => exact .refl _
    | none => exact .checkTime (.bind _ keeps)
  · refine .consult fun found => ?_
    cases found with
    | some plan => exact .refl _
    | none => exact .checkTime (.bind _ keeps)

end Search

namespace Optimizer

variable {o : Optimizer} {est : Plan → Plan → Int} {clock : Clock} {readings : Nat}
  {memo table : Memo} {collection collection' : Item}
  {relations relations' sorted source source' : List Relation} {a : Answerer}
  {schedules : Nat → List Nat} {out : Outcome}

/-! ### Calls that go hand in hand -/

theorem searchBy_relisted (same : source.Perm source') (some : source ≠ [])
    (distinct : Distinct source) (orderly : Relation.Orderly source) {s s₁ : State}
    {result : Except Error Plan}
    (h : o.searchBy schedules a memo source sorted s = .some (result, s₁)) :
    ∃ s₂, o.searchBy schedules a memo source' sorted s = .some (result, s₂) ∧ s₁.Matches s₂ := by
  unfold searchBy at h ⊢
  cases layered : o.isLayered memo sorted with
  | true =>
    rw [layered, if_pos rfl] at h
    exact ⟨s₁, h, .refl s₁⟩
  | false =>
    rw [layered, if_neg (by simp)] at h
    have ends := @HandInHand.solve a _ _ sorted o.settings.order same some distinct orderly s
    rw [Option.some.inj h] at ends
    refine ⟨(run a (solve o.settings.order source' sorted) s).2, ?_, ends.2⟩
    exact congrArg Option.some (Prod.ext ends.1.symm rfl)

theorem search_relisted (same : source.Perm source') (some : source ≠ [])
    (distinct : Distinct source) (orderly : Relation.Orderly source) :
    HandInHand a (o.search memo source sorted) (o.search memo source' sorted) := by
  rw [search_eq, search_eq]
  cases o.isLayered memo sorted with
  | true => exact .refl _
  | false => exact .solve o.settings.order same some distinct orderly

theorem prepare_congr {start : Float}
    (same : Relation.sort relations = Relation.sort relations') :
    o.prepare start relations = o.prepare start relations' := by
  have warned : o.warnings relations = o.warnings relations' := by
    rw [warnings, warnings, same]
  rw [prepare, prepare, warned, same]

theorem accept_of_checked
    (checked : RelationSet.checkAll collection o.settings.maxRelations = .ok relations) :
    o.accept memo collection = (o.configuration.bind memo.bind).map (relations, ·) := by
  rw [accept, checked]
  cases o.configuration with
  | error e => rfl
  | ok configuration =>
    change (do return (relations, ← memo.bind configuration)) = (memo.bind configuration).map _
    cases memo.bind configuration <;> rfl

/-- Outcomes that differ at most in how the table lists its sets. -/
structure Outcome.Matches (out out' : Outcome) : Prop where
  memo : out.memo.Matches out'.memo
  others : out' = { out with memo := out'.memo }

theorem Outcome.Matches.refl (out : Outcome) : out.Matches out := ⟨.refl out.memo, rfl⟩

theorem conclude_matches {start : Float} {warnings : List String} {result : Except Error Plan}
    {s s' : State} (h : s.Matches s') :
    (o.conclude clock start warnings result s).Matches
      (o.conclude clock start warnings result s') := by
  obtain ⟨memo, others⟩ := h
  refine ⟨?_, ?_⟩
  · rwa [conclude_memo, conclude_memo]
  · rw [conclude_memo, others]
    unfold conclude
    cases result <;> cases o.settings.verbose.truthy <;> rfl

theorem optimizeBy_relisted (same : relations.Perm relations')
    (orderly : Relation.Orderly relations)
    (checked : RelationSet.checkAll collection o.settings.maxRelations = .ok relations)
    (checked' : RelationSet.checkAll collection' o.settings.maxRelations = .ok relations')
    (h : o.optimizeBy schedules clock readings memo collection = some out) :
    ∃ out', o.optimizeBy schedules clock readings memo collection' = some out' ∧
      out.Matches out' := by
  have ⟨_, _, nonempty, _, distinct, _⟩ := RelationSet.checkAll_eq_ok.mp checked
  have accept := @accept_of_checked o memo _ _ checked
  have accept' := @accept_of_checked o memo _ _ checked'
  cases bound : o.configuration.bind memo.bind with
  | error e =>
    rw [bound] at accept accept'
    rw [optimizeBy_refused accept] at h
    cases h
    exact ⟨_, optimizeBy_refused accept', .refl _⟩
  | ok table =>
    rw [bound] at accept accept'
    have prepares : o.prepare (clock readings) relations = o.prepare (clock readings) relations' :=
      prepare_congr (orderly.sort_congr distinct same)
    match prepared : o.prepare (clock readings) relations with
    | .error e =>
      rw [optimizeBy_unprepared accept prepared] at h
      cases h
      exact ⟨_, optimizeBy_unprepared accept' (prepares ▸ prepared), .refl _⟩
    | .ok (deadline, warnings, sorted, opening) =>
      rw [optimizeBy_prepared accept prepared] at h
      obtain ⟨⟨result, s⟩, searched, rfl⟩ := Option.map_eq_some_iff.mp h
      obtain ⟨s', searched', states⟩ := searchBy_relisted same nonempty distinct orderly searched
      refine ⟨_, ?_, conclude_matches states⟩
      rw [optimizeBy_prepared accept' (prepares ▸ prepared), searched']
      rfl

theorem optimize_relisted (same : relations.Perm relations')
    (orderly : Relation.Orderly relations)
    (checked : RelationSet.checkAll collection o.settings.maxRelations = .ok relations)
    (checked' : RelationSet.checkAll collection' o.settings.maxRelations = .ok relations') :
    (o.optimize clock readings memo collection).Matches
      (o.optimize clock readings memo collection') := by
  have ⟨_, _, nonempty, _, distinct, _⟩ := RelationSet.checkAll_eq_ok.mp checked
  have prepares : o.prepare (clock readings) relations = o.prepare (clock readings) relations' :=
    prepare_congr (orderly.sort_congr distinct same)
  unfold optimize
  rw [accept_of_checked checked, accept_of_checked checked']
  cases o.configuration.bind memo.bind with
  | error e => exact .refl _
  | ok table =>
    simp only [Except.map, ← prepares]
    match o.prepare (clock readings) relations with
    | .error e => exact .refl _
    | .ok (deadline, warnings, sorted, opening) =>
      obtain ⟨results, states⟩ := search_relisted same nonempty distinct orderly
        (o.started table readings opening)
      dsimp only
      rw [← results]
      exact conclude_matches states

/-! ### Calls that are made differently -/

/-- Both calls have found the same, and counted as much on the way. -/
structure Outcome.Agrees (out out' : Outcome) : Prop where
  result : out.result = out'.result
  entries : ∀ K, out.memo.find? K = out'.memo.find? K
  effort : out.effort = out'.effort

/-- Under a pure model, calls that return a plan have found the same, by whatever schedules and clocks
they went. -/
theorem optimizeBy_agrees {schedules' : Nat → List Nat} {clock' : Clock} {readings' : Nat}
    {out' : Outcome} {plan plan' : Plan} (same : relations.Perm relations')
    (orderly : Relation.Orderly relations) (agrees : o.model.Agrees est)
    (checked : RelationSet.checkAll collection o.settings.maxRelations = .ok relations)
    (checked' : RelationSet.checkAll collection' o.settings.maxRelations = .ok relations')
    (h : o.optimizeBy schedules clock readings ∅ collection = some out)
    (h' : o.optimizeBy schedules' clock' readings' ∅ collection' = some out')
    (ok : out.result = .ok plan) (ok' : out'.result = .ok plan') : out.Agrees out' := by
  have ⟨_, _, _, _, distinct, _⟩ := RelationSet.checkAll_eq_ok.mp checked
  have accept := @accept_of_checked o ∅ _ _ checked
  have accept' := @accept_of_checked o ∅ _ _ checked'
  cases bound : o.configuration.bind (∅ : Memo).bind with
  | error e =>
    rw [bound] at accept
    rw [optimizeBy_refused accept] at h
    cases h
    exact nomatch ok
  | ok table =>
    rw [bound] at accept accept'
    obtain ⟨sorted, sort, finds⟩ := exists_finds agrees accept h ok
    obtain ⟨sorted', sort', finds'⟩ := exists_finds agrees accept' h' ok'
    obtain rfl : sorted' = sorted := by
      rw [orderly.sort_congr distinct same, sort'] at sort
      exact Except.ok.inj sort
    -- Both calls are for one problem.
    obtain ⟨rfl, entries, effort⟩ := finds.same finds' rfl
    exact ⟨ok.trans ok'.symm, entries, effort⟩

end Optimizer

/-- Two collections of the same relations, which have integers for identities and texts for names. -/
structure Relisted (collection collection' : Item) (relations relations' : List Relation) : Prop where
  elements : collection.elements = .ok (relations.map .relation)
  elements' : collection'.elements = .ok (relations'.map .relation)
  same : relations.Perm relations'
  distinct : Distinct relations
  numbered : ∀ r ∈ relations, r.IsNumbered
  named : ∀ r ∈ relations, r.IsNamed

namespace Relisted

variable {collection collection' : Item} {relations relations' : List Relation}

theorem orderly (h : Relisted collection collection' relations relations') :
    Relation.Orderly relations :=
  .of_pairwise h.named (Relation.pairwise_comparable h.numbered)

theorem sortItems_eq (h : Relisted collection collection' relations relations') :
    Relation.sortItems collection = Relation.sortItems collection' := by
  rw [Relation.sortItems_eq h.elements, Relation.sortItems_eq h.elements',
    h.orderly.sort_congr h.distinct h.same]

theorem checkAll {limit : Value} (h : Relisted collection collection' relations relations')
    (given : collection'.isCollection = true)
    (checked : RelationSet.checkAll collection limit = .ok relations) :
    RelationSet.checkAll collection' limit = .ok relations' := by
  obtain ⟨_, _, nonempty, valid, _, small⟩ := RelationSet.checkAll_eq_ok.mp checked
  refine RelationSet.checkAll_eq_ok.mpr ⟨given, h.elements', ?_, ?_, h.distinct.perm h.same.symm, ?_⟩
  · rintro rfl
    exact nonempty h.same.eq_nil
  · intro r member
    exact valid r (h.same.symm.subset member)
  · rwa [← h.same.length_eq]

/-- Whatever is done with two collections of the same relations comes to the same. They are sorted,
split and taken apart alike. A call for the one ends like a call for the other, whatever the model and
the table, if clocks and schedules are the same. Under a pure model and from empty tables these do not
matter either, as long as both calls return a plan; and if nothing can stop them, they both do. -/
theorem results_eq (h : Relisted collection collection' relations relations') :
    (∃ sorted, Relation.sortItems collection = .ok sorted ∧
        Relation.sortItems collection' = .ok sorted) ∧
      (∀ order limit,
        RelationSet.splits order limit collection = RelationSet.splits order limit collection') ∧
      (∀ machine size limit, RelationSet.subsetsOfSize machine size limit collection =
        RelationSet.subsetsOfSize machine size limit collection') ∧
      ∀ o : Optimizer, RelationSet.checkAll collection o.settings.maxRelations = .ok relations →
        collection'.isCollection = true →
        (∀ clock readings memo, (o.optimize clock readings memo collection).Matches
          (o.optimize clock readings memo collection')) ∧
        (∀ schedules clock readings memo out,
          o.optimizeBy schedules clock readings memo collection = some out →
            ∃ out', o.optimizeBy schedules clock readings memo collection' = some out' ∧
              out.Matches out') ∧
        ∀ est schedules schedules' clock clock' readings readings' out out',
          o.model.Agrees est → o.optimizeBy schedules clock readings ∅ collection = some out →
          o.optimizeBy schedules' clock' readings' ∅ collection' = some out' →
            (∀ plan plan', out.result = .ok plan → out'.result = .ok plan' → out.Agrees out') ∧
              (o.model.Estimates est → (∃ description, o.model.describe = .ok description) →
                o.settings.timeout.isNull = true →
                (o.settings.verbose.truthy = true → ∀ sorted, Relation.sort relations = .ok sorted →
                  o.Audible est sorted) →
                (∃ plan, out.result = .ok plan) ∧ ∃ plan', out'.result = .ok plan') := by
  have sorts := h.sortItems_eq
  refine ⟨?_, fun order limit => ?_, fun machine size limit => ?_, fun o checked given => ⟨?_, ?_, ?_⟩⟩
  · obtain ⟨sorted, sort⟩ := h.orderly.sort_isOk
    have first := (Relation.sortItems_eq h.elements).trans sort
    exact ⟨sorted, first, sorts ▸ first⟩
  · rw [RelationSet.splits, RelationSet.splits, sorts]
  · rw [RelationSet.subsetsOfSize, RelationSet.subsetsOfSize, sorts]
  · intro clock readings memo
    exact Optimizer.optimize_relisted h.same h.orderly checked (h.checkAll given checked)
  · intro schedules clock readings memo out ran
    exact Optimizer.optimizeBy_relisted h.same h.orderly checked (h.checkAll given checked) ran
  · intro est schedules schedules' clock clock' readings readings' out out' agrees ran ran'
    have checked' := h.checkAll given checked
    refine ⟨fun plan plan' => Optimizer.optimizeBy_agrees h.same h.orderly agrees checked checked' ran
      ran', fun estimates described untimed audible => ?_⟩
    obtain ⟨table, accepted⟩ := Optimizer.accept_fresh described checked
    obtain ⟨table', accepted'⟩ := Optimizer.accept_fresh described checked'
    constructor
    · exact Optimizer.exists_returned estimates untimed accepted h.orderly audible ran
    · have orderly' := h.orderly.subset h.same.symm.subset
      refine Optimizer.exists_returned estimates untimed accepted' orderly' ?_ ran'
      rwa [← h.orderly.sort_congr h.distinct h.same]

/-- Three relations whose names rank alike. -/
def sameNames : List Relation :=
  [Problem.plainRelation 1 "T1", Problem.plainRelation 2 "T01", Problem.plainRelation 3 "T1"]

open Optimizer in
def sameNamesOutcome (collection : Item) : Outcome :=
  plainOptimizer.optimize (fun _ => 0) 0 ∅ collection

open Optimizer in
theorem results_eq_sameNames :
    Relation.sortItems (listOf sameNames) =
        Relation.sortItems (.frozen (sameNames.reverse.map .relation)) ∧
      (∃ plan, (sameNamesOutcome (listOf sameNames)).result = .ok plan) ∧
      (sameNamesOutcome (listOf sameNames)).Agrees
        (sameNamesOutcome (.frozen (sameNames.reverse.map .relation))) := by
  have proper : ∀ r ∈ sameNames, r.IsNumbered ∧ r.IsNamed := by
    intro r member
    simp only [sameNames, List.mem_cons, List.not_mem_nil, or_false] at member
    rcases member with rfl | rfl | rfl <;> exact ⟨⟨_, rfl⟩, _, rfl⟩
  have relisted : Relisted (listOf sameNames) (.frozen (sameNames.reverse.map .relation)) sameNames
      sameNames.reverse :=
    ⟨rfl, rfl, (List.reverse_perm _).symm, by decide, fun r member => (proper r member).1,
      fun r member => (proper r member).2⟩
  obtain ⟨⟨sorted, first, second⟩, _, _, calls⟩ := results_eq relisted
  obtain ⟨schedules, ran⟩ := plainOptimizer.exists_optimizeBy (fun _ => 0) 0 ∅ (listOf sameNames)
  obtain ⟨schedules', ran'⟩ := plainOptimizer.exists_optimizeBy (fun _ => 0) 0 ∅
    (.frozen (sameNames.reverse.map .relation))
  obtain ⟨agree, returned⟩ := (calls plainOptimizer rfl rfl).2.2 CostModel.sharedOf _ _ _ _ _ _ _ _
    CostModel.estimates_sharedAttributes.agrees ran ran'
  obtain ⟨⟨plan, ok⟩, plan', ok'⟩ := returned CostModel.estimates_sharedAttributes
    (describe_known .sharedAttributes) rfl fun listens => absurd listens (by decide)
  exact ⟨first.trans second.symm, ⟨plan, ok⟩, agree plan plan' ok ok'⟩

end Relisted

end JoinOrder
