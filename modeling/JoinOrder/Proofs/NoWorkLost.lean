import JoinOrder.Proofs.JoinedOnce
/-!
No work is lost or repeated. Calls that were stopped midway leave entries that later calls build on, and
the counters of all calls together are what is in the table. Once the plan of some relations is there,
those of all their subsets are there for good, and cost one look-up.
-/

namespace JoinOrder

open Search

namespace Optimizer

variable {o : Optimizer} {schedules : Nat → List Nat} {clock : Clock} {readings : Nat}
  {memo bound : Memo} {collection : Item} {relations sorted source : List Relation} {w : Watched}

/-- A plan that is known is looked up, and nothing else happens. -/
theorem run_known {a : Answerer} {s : State} {order : Order} {p : Plan} (some : sorted ≠ [])
    (found : s.memo.find? (.ofList sorted) = .some p) :
    watch a (solve order source sorted) s =
      ⟨.ok p, { s with effort := s.effort.add .memoHit }, [], true⟩ := by
  obtain ⟨r, rest, rfl⟩ := List.exists_cons_of_ne_nil some
  change watch a (consult (.ofList (r :: rest)) _) s = _
  rw [watch, run, trace, found]
  rfl

/-- A call for relations whose plan is known takes one look-up, and hands over that plan. -/
structure Watched.LooksUp (o : Optimizer) (memo : Memo) (relations : List Relation) (w : Watched) :
    Prop where
  reported : w.reported = ⟨0, 0, 1⟩
  unchanged : w.outcome.memo = memo
  search : ∃ search p, w.search = some search ∧ search.result = .ok p ∧
    memo.find? (.ofList relations) = some p ∧
    ∀ q, w.outcome.result = .ok q ↔ q = p ∧ (o.settings.verbose.truthy = true → Presentable p)

theorem watchBy_known {deadline : Option Deadline}
    (accepted : o.accept memo collection = .ok (relations, bound))
    (taken : memo.configuration.isNull = false)
    (limit : Deadline.ofLimit (clock readings) o.settings.timeout = .ok deadline)
    (orderly : Relation.Orderly relations) (has : memo.Has (keyOf relations))
    (h : o.watchBy schedules clock readings memo collection = some w) :
    w.LooksUp o memo relations := by
  obtain ⟨checked, d, _, binding⟩ := accept_eq_ok.mp accepted
  obtain rfl : bound = memo := by
    rcases Memo.bind_eq_ok.mp binding with ⟨free, _⟩ | ⟨_, _, same⟩
    · rw [taken] at free
      contradiction
    · exact same
  obtain ⟨⟨deadline, warnings, sorted, opening⟩, prepared⟩ := prepare_isOk limit orderly
  have sort := (prepare_eq_ok prepared).2.1
  have same : keyOf relations = keyOf sorted :=
    IdSet.identities_ofList_perm (Relation.perm_of_sort sort).symm
  obtain ⟨p, found⟩ := Option.isSome_iff_exists.mp (Memo.knows_iff.mpr (same ▸ has))
  have knows : bound.knows sorted = true := by rw [Memo.knows, found]; rfl
  have recursive : o.isLayered bound sorted = false := by simp [isLayered, knows]
  rw [watchBy, accepted] at h
  dsimp only at h
  rw [prepared] at h
  dsimp only at h
  rw [watchSearch, recursive, if_neg (by simp), run_known (sorted_ne_nil checked sort) found] at h
  cases h
  constructor
  · exact Watched.reported_eq
  · exact conclude_memo
  · refine ⟨_, p, rfl, rfl, ?_, fun q => ?_⟩
    · rw [Memo.find?_congr same, found]
    · rw [conclude_ok_iff]
      constructor
      · rintro ⟨ok, presentable⟩
        cases ok
        exact ⟨rfl, presentable⟩
      · rintro ⟨rfl, presentable⟩
        exact ⟨rfl, presentable⟩

end Optimizer

namespace Memo

variable {met : Relation → Prop} {m m' : Memo} {xs ys : List Relation}

theorem Keeps.has (h : m.Keeps m') (has : m.Has (keyOf xs)) : m'.Has (keyOf xs) :=
  knows_iff.mp (h.isSome (knows_iff.mpr has))

/-- Where relations have a plan, so has every part of them. -/
theorem Filled.subset (h : m.Filled met) (has : m.Has (keyOf ys)) (sub : xs ⊆ ys)
    (distinct : Distinct xs) (two : 2 ≤ xs.length) : m.Has (keyOf xs) := by
  apply h.closed (.ofList ys) (.ofList xs) has
  · intro a inside
    rw [IdSet.mem_identities_ofList] at inside ⊢
    exact List.map_subset identity sub inside
  · rwa [IdSet.size_ofList distinct]

end Memo

namespace Call

open Optimizer

variable {met : Relation → Prop} {calls : List Call} {ws : List Watched} {m : Memo}

/-- What the last of some calls has done to the table and counted. A call that found a plan has tried
each candidate of the sets that it solved once. -/
structure Balanced (m : Memo) (c : Call) (w : Watched) (added : List Memo.Entry) : Prop where
  keeps : m.Keeps w.outcome.memo
  values : w.outcome.memo.table.values.Perm (added ++ m.table.values)
  new : ∀ entry ∈ added, m.find? entry.relations = none
  idle : w.search = none → added = []
  counts : ∀ search, w.search = some search → ∃ statistics,
    w.outcome.optimizer.statistics = some statistics ∧ statistics.effort = w.reported ∧
      w.reported.subproblems = added.length ∧
      w.reported.candidates = search.events.countP Event.isEstimate
  found : ∀ search p, w.search = some search → search.result = .ok p → w.reported.candidates =
    (added.map fun entry => c.optimizer.settings.order.tries entry.relations.size).sum

theorem balanced_of_accounts {c : Call} {w : Watched} {added : List Memo.Entry}
    (accounts : w.Accounts met c.optimizer m c.collection added) (still : w.atRest = true) :
    Balanced m c w added where
  keeps := accounts.keeps
  values := accounts.values
  new := accounts.new
  idle := accounts.idle
  counts := fun search is => by
    obtain ⟨statistics, left, same⟩ := accounts.statistics (by rw [is]; rfl)
    exact ⟨statistics, left, same, accounts.subproblems still, accounts.candidates search is still⟩
  found := accounts.found

/-- What one call has found is there for all later calls, with the plans of all subsets. -/
theorem looksUp_of_returned {before : Memo} {c₀ c : Call} {w₀ w : Watched} {p₀ : Plan}
    {added : List Memo.Entry} {relations : List Relation} {bound : Memo}
    {deadline : Option Deadline} (accounts : w₀.Accounts met c₀.optimizer before c₀.collection added)
    (keeps : w₀.outcome.memo.Keeps m)
    (stays : w₀.outcome.memo.configuration.isNull = false → m.configuration.isNull = false)
    (filled : m.Filled met) (returned : w₀.outcome.result = .ok p₀)
    (accepted : c.optimizer.accept m c.collection = .ok (relations, bound))
    (sub : relations ⊆ c₀.relations) (two : 2 ≤ relations.length)
    (limit : Deadline.ofLimit (c.clock c.readings) c.optimizer.settings.timeout = .ok deadline)
    (watched : c.watch m = some w) : w.LooksUp c.optimizer m relations := by
  obtain ⟨searched, whole, checked, orderly, _, _, has⟩ := accounts.returned p₀ returned
  rw [Call.relations, Use.relations_of_checked checked] at sub
  obtain ⟨_, _, _, _, distinct, _⟩ :=
    RelationSet.checkAll_eq_ok.mp (accept_eq_ok.mp accepted).1
  have nodup : relations.Nodup := List.Nodup.of_map _ distinct
  have large : relations.length ≤ whole.length := (List.subperm_of_subset nodup sub).length_le
  have has : m.Has (keyOf relations) :=
    filled.subset (keeps.has (has (by omega))) sub distinct two
  exact watchBy_known accepted (stays (accounts.bound (.inr searched))) limit (orderly.subset sub)
    has watched

/-- After any calls on a table that was empty at first, the table has as many entries as all calls have
counted subproblems. The next call changes no entry and adds those that it counts, for the estimates
that it was given. If a call has returned a plan, all later calls for some of its relations, at least
two, take a single look-up. -/
theorem history_balanced (integer : ∀ c ∈ calls, c.optimizer.model.IsInteger)
    (still : ∀ w ∈ ws, w.atRest = true) (h : history ∅ calls = some (ws, m)) :
    (ws.map (·.reported.subproblems)).sum = m.size ∧
      (∀ (c : Call) (w : Watched), c.optimizer.model.IsInteger → c.watch m = some w →
        w.atRest = true → ∃ added, Balanced m c w added) ∧
      ∀ (c₀ : Call) (w₀ : Watched) (p₀ : Plan), (c₀, w₀) ∈ calls.zip ws →
        w₀.outcome.result = .ok p₀ →
        ∀ (c : Call) (w : Watched) (relations : List Relation) (bound : Memo)
          (deadline : Option Deadline),
          c.optimizer.accept m c.collection = .ok (relations, bound) →
          relations ⊆ c₀.relations → 2 ≤ relations.length →
          Deadline.ofLimit (c.clock c.readings) c.optimizer.settings.timeout = .ok deadline →
          c.watch m = some w → w.LooksUp c.optimizer m relations := by
  have account : Account (fun _ => True) ∅ calls ws m :=
    history_account integer (fun _ _ _ _ => trivial) Memo.filled_empty h
  refine ⟨?_, fun c w integer watched still => ?_, ?_⟩
  · have size := account.size still
    rw [size]
    exact (Nat.zero_add _).symm
  · obtain ⟨added, accounts⟩ := watch_accounts integer (fun _ _ => trivial) account.filled watched
    exact ⟨added, balanced_of_accounts accounts still⟩
  · intro c₀ w₀ p₀ member returned c w relations bound deadline accepted sub two limit watched
    obtain ⟨before, added, accounts, keeps, stays⟩ :=
      (List.forall₂_iff_zip.mp account.calls).2 member
    exact looksUp_of_returned accounts keeps stays account.filled returned accepted sub two limit
      watched

def crossOptimizer : Optimizer := ⟨.default, .crossProduct .small, 0, none⟩

/-- A table that was bound by a call for some relations lets the same optimizer in for others. -/
theorem accept_again {clock : Clock} {readings : Nat} {relations others : List Relation} {p : Plan}
    (ok : (crossOptimizer.optimize clock readings ∅ (listOf relations)).result = .ok p)
    (checked : RelationSet.checkAll (listOf relations) crossOptimizer.settings.maxRelations =
      .ok relations)
    (checked' : RelationSet.checkAll (listOf others) crossOptimizer.settings.maxRelations =
      .ok others) :
    ∃ bound, crossOptimizer.accept (crossOptimizer.optimize clock readings ∅ (listOf relations)).memo
      (listOf others) = .ok (others, bound) := by
  obtain ⟨description, described⟩ := describe_known .crossProduct
  have accepted : crossOptimizer.accept ∅ (listOf relations) = .ok (relations,
      { (∅ : Memo) with configuration := configurationOf description .canonical }) :=
    accept_eq_ok.mpr ⟨checked, description, described, rfl⟩
  obtain ⟨schedules, single⟩ := crossOptimizer.exists_optimizeBy clock readings ∅ (listOf relations)
  obtain ⟨_, _, sorted, _, prepared⟩ := exists_prepared accepted single ok
  have sort := (prepare_eq_ok prepared).2.1
  have reached := (optimizeBy_reached
    (posed CostModel.productOf .canonical _ (sound_of_fresh (fresh_of_accept accepted)) checked sort)
    rfl accepted sort (sorted_ne_nil checked sort) CostModel.estimates_crossProduct.agrees single).1
  have configuration := reached.configuration
  refine ⟨_, accept_eq_ok.mpr ⟨checked', description, described,
    Memo.bind_eq_ok.mpr (.inr ⟨?_, ?_, rfl⟩)⟩⟩
  · rw [configuration]
    rfl
  · rw [configuration]
    cases described
    rfl

/-- After a call for three relations, another one for two of them. -/
theorem history_balanced_someRelations : ∃ (c₀ c : Call) (w₀ w : Watched) (p : Plan),
    c₀.relations = Use.moreRelations ∧ history ∅ [c₀] = some ([w₀], w₀.outcome.memo) ∧
    w₀.outcome.result = .ok p ∧ w₀.reported.subproblems = w₀.outcome.memo.size ∧
    c.watch w₀.outcome.memo = some w ∧
    w.LooksUp crossOptimizer w₀.outcome.memo Use.someRelations := by
  have checked : RelationSet.checkAll (listOf Use.moreRelations)
      crossOptimizer.settings.maxRelations = .ok Use.moreRelations := rfl
  have checked' : RelationSet.checkAll (listOf Use.someRelations)
      crossOptimizer.settings.maxRelations = .ok Use.someRelations := rfl
  have integer : crossOptimizer.model.IsInteger :=
    CostModel.estimates_crossProduct.agrees.isInteger
  obtain ⟨p, returned⟩ : ∃ p, (crossOptimizer.optimize (fun _ => 0) 0 ∅
      (listOf Use.moreRelations)).result = .ok p := by
    obtain ⟨table, accepted⟩ := accept_fresh (describe_known .crossProduct) checked
    apply (optimize_isOk_iff CostModel.estimates_crossProduct rfl accepted).mpr
    have proper : ∀ r ∈ Use.moreRelations, r.IsNumbered ∧ r.IsNamed := by
      intro r member
      simp only [Use.moreRelations, Use.someRelations, List.mem_cons, List.not_mem_nil,
        or_false] at member
      rcases member with rfl | rfl | rfl <;> exact ⟨⟨_, rfl⟩, _, rfl⟩
    exact ⟨fun r member => (proper r member).2,
      Relation.pairwise_comparable fun r member => (proper r member).1,
      fun listens => absurd listens (by decide)⟩
  obtain ⟨schedules, w₀, watched₀, same₀, still₀⟩ :=
    crossOptimizer.exists_watchBy (fun _ => 0) 0 ∅ (listOf Use.moreRelations)
  obtain ⟨schedules', w, watched, _, _⟩ :=
    crossOptimizer.exists_watchBy (fun _ => 0) 0 w₀.outcome.memo (listOf Use.someRelations)
  let c₀ : Call := ⟨crossOptimizer, schedules, fun _ => 0, 0, listOf Use.moreRelations⟩
  let c : Call := ⟨crossOptimizer, schedules', fun _ => 0, 0, listOf Use.someRelations⟩
  have ran : history ∅ [c₀] = some ([w₀], w₀.outcome.memo) := by
    rw [history, show c₀.watch ∅ = some w₀ from watched₀]
    rfl
  have relations₀ : c₀.relations = Use.moreRelations :=
    Use.relations_plainCall schedules Use.moreRelations
  obtain ⟨bound, accepted⟩ := accept_again returned checked checked'
  rw [← same₀] at returned accepted
  obtain ⟨size, _, later⟩ := @history_balanced [c₀] [w₀] w₀.outcome.memo
    (by simpa [c₀] using integer) (by simpa using still₀) ran
  refine ⟨c₀, c, w₀, w, p, relations₀, ran, returned, by simpa using size, watched, ?_⟩
  exact later c₀ w₀ p (by simp) returned c w Use.someRelations bound none accepted
    (by rw [relations₀]; exact List.subset_cons_self _ _) (by decide) rfl watched

end Call

end JoinOrder
