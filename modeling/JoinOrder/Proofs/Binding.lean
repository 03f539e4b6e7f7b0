import JoinOrder.Proofs.Calls
import JoinOrder.Proofs.SameValue
import JoinOrder.Proofs.Stores
/-!
What a table is bound to. A call that is refused before its search leaves everything as it was. Once a
call has got as far as its search, the table stays with that configuration: whatever the calls after it
do, whether they find a plan, run out of time or fail, those with an equal configuration are let in and
all others are turned away.
-/

namespace JoinOrder

/-! ### A search does not touch the binding -/

theorem Memo.configuration_keptByStores (configuration : Value) :
    Memo.KeptByStores fun m => m.configuration = configuration := by
  intro m m' listed plan stored bound
  rw [(Memo.eq_put_of_store stored).2]
  exact bound

namespace Optimizer

theorem searchBy_configuration {o : Optimizer} {schedules : Nat → List Nat} {a : Search.Answerer}
    {memo : Memo} {source relations : List Relation} {s s' : Search.State}
    {result : Except Error Plan}
    (ran : o.searchBy schedules a memo source relations s = some (result, s')) :
    s'.memo.configuration = s.memo.configuration :=
  searchBy_keeps (Memo.configuration_keptByStores _) rfl ran

end Optimizer

namespace Call

open Optimizer

/-- The ways to be turned away before anything happens: by the collection, by a model that does not
describe itself, or by the table. -/
inductive Refused (m : Memo) (c : Call) : Error → Prop
  | checked {e : Error} (refused : RelationSet.checkAll c.collection
      c.optimizer.settings.maxRelations = .error e) : Refused m c e
  | described {e : Error} {relations : List Relation} (checked : RelationSet.checkAll c.collection
      c.optimizer.settings.maxRelations = .ok relations)
      (refused : c.optimizer.model.describe = .error e) : Refused m c e
  | bound {e : Error} {relations : List Relation} {description : Value}
      (checked : RelationSet.checkAll c.collection c.optimizer.settings.maxRelations = .ok relations)
      (described : c.optimizer.model.describe = .ok description)
      (refused : m.bind (configurationOf description c.optimizer.settings.order) = .error e) :
      Refused m c e

variable {m m' : Memo} {c : Call} {w : Watched} {e : Error} {calls : List Call} {ws : List Watched}

theorem accept_of_refused (refused : Refused m c e) :
    c.optimizer.accept m c.collection = .error e := by
  unfold Optimizer.accept
  cases refused with
  | checked refused =>
    rw [refused]
    rfl
  | described checked refused =>
    have configuration : c.optimizer.configuration = .error e := by
      rw [Optimizer.configuration, refused]
      rfl
    rw [checked, configuration]
    rfl
  | bound checked described refused =>
    have configuration := configuration_eq_ok.mpr ⟨_, described, rfl⟩
    rw [checked, configuration]
    change (do return (_, ← m.bind _)) = _
    rw [refused]
    rfl

theorem watch_of_refused (refused : Refused m c e) :
    c.watch m = some ⟨⟨.error e, c.optimizer, m, c.readings, [], []⟩, none⟩ := by
  rw [watch, watchBy, accept_of_refused refused]

/-- A call that gets as far as its search leaves the binding that it was let in with. -/
theorem exists_bind (watched : c.watch m = some w) (searched : w.search.isSome = true) :
    ∃ configuration bound, c.optimizer.configuration = .ok configuration ∧
      m.bind configuration = .ok bound ∧ w.outcome.memo.configuration = bound.configuration := by
  rcases watchBy_cases watched with ⟨none, _⟩ |
    ⟨relations, bound, deadline, warnings, sorted, opening, search, accepted, prepared, ran, rfl⟩
  · rw [none] at searched
    contradiction
  · obtain ⟨_, description, described, binding⟩ := accept_eq_ok.mp accepted
    have ended : c.optimizer.searchBy c.schedules (c.optimizer.answerer c.clock deadline) bound
        relations sorted (c.optimizer.started bound c.readings opening) =
          some (search.result, search.state) := by
      rw [← watchSearch_ended, ran]
      rfl
    refine ⟨_, bound, configuration_eq_ok.mpr ⟨description, described, rfl⟩, binding, ?_⟩
    rw [conclude_memo]
    exact searchBy_configuration ended

/-- What a call does to a table that is bound: nothing to its binding. -/
theorem watch_configuration (bound : m.configuration.isNull = false) (watched : c.watch m = some w) :
    w.outcome.memo.configuration = m.configuration := by
  cases search : w.search with
  | none =>
    rcases watchBy_cases watched with ⟨_, _, _, same | free⟩ | ⟨_, _, _, _, _, _, _, _, _, _, rfl⟩
    · rw [same]
    · rw [free] at bound
      contradiction
    · exact nomatch search
  | some found =>
    obtain ⟨configuration, table, _, binding, left⟩ := exists_bind watched (by rw [search]; rfl)
    rcases Memo.bind_eq_ok.mp binding with ⟨free, _⟩ | ⟨_, _, rfl⟩
    · rw [free] at bound
      contradiction
    · exact left

/-- What one call preserves, any calls preserve. -/
theorem history_configuration (bound : m.configuration.isNull = false)
    (ran : history m calls = some (ws, m')) : m'.configuration = m.configuration := by
  induction calls generalizing m ws with
  | nil =>
    cases ran
    rfl
  | cons c calls ih =>
    obtain ⟨w, later, watched, rest, rfl⟩ := history_cons ran
    have kept := watch_configuration bound watched
    rw [ih (by rw [kept]; exact bound) rest, kept]

/-- A call that is turned away by the collection, by a model that does not describe itself or by the
table leaves the optimizer with its statistics and the table as they were, and asks for no estimate.

Once a call has got as far as its search, the table stays with the configuration of that call, if it was
free before, or with an equal one. After any further calls, a call with an equal configuration is bound,
and one with another is turned away, if its collection is none to be turned away for. -/
theorem bound_until_reset :
    (∀ (c : Call) (m : Memo) (e : Error), Refused m c e →
      c.watch m = some ⟨⟨.error e, c.optimizer, m, c.readings, [], []⟩, none⟩) ∧
    ∀ (c : Call) (m : Memo) (w : Watched) (later : List Call) (ws : List Watched) (m' : Memo),
      m.configuration.IsTidy → c.watch m = some w → w.search.isSome = true →
      history w.outcome.memo later = some (ws, m') →
      ∃ own, c.optimizer.configuration = .ok own ∧
        (m.configuration.isNull = true ∧ m'.configuration = own ∨
          m'.configuration = m.configuration ∧ m.configuration.same own = true) ∧
        ∀ (next : Call) (other : Value), next.optimizer.configuration = .ok other →
          (own.same other = true → m'.bind other = .ok m') ∧
          (own.same other = false → ∀ relations,
            RelationSet.checkAll next.collection next.optimizer.settings.maxRelations =
              .ok relations →
            next.watch m' = some ⟨⟨.error (.boundElsewhere m'.configuration.shown other.shown),
              next.optimizer, m', next.readings, [], []⟩, none⟩) := by
  refine ⟨fun c m e refused => watch_of_refused refused, ?_⟩
  intro c m w later ws m' tidy first searched ran
  obtain ⟨own, bound, configured, binding, left⟩ := exists_bind first searched
  have taken : w.outcome.memo.configuration.isNull = false := by
    obtain ⟨_, _, rfl⟩ := configuration_eq_ok.mp configured
    rw [left]
    exact isNull_of_bind binding
  have kept := history_configuration taken ran
  have whose : m.configuration.isNull = true ∧ m'.configuration = own ∨
      m'.configuration = m.configuration ∧ m.configuration.same own = true := by
    rw [kept, left]
    rcases Memo.bind_eq_ok.mp binding with ⟨free, rfl⟩ | ⟨_, same, rfl⟩
    · exact .inl ⟨free, rfl⟩
    · exact .inr ⟨rfl, same⟩
  have alike : ∀ other, m'.configuration.same other = own.same other := by
    intro other
    rcases whose with ⟨_, is⟩ | ⟨is, same⟩
    · rw [is]
    · rw [is]
      exact Value.same_congr tidy same other
  have last : m'.configuration.isNull = false := by rw [kept]; exact taken
  refine ⟨own, configured, whose, fun next other configured' => ⟨fun same => ?_, fun differ => ?_⟩⟩
  · exact Memo.bind_eq_ok.mpr (.inr ⟨last, (alike other).trans same, rfl⟩)
  · intro relations checked
    obtain ⟨description, described, rfl⟩ := configuration_eq_ok.mp configured'
    apply watch_of_refused
    apply Refused.bound checked described
    rw [Memo.bind, last, alike, differ]
    rfl

/-! ### Two orders of enumeration -/

/-- The optimizer that enumerates in the other order. -/
def otherOptimizer : Optimizer := { plainOptimizer with settings.order := .reference }

theorem searched_of_ok {p : Plan} (watched : c.watch m = some w) (ok : w.outcome.result = .ok p) :
    w.search.isSome = true := by
  rcases watchBy_cases watched with ⟨_, ⟨e, failed⟩, _⟩ | ⟨_, _, _, _, _, _, _, _, _, _, rfl⟩
  · rw [failed] at ok
    contradiction
  · rfl

/-- A call of the default optimizer for two relations gets as far as its search. -/
theorem exists_searched : ∃ (c : Call) (w : Watched), c.optimizer = plainOptimizer ∧
    c.watch ∅ = some w ∧ w.search.isSome = true := by
  have checked : RelationSet.checkAll (listOf Use.someRelations)
      plainOptimizer.settings.maxRelations = .ok Use.someRelations := rfl
  have proper : ∀ r ∈ Use.someRelations, r.IsNumbered ∧ r.IsNamed := by
    intro r member
    rcases List.mem_pair.mp member with rfl | rfl <;> exact ⟨⟨_, rfl⟩, _, rfl⟩
  obtain ⟨table, accepted⟩ := accept_fresh (describe_known .sharedAttributes) checked
  obtain ⟨p, ok⟩ : ∃ p, (plainOptimizer.optimize (fun _ => 0) 0 ∅
      (listOf Use.someRelations)).result = .ok p := by
    apply (optimize_isOk_iff CostModel.estimates_sharedAttributes rfl accepted).mpr
    exact ⟨fun r member => (proper r member).2,
      Relation.pairwise_comparable fun r member => (proper r member).1,
      fun listens => absurd listens (by decide)⟩
  obtain ⟨schedules, w, watched, outcome, _⟩ :=
    plainOptimizer.exists_watchBy (fun _ => 0) 0 ∅ (listOf Use.someRelations)
  let c : Call := ⟨plainOptimizer, schedules, fun _ => 0, 0, listOf Use.someRelations⟩
  have watched : c.watch ∅ = some w := watched
  rw [← outcome] at ok
  exact ⟨c, w, rfl, watched, searched_of_ok watched ok⟩

/-- The two orders make two configurations. -/
theorem exists_configurations : ∃ own other, plainOptimizer.configuration = .ok own ∧
    otherOptimizer.configuration = .ok other ∧ own.same other = false := by
  obtain ⟨description, described⟩ := describe_known .sharedAttributes
  refine ⟨_, _, configuration_eq_ok.mpr ⟨description, described, rfl⟩,
    configuration_eq_ok.mpr ⟨description, described, rfl⟩, ?_⟩
  rw [Bool.eq_false_iff]
  intro same
  exact nomatch (Value.same_configuration same).2

theorem bound_until_reset_otherOrder : ∃ (c next : Call) (w : Watched) (shown shown' : String),
    c.watch ∅ = some w ∧ w.search.isSome = true ∧ next.optimizer = otherOptimizer ∧
      next.watch w.outcome.memo = some ⟨⟨.error (.boundElsewhere shown shown'), otherOptimizer,
        w.outcome.memo, next.readings, [], []⟩, none⟩ := by
  obtain ⟨c, w, plain, watched, searched⟩ := exists_searched
  obtain ⟨own, other, configured, configured', differ⟩ := exists_configurations
  let next : Call := ⟨otherOptimizer, fun _ => [], fun _ => 0, 0, listOf Use.someRelations⟩
  obtain ⟨own', first, _, others⟩ := bound_until_reset.2 c ∅ w [] [] w.outcome.memo (.scalar .null)
    watched searched rfl
  obtain rfl : own' = own := by
    rw [plain, configured] at first
    exact (Except.ok.inj first).symm
  exact ⟨c, next, w, _, _, watched, searched, rfl,
    (others next other configured').2 differ Use.someRelations rfl⟩

/-- With another configuration, a call whose collection is none is turned away for that. -/
theorem otherOrder_notRelations : ∃ (c next : Call) (w : Watched) (own other : Value),
    c.watch ∅ = some w ∧ w.search.isSome = true ∧ c.optimizer.configuration = .ok own ∧
      next.optimizer.configuration = .ok other ∧ own.same other = false ∧
      next.watch w.outcome.memo = some ⟨⟨.error (.notRelations "None"), next.optimizer,
        w.outcome.memo, next.readings, [], []⟩, none⟩ := by
  obtain ⟨c, w, plain, watched, searched⟩ := exists_searched
  obtain ⟨own, other, configured, configured', differ⟩ := exists_configurations
  let next : Call := ⟨otherOptimizer, fun _ => [], fun _ => 0, 0, .scalar .null⟩
  refine ⟨c, next, w, own, other, watched, searched, by rw [plain, configured], configured', differ, ?_⟩
  exact watch_of_refused (.checked rfl)

end Call

end JoinOrder
