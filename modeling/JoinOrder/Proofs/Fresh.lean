import JoinOrder.Proofs.Optimizing
/-!
What an optimizer does with an empty table. The plan it returns is the best one, so what is left to
ask is when it returns one.

Without a time limit and with a model that always answers, two things can stop it. The relations may
not be put in order: a name is no text, or identities of different kinds stand behind names that rank
alike. And whoever listens may have to be told a number with too many digits.
-/

namespace JoinOrder

open Search

namespace Problem

variable {P : Problem} {a : Answerer} {xs : List Relation}

theorem plan_fresh (fresh : ∀ K, P.table.find? K = none) : P.plan xs = best P.est P.order xs := by
  rw [plan, funext fresh]
  rfl

theorem knows_fresh (fresh : ∀ K, P.table.find? K = none) : P.table.knows xs = false := by
  rw [Memo.knows, fresh]
  rfl

theorem length_layer_fresh (fresh : ∀ K, P.table.find? K = none) (size : Nat) :
    (P.layer size).length = P.root.length.choose size := by
  have all : P.layer size = Subset.ofSize size P.root := by
    apply List.filter_eq_self.mpr
    intro xs _
    simp [knows_fresh fresh]
  rw [all, (Subset.ofSize_perm size P.root).length_eq, List.length_sublistsLen]

end Problem

namespace Optimizer

variable {o : Optimizer} {est : Plan → Plan → Int} {order : Order} {clock : Clock} {readings : Nat}
  {memo' : Memo} {collection : Item} {relations sorted xs : List Relation} {a : Answerer}
  {schedules : Nat → List Nat} {out : Outcome}

/-- Every number that a search tells has few enough digits. -/
structure Audible (o : Optimizer) (est : Plan → Plan → Int) (sorted : List Relation) : Prop where
  relations : ∀ r ∈ sorted, r.tuples.isWritable = true
  plans : ∀ xs, xs.Sublist sorted → 2 ≤ xs.length →
    (best est o.settings.order xs).tuples.isWritable = true
  layers : (Value.less? (.int 1) o.settings.parallelWorkers).getD false = true → 2 < sorted.length →
    o.settings.parallelWorkers.isWritable = true ∧
      ∀ size, 2 ≤ size → size ≤ sorted.length →
        (Value.int size).isWritable = true ∧
          (Value.int (sorted.length.choose size)).isWritable = true

theorem tuples_best (counted : ∀ r ∈ xs, r.IsCounted) (nonempty : xs ≠ []) :
    ∃ n, (best est order xs).tuples = .int n :=
  (planFrom_covers sound_none counted nonempty).2.tuples

theorem texts_best (valid : ∀ r ∈ xs, r.IsValid) (nonempty : xs ≠ []) :
    ∀ r ∈ (best est order xs).leaves, ∀ s ∈ r.attributes.toList, s.isText = true := by
  intro r leaf
  exact (valid r ((leaves_best nonempty).subset leaf)).attributes

theorem writable_leaves_best (nonempty : xs ≠ []) :
    (∀ r ∈ (best est order xs).leaves, r.tuples.isWritable = true) ↔
      ∀ r ∈ xs, r.tuples.isWritable = true :=
  forall_congr' fun _ => by rw [(leaves_best nonempty).mem_iff]

theorem tells_best_iff (named : ∀ r ∈ xs, r.IsNamed) (valid : ∀ r ∈ xs, r.IsValid)
    (nonempty : xs ≠ []) : a.Tells (.solved xs (best est order xs)) ↔ (a.verbose = true →
      (∀ r ∈ xs, r.tuples.isWritable = true) ∧ (best est order xs).tuples.isWritable = true) := by
  obtain ⟨n, tuples⟩ := tuples_best (fun r member => (valid r member).isCounted) nonempty
  rw [Answerer.tells_solved_iff named tuples (texts_best valid nonempty),
    writable_leaves_best nonempty]

theorem presentable_best_iff (valid : ∀ r ∈ xs, r.IsValid) (nonempty : xs ≠ []) :
    Presentable (best est order xs) ↔ (∀ r ∈ xs, r.tuples.isWritable = true) ∧
      (best est order xs).tuples.isWritable = true := by
  obtain ⟨n, tuples⟩ := tuples_best (fun r member => (valid r member).isCounted) nonempty
  have number : (∃ text, (Item.ofValue (best est order xs).tuples).shown = .ok text) ↔
      (best est order xs).tuples.isWritable = true := by
    rw [tuples]
    exact Item.shown_scalar_iff
  rw [Presentable, Plan.shown_isOk_iff (texts_best valid nonempty), writable_leaves_best nonempty,
    number]

theorem scalar_of_less {n : Int} {v : Value} (less : (Value.less? (.int n) v).getD false = true) :
    ∃ s, v = .scalar s := by
  cases v with
  | scalar s => exact ⟨s, rfl⟩
  | array | object => simp [Value.less?] at less

theorem isLayered_fresh {P : Problem} (fresh : ∀ K, P.table.find? K = none) :
    o.isLayered P.table P.root = true ↔
      (Value.less? (.int 1) o.settings.parallelWorkers).getD false = true ∧ 2 < P.root.length := by
  simp [isLayered, Problem.knows_fresh fresh]

theorem layersTold_fresh {P : Problem} (fresh : ∀ K, P.table.find? K = none)
    (listens : a.verbose = true)
    (more : (Value.less? (.int 1) o.settings.parallelWorkers).getD false = true)
    (many : 2 < P.root.length) :
    P.LayersTold a o.settings.parallelWorkers ↔ o.settings.parallelWorkers.isWritable = true ∧
      ∀ size, 2 ≤ size → size ≤ P.root.length → (Value.int size).isWritable = true ∧
        (Value.int (P.root.length.choose size)).isWritable = true := by
  obtain ⟨workers, is⟩ := scalar_of_less more
  rw [is]
  constructor
  · intro told
    have layer {size : Nat} (two : 2 ≤ size) (le : size ≤ P.root.length) :=
      Answerer.tells_layer_iff.mp (told size two le) listens
    refine ⟨(layer le_rfl (by omega)).2.2, fun size two le => ?_⟩
    have numbers := layer two le
    rw [Problem.length_layer_fresh fresh] at numbers
    exact ⟨numbers.2.1, numbers.1⟩
  · intro ⟨writable, numbers⟩ size two le
    apply Answerer.tells_layer_iff.mpr
    intro _
    rw [Problem.length_layer_fresh fresh]
    exact ⟨(numbers size two le).2, (numbers size two le).1, writable⟩

theorem Searched.audible {P : Problem} {p : Plan} {m : Memo} (searched : o.Searched P a p m)
    (fresh : ∀ K, P.table.find? K = none) (order : o.settings.order = P.order)
    (named : ∀ r ∈ P.root, r.IsNamed) (valid : ∀ r ∈ P.root, r.IsValid) (nonempty : P.root ≠ [])
    (listens : a.verbose = true) (presentable : Presentable p) : o.Audible P.est P.root := by
  rw [searched.plan, P.plan_fresh fresh] at presentable
  constructor
  · exact ((presentable_best_iff valid nonempty).mp presentable).1
  · intro xs sub two
    have told := searched.told (P.knows_fresh fresh) (two.trans sub.length_le) xs ⟨sub, two⟩
      (P.knows_fresh fresh)
    rw [P.plan_fresh fresh] at told
    rw [order]
    exact ((tells_best_iff (fun r member => named r (sub.subset member))
      (fun r member => valid r (sub.subset member))
      (List.ne_nil_of_length_pos (by omega))).mp told listens).2
  · intro more many
    have told := searched.layersTold ((isLayered_fresh fresh).mpr ⟨more, many⟩)
    exact (layersTold_fresh fresh listens more many).mp told

theorem Audible.unstopped {P : Problem} (audible : a.verbose = true → o.Audible P.est P.root)
    (fresh : ∀ K, P.table.find? K = none) (order : o.settings.order = P.order)
    (named : ∀ r ∈ P.root, r.IsNamed) (valid : ∀ r ∈ P.root, r.IsValid)
    (untimed : a.deadline = none) (estimates : a.model.Estimates P.est) : o.Unstopped P a := by
  constructor
  · refine ⟨untimed, estimates, fun xs part _ => ?_⟩
    rw [P.plan_fresh fresh]
    apply (tells_best_iff (fun r member => named r (part.sublist.subset member))
      (fun r member => valid r (part.sublist.subset member)) part.ne_nil).mpr
    intro listens
    have numbers := audible listens
    rw [← order]
    exact ⟨fun r member => numbers.relations r (part.sublist.subset member),
      numbers.plans xs part.sublist part.two⟩
  · intro layered
    obtain ⟨more, many⟩ := (isLayered_fresh fresh).mp layered
    by_cases listens : a.verbose = true
    · exact (layersTold_fresh fresh listens more many).mpr ((audible listens).layers more many)
    · exact Problem.layersTold_of_quiet (by simpa using listens)

theorem Audible.presentable (audible : o.Audible est xs) (valid : ∀ r ∈ xs, r.IsValid)
    (nonempty : xs ≠ []) : Presentable (best est o.settings.order xs) := by
  apply (presentable_best_iff valid nonempty).mpr
  constructor
  · exact audible.relations
  · by_cases two : 2 ≤ xs.length
    · exact audible.plans xs (.refl _) two
    · obtain ⟨r, rfl⟩ : ∃ r, xs = [r] := by
        have := List.length_pos_iff.mpr nonempty
        exact List.length_eq_one_iff.mp (by omega)
      rw [best_one]
      exact audible.relations r List.mem_cons_self

/-! ### Calls with an empty table -/

theorem fresh_of_accept (accepted : o.accept ∅ collection = .ok (relations, memo')) :
    ∀ K, memo'.find? K = none := by
  obtain ⟨_, description, _, bound⟩ := accept_eq_ok.mp accepted
  intro K
  rw [Memo.find?_bind bound]
  exact Memo.find?_empty K

theorem sound_of_fresh {table : Memo} (fresh : ∀ K, table.find? K = none) : Sound table.find? := by
  intro K plan found
  rw [fresh] at found
  contradiction

theorem optimize_eq_best {plan : Plan} (agrees : o.model.Agrees est)
    (accepted : o.accept ∅ collection = .ok (relations, memo'))
    (ok : (o.optimize clock readings ∅ collection).result = .ok plan) :
    ∃ sorted, Relation.sort relations = .ok sorted ∧ plan = best est o.settings.order sorted := by
  have fresh := fresh_of_accept accepted
  have checked := (accept_eq_ok.mp accepted).1
  obtain ⟨schedules, single⟩ := o.exists_optimizeBy clock readings ∅ collection
  obtain ⟨deadline, warnings, sorted, opening, prepared⟩ := exists_prepared accepted single ok
  have sort := (prepare_eq_ok prepared).2.1
  let P := posed est o.settings.order memo' (sound_of_fresh fresh) checked sort
  have reached := optimizeBy_reached P rfl accepted sort (sorted_ne_nil checked sort) agrees single
  exact ⟨sorted, sort, (reached.2 plan ok).trans (P.plan_fresh fresh)⟩

/-- Without a time limit, nothing stops a call whose relations have an order and whose listeners can be
told all numbers. -/
theorem exists_returned (estimates : o.model.Estimates est)
    (untimed : o.settings.timeout.isNull = true)
    (accepted : o.accept ∅ collection = .ok (relations, memo'))
    (orderly : Relation.Orderly relations)
    (audible : o.settings.verbose.truthy = true → ∀ sorted, Relation.sort relations = .ok sorted →
      o.Audible est sorted)
    (h : o.optimizeBy schedules clock readings ∅ collection = some out) :
    ∃ plan, out.result = .ok plan := by
  have fresh := fresh_of_accept accepted
  have checked := (accept_eq_ok.mp accepted).1
  have ⟨_, _, _, valid, _⟩ := RelationSet.checkAll_eq_ok.mp checked
  have limit : Deadline.ofLimit (clock readings) o.settings.timeout = .ok none := by
    rw [Deadline.ofLimit, untimed]
    rfl
  obtain ⟨⟨deadline, warnings, sorted, opening⟩, prepared⟩ := prepare_isOk limit orderly
  obtain ⟨limit', sort, named⟩ := prepare_eq_ok prepared
  obtain rfl : deadline = none := Except.ok.inj (limit'.symm.trans limit)
  have validSorted : ∀ r ∈ sorted, r.IsValid := fun r member =>
    valid r ((Relation.perm_of_sort sort).subset member)
  have nonempty := sorted_ne_nil checked sort
  let P := posed est o.settings.order memo' (sound_of_fresh fresh) checked sort
  have unstopped : o.Unstopped P (o.answerer clock none) :=
    Audible.unstopped (fun listens => audible listens sorted sort) fresh rfl named validSorted rfl
      estimates
  refine ⟨_, optimizeBy_isOk P rfl accepted prepared nonempty unstopped (fun listens => ?_) h⟩
  rw [P.plan_fresh fresh]
  exact (audible listens sorted sort).presentable validSorted nonempty

/-- Without a time limit, a plan is returned exactly if the relations have names, can be put in
order, and whoever listens can be told all numbers. -/
theorem optimize_isOk_iff (estimates : o.model.Estimates est)
    (untimed : o.settings.timeout.isNull = true)
    (accepted : o.accept ∅ collection = .ok (relations, memo')) :
    (∃ plan, (o.optimize clock readings ∅ collection).result = .ok plan) ↔
      (∀ r ∈ relations, r.IsNamed) ∧ relations.Pairwise Relation.Comparable ∧
        (o.settings.verbose.truthy = true →
          ∀ sorted, Relation.sort relations = .ok sorted → o.Audible est sorted) := by
  have fresh := fresh_of_accept accepted
  have checked := (accept_eq_ok.mp accepted).1
  have ⟨_, _, _, valid, distinct, _⟩ := RelationSet.checkAll_eq_ok.mp checked
  obtain ⟨schedules, single⟩ := o.exists_optimizeBy clock readings ∅ collection
  constructor
  · rintro ⟨plan, ok⟩
    obtain ⟨deadline, warnings, sorted, opening, prepared⟩ := exists_prepared accepted single ok
    obtain ⟨named, comparable⟩ := (prepare_isOk_iff untimed distinct).mp ⟨_, prepared⟩
    refine ⟨named, comparable, fun listens sorted' sort => ?_⟩
    obtain rfl := sorted_of_prepare prepared sort
    have namedAll := (prepare_eq_ok prepared).2.2
    let P := posed est o.settings.order memo' (sound_of_fresh fresh) checked sort
    have nonempty := sorted_ne_nil checked sort
    obtain ⟨searched, presentable⟩ :=
      optimizeBy_searched P rfl accepted prepared nonempty estimates.agrees single ok
    have validSorted : ∀ r ∈ sorted, r.IsValid := fun r member =>
      valid r ((Relation.perm_of_sort sort).subset member)
    exact searched.audible fresh rfl namedAll validSorted nonempty listens (presentable listens)
  · intro ⟨named, comparable, audible⟩
    exact exists_returned estimates untimed accepted (.of_pairwise named comparable) audible single

theorem accept_fresh (described : ∃ description, o.model.describe = .ok description)
    (checked : RelationSet.checkAll collection o.settings.maxRelations = .ok relations) :
    ∃ memo', o.accept ∅ collection = .ok (relations, memo') := by
  obtain ⟨description, described⟩ := described
  exact ⟨_, accept_eq_ok.mpr ⟨checked, description, described, rfl⟩⟩

/-- With integers for identities and texts for names, only numbers that cannot be told are in the way. -/
theorem optimize_isOk_iff_audible (estimates : o.model.Estimates est)
    (described : ∃ description, o.model.describe = .ok description)
    (untimed : o.settings.timeout.isNull = true)
    (checked : RelationSet.checkAll collection o.settings.maxRelations = .ok relations)
    (proper : ∀ r ∈ relations, r.IsNumbered ∧ r.IsNamed) :
    (∃ plan, (o.optimize clock readings ∅ collection).result = .ok plan) ↔
      (o.settings.verbose.truthy = true →
        ∀ sorted, Relation.sort relations = .ok sorted → o.Audible est sorted) := by
  obtain ⟨memo', accepted⟩ := accept_fresh described checked
  rw [optimize_isOk_iff estimates untimed accepted]
  exact ⟨fun ⟨_, _, audible⟩ => audible, fun audible => ⟨fun r member => (proper r member).2,
    Relation.pairwise_comparable fun r member => (proper r member).1, audible⟩⟩

theorem describe_known {machine : Machine} (known : CostModel.Known) :
    ∃ description, (known.model machine).describe = .ok description := by
  cases known with
  | sharedAttributes => exact ⟨_, rfl⟩
  | crossProduct => exact ⟨_, rfl⟩

/-- With a known model, and without a time limit, a collection that is accepted gets a plan exactly if
its relations have names, can be put in order, and whoever listens can be told all numbers. The check
of the collection sees to none of that. -/
theorem known_isOk_iff {machine : Machine} (known : CostModel.Known)
    (model : o.model = known.model machine)
    (untimed : o.settings.timeout.isNull = true)
    (checked : RelationSet.checkAll collection o.settings.maxRelations = .ok relations) :
    (∃ plan, (o.optimize clock readings ∅ collection).result = .ok plan) ↔
      (∀ r ∈ relations, r.IsNamed) ∧ relations.Pairwise Relation.Comparable ∧
        (o.settings.verbose.truthy = true →
          ∀ sorted, Relation.sort relations = .ok sorted → o.Audible known.estimateOf sorted) := by
  obtain ⟨memo', accepted⟩ := accept_fresh (model ▸ describe_known known) checked
  apply optimize_isOk_iff
  · rw [model]
    exact CostModel.estimates_known known
  · exact untimed
  · exact accepted

def plainOptimizer : Optimizer := ⟨.default, .sharedAttributes .small, 0, none⟩

def listOf (relations : List Relation) : Item := .group .list (relations.map .relation)

theorem known_isOk_iff_two :
    ∃ plan, (plainOptimizer.optimize (fun _ => 0) 0 ∅
      (listOf [Problem.plainRelation 1 "A", Problem.plainRelation 2 "A"])).result = .ok plan := by
  have checked : RelationSet.checkAll
      (listOf [Problem.plainRelation 1 "A", Problem.plainRelation 2 "A"])
      plainOptimizer.settings.maxRelations =
        .ok [Problem.plainRelation 1 "A", Problem.plainRelation 2 "A"] := rfl
  apply (known_isOk_iff .sharedAttributes rfl rfl checked).mpr
  refine ⟨?_, ?_, fun listens => absurd listens (by decide)⟩
  · intro r member
    rcases List.mem_pair.mp member with rfl | rfl <;> exact ⟨"A", rfl⟩
  · apply List.pairwise_pair.mpr
    intro _
    rfl

def numberedName : Relation := ⟨.int 1, .int 5, .int 1, ∅, []⟩

/-- A relation with a number for its name is accepted, but there is no plan for it. -/
theorem numberedName_unplanned :
    RelationSet.checkAll (listOf [numberedName]) plainOptimizer.settings.maxRelations =
        .ok [numberedName] ∧
      ∀ plan, (plainOptimizer.optimize (fun _ => 0) 0 ∅ (listOf [numberedName])).result ≠
        .ok plan := by
  have checked : RelationSet.checkAll (listOf [numberedName])
      plainOptimizer.settings.maxRelations = .ok [numberedName] := rfl
  refine ⟨checked, fun plan ok => ?_⟩
  obtain ⟨memo', accepted⟩ := accept_fresh (o := plainOptimizer)
    (describe_known .sharedAttributes) checked
  have ⟨named, _⟩ := (optimize_isOk_iff CostModel.estimates_sharedAttributes rfl accepted).mp
    ⟨plan, ok⟩
  obtain ⟨name, text⟩ := named numberedName List.mem_cons_self
  exact nomatch text

end Optimizer

end JoinOrder
