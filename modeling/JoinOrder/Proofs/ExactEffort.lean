import JoinOrder.Proofs.Conduct
import JoinOrder.Proofs.Finished
import JoinOrder.Proofs.Masks
import JoinOrder.Proofs.Optimality
/-!
How much work a search has to do. From an empty table every part of the relations is solved once, and
what that takes depends on its size alone, so the account at the end is a sum over all parts by their
sizes. These sums have closed forms.
-/

namespace JoinOrder

variable {α : Type} {xs : List α}

/-! ### Sums over all parts of a list -/

/-- The work on all parts of a list, where a part takes as much as its size says. -/
def tally (work : Nat → Nat) (xs : List α) : Nat := (xs.sublists.map fun ys => work ys.length).sum

theorem tally_nil (work : Nat → Nat) : tally work ([] : List α) = work 0 := by simp [tally]

/-- A part of a longer list has the first element, or it has not. -/
theorem tally_cons (work : Nat → Nat) (x : α) (xs : List α) :
    tally work (x :: xs) = tally work xs + tally (fun k => work (k + 1)) xs := by
  have parts := (List.sublists_cons_perm_append x xs).map fun ys => work ys.length
  rw [tally, parts.sum_eq, List.map_append, List.sum_append, List.map_map]
  rfl

theorem tally_add (v w : Nat → Nat) : tally (fun k => v k + w k) xs = tally v xs + tally w xs :=
  List.sum_map_add

theorem tally_mul (c : Nat) (w : Nat → Nat) : tally (fun k => c * w k) xs = c * tally w xs :=
  List.sum_map_mul_left ..

theorem tally_one : tally (fun _ => 1) xs = 2 ^ xs.length := by
  simp [tally, List.map_const']

theorem tally_two_pow : tally (2 ^ ·) xs = 3 ^ xs.length := by
  induction xs with
  | nil => rfl
  | cons x xs ih =>
    have double : tally (fun k => 2 ^ (k + 1)) xs = 2 * tally (2 ^ ·) xs := by
      rw [← tally_mul]
      exact congrArg (tally · xs) (funext fun k => Nat.pow_succ')
    rw [tally_cons, double, ih, List.length_cons, Nat.pow_succ]
    omega

theorem tally_self : tally (fun k => k) xs = xs.length * 2 ^ (xs.length - 1) := by
  have twice : 2 * tally (fun k => k) xs = xs.length * 2 ^ xs.length := by
    induction xs with
    | nil => rfl
    | cons x xs ih =>
      rw [tally_cons, tally_add, tally_one, List.length_cons, Nat.pow_succ, Nat.add_mul,
        ← Nat.mul_assoc]
      omega
  cases xs with
  | nil => rfl
  | cons x xs =>
    rw [List.length_cons, Nat.pow_succ, ← Nat.mul_assoc] at twice
    rw [List.length_cons, Nat.add_sub_cancel]
    omega

theorem tally_single (j : Nat) : tally (fun k => if k = j then 1 else 0) xs = xs.length.choose j := by
  induction xs generalizing j with
  | nil => cases j <;> simp [tally_nil]
  | cons x xs ih =>
    rw [tally_cons, ih, List.length_cons]
    cases j with
    | zero => simp [tally]
    | succ j =>
      simp only [Nat.add_right_cancel_iff]
      rw [ih, Nat.choose_succ_succ, Nat.add_comm]

theorem tally_empty : tally (fun k => if k = 0 then 1 else 0) xs = 1 := by
  rw [tally_single, Nat.choose_zero_right]

theorem tally_singletons : tally (fun k => if k = 1 then 1 else 0) xs = xs.length := by
  rw [tally_single, Nat.choose_one_right]

/-! ### The sides of all splits -/

namespace Split

/-- Looking for one side of a split: one element alone is never looked up. -/
def weight (size : Nat) : Nat := if size = 1 then 0 else 1

/-- Looking for both sides of all splits. -/
def sides (order : Order) (xs : List α) : Nat :=
  ((all order xs).map fun part => weight part.1.length + weight part.2.length).sum

theorem tally_weight_add : tally weight xs + xs.length = 2 ^ xs.length := by
  have both : (fun k => weight k + if k = 1 then 1 else 0) = fun _ => 1 := by
    funext k
    unfold weight
    split <;> rfl
  rw [← tally_one, ← both, tally_add, tally_singletons]

/-- The right sides are the parts of the list as well. -/
theorem map_right_full (xs : List α) : ((full xs).map Prod.snd).Perm xs.sublists := by
  induction xs with
  | nil => exact .refl _
  | cons x xs ih =>
    rw [full_cons, List.map_flatMap, List.sublists_cons, List.bind_eq_flatMap]
    have turned := (ih.flatMap_right fun ys => [x :: ys, ys])
    rw [List.flatMap_map] at turned
    exact turned.trans (List.Perm.flatMap_left _ fun ys _ => List.Perm.swap ..)

theorem sum_left_full (work : Nat → Nat) :
    ((full xs).map fun part => work part.1.length).sum = tally work xs := by
  rw [tally, ← map_left_full, List.map_map]
  rfl

theorem sum_right_full (work : Nat → Nat) :
    ((full xs).map fun part => work part.2.length).sum = tally work xs := by
  have parts := ((map_right_full xs).map fun ys => work ys.length).sum_eq
  rwa [List.map_map] at parts

theorem sides_reference (two : 2 ≤ xs.length) :
    sides .reference xs + 2 * xs.length + 4 = 2 * 2 ^ xs.length := by
  have whole : weight xs.length = 1 := if_neg (by omega)
  have sum : ((full xs).map fun part => weight part.1.length + weight part.2.length).sum =
      tally weight xs + tally weight xs := by
    rw [List.sum_map_add, sum_left_full, sum_right_full]
  rw [full_eq_reference two] at sum
  simp only [List.map_cons, List.map_append, List.map_nil, List.sum_cons, List.sum_append,
    List.sum_nil, whole, List.length_nil] at sum
  have empty : weight 0 = 1 := rfl
  have count := @tally_weight_add _ xs
  rw [sides]
  omega

theorem sides_canonical (two : 2 ≤ xs.length) :
    sides .canonical xs + xs.length + 2 = 2 ^ xs.length := by
  cases xs with
  | nil => simp at two
  | cons x xs =>
    have some : xs ≠ [] := by
      rintro rfl
      simp at two
    have whole : weight (xs.length + 1) = 1 := if_neg (by
      have := List.length_pos_iff.mpr some
      omega)
    have sum : ((full xs).map fun part => weight (part.1.length + 1) + weight part.2.length).sum =
        tally (fun k => weight (k + 1)) xs + tally weight xs := by
      rw [List.sum_map_add, sum_left_full (fun k => weight (k + 1)), sum_right_full]
    have split := congrArg (fun parts => (parts.map fun part : List α × List α =>
      weight part.1.length + weight part.2.length).sum) (full_eq_canonical x some)
    simp only [List.map_map, List.map_append, List.map_cons, List.map_nil, List.sum_append,
      List.sum_cons, List.sum_nil, List.length_cons, List.length_nil, whole, Function.comp_def,
      sum] at split
    -- With the first element a side has one element only if there are no others.
    have first : tally (fun k => weight (k + 1)) xs + 1 = 2 ^ xs.length := by
      have both : (fun k => weight (k + 1) + if k = 0 then 1 else 0) = fun _ => 1 := by
        funext k
        cases k <;> rfl
      rw [← tally_one, ← both, tally_add, tally_empty]
    have empty : weight 0 = 1 := rfl
    have count := @tally_weight_add _ xs
    rw [sides, List.length_cons, Nat.pow_succ]
    omega

end Split

namespace Order

/-- How many look-ups solving so many relations takes. -/
def looks (order : Order) (size : Nat) : Nat :=
  match order with
  | .canonical => 2 ^ size - 2 - size
  | .reference => 2 * (2 ^ size - 2 - size)

/-- What solving one part takes grows with the number of its own parts; the smallest parts take
nothing, and each sum is told by what they would have taken. -/
theorem tally_tries_canonical :
    2 * tally (tries .canonical) xs + 2 * 2 ^ xs.length = 3 ^ xs.length + 1 := by
  have each : (fun k => 2 * tries .canonical k + 2 * 1) = fun k => 2 ^ k + if k = 0 then 1 else 0 := by
    funext k
    match k with
    | 0 | 1 | 2 => rfl
    | k + 3 =>
      rw [tries, if_neg (by omega), Split.count_canonical (by omega), if_neg (by omega), Nat.pow_succ]
      have := Nat.two_pow_pos (k + 2)
      omega
  have sum := congrArg (tally · xs) each
  simp only [tally_add, tally_mul, tally_one, tally_two_pow, tally_empty] at sum
  exact sum

theorem tally_tries_reference :
    tally (tries .reference) xs + xs.length.choose 2 + 2 * 2 ^ xs.length = 3 ^ xs.length + 1 := by
  have each : (fun k => tries .reference k + (if k = 2 then 1 else 0) + 2 * 1) =
      fun k => 2 ^ k + if k = 0 then 1 else 0 := by
    funext k
    match k with
    | 0 | 1 | 2 => rfl
    | k + 3 =>
      have four := Split.four_le_of_two_le (n := k + 3) (by omega)
      rw [tries, if_neg (by omega), Split.count_reference (by omega), if_neg (by omega),
        if_neg (by omega)]
      omega
  have sum := congrArg (tally · xs) each
  simp only [tally_add, tally_mul, tally_one, tally_two_pow, tally_single 2, tally_empty] at sum
  exact sum

theorem size_add_two_le {k : Nat} (two : 2 ≤ k) : k + 2 ≤ 2 ^ k := by
  induction k, two using Nat.le_induction with
  | base => decide
  | succ k two ih =>
    rw [Nat.pow_succ]
    omega

theorem tally_looks_canonical : tally (looks .canonical) xs + xs.length * 2 ^ (xs.length - 1) +
    2 * 2 ^ xs.length = 3 ^ xs.length + 1 + xs.length := by
  have each : (fun k => looks .canonical k + k + 2 * 1) =
      fun k => 2 ^ k + (if k = 0 then 1 else 0) + if k = 1 then 1 else 0 := by
    funext k
    match k with
    | 0 | 1 => rfl
    | k + 2 =>
      have least := size_add_two_le (k := k + 2) (by omega)
      rw [looks, if_neg (by omega), if_neg (by omega)]
      omega
  have sum := congrArg (tally · xs) each
  simp only [tally_add, tally_mul, tally_one, tally_two_pow, tally_self, tally_empty,
    tally_singletons] at sum
  exact sum

theorem tally_looks_reference : tally (looks .reference) xs = 2 * tally (looks .canonical) xs :=
  tally_mul 2 (looks .canonical)

end Order

namespace Problem

variable {P : Problem} {e : Effort}

theorem lookUps_fresh (fresh : ∀ K, P.table.find? K = none) {ys : List Relation}
    (two : 2 ≤ ys.length) : P.lookUps ys = P.order.looks ys.length := by
  have sides : P.countedBefore ys (Split.count P.order ys.length) = Split.sides P.order ys := by
    rw [countedBefore, Split.sides, Split.all_eq, List.map_map]
    refine congrArg List.sum (List.map_congr_left fun i _ => ?_)
    simp [counted, Split.weight, knows_fresh fresh]
  have closed : Split.sides P.order ys = P.order.looks ys.length := by
    cases P.order with
    | canonical =>
      have := Split.sides_canonical two
      rw [Order.looks]
      omega
    | reference =>
      have := Split.sides_reference two
      rw [Order.looks]
      omega
  unfold lookUps
  split
  case isTrue pair => rw [pair]; cases P.order <;> rfl
  case isFalse => rw [sides, closed]

/-- Nothing is known at the start, so the work on all parts is outstanding. -/
theorem outstanding_fresh (fresh : ∀ K, P.table.find? K = none) {work : List Relation → Nat}
    {bySize : Nat → Nat} (none : bySize 0 = 0) (one : bySize 1 = 0)
    (same : ∀ ys, 2 ≤ ys.length → work ys = bySize ys.length) :
    P.outstanding work P.table = tally bySize P.root := by
  have each : (P.parts.map fun ys => if P.table.knows ys then 0 else work ys) =
      P.parts.map fun ys => bySize ys.length := by
    refine List.map_congr_left fun ys member => ?_
    rw [knows_fresh fresh, if_neg (by simp), same ys (mem_parts.mp member).two]
  have filtered (l : List (List Relation)) :
      ((l.filter (2 ≤ ·.length)).map fun ys => bySize ys.length).sum =
        (l.map fun ys => bySize ys.length).sum := by
    induction l with
    | nil => rfl
    | cons ys l ih =>
      by_cases two : 2 ≤ ys.length
      · simp [two, ih]
      · have small : bySize ys.length = 0 := by
          obtain length | length : ys.length = 0 ∨ ys.length = 1 := by omega
          · rw [length, none]
          · rw [length, one]
        simp [two, small, ih]
  rw [outstanding, each]
  exact filtered P.root.sublists

/-- What a search for one problem comes to that starts with nothing and finds a plan. -/
theorem Settled.fresh (h : P.Settled false .zero e) (fresh : ∀ K, P.table.find? K = none)
    (two : 2 ≤ P.root.length) :
    e.subproblems + 1 + P.root.length = 2 ^ P.root.length ∧
      e.candidates = tally P.order.tries P.root ∧
      e.memoHits + e.subproblems = tally P.order.looks P.root + 1 := by
  have parts : P.outstanding (fun _ => 1) P.table + 1 + P.root.length = 2 ^ P.root.length := by
    have each : (fun k => (if 2 ≤ k then 1 else 0) + (if k = 0 then 1 else 0) +
        if k = 1 then 1 else 0) = fun _ => 1 := by
      funext k
      match k with
      | 0 | 1 | _ + 2 => simp
    have sum := congrArg (tally · P.root) each
    simp only [tally_add, tally_one, tally_empty, tally_singletons] at sum
    have bySize : P.outstanding (fun _ => 1) P.table =
        tally (fun k => if 2 ≤ k then 1 else 0) P.root :=
      outstanding_fresh fresh rfl rfl fun ys two => (if_pos two).symm
    rw [bySize]
    exact sum
  have subproblems : e.subproblems = P.outstanding (fun _ => 1) P.table :=
    h.subproblems.trans (Nat.zero_add _)
  have candidates : e.candidates = P.outstanding P.tries P.table :=
    h.candidates.trans (Nat.zero_add _)
  have hits : e.memoHits + P.outstanding (fun _ => 1) P.table =
      0 + P.outstanding P.lookUps P.table + P.counted P.root := h.memoHits
  have root : P.counted P.root = 1 := if_neg (by omega)
  refine ⟨subproblems ▸ parts, ?_, ?_⟩
  · rw [candidates]
    exact outstanding_fresh fresh (by cases P.order <;> rfl) (by cases P.order <;> rfl) fun _ _ => rfl
  · have looks : P.outstanding P.lookUps P.table = tally P.order.looks P.root :=
      outstanding_fresh fresh (by cases P.order <;> rfl) (by cases P.order <;> rfl)
        fun _ two => lookUps_fresh fresh two
    rw [subproblems, hits, root, looks, Nat.zero_add]

/-- The parts that have plans are the sets of relations with two members at least. -/
theorem Finished.isSome_find?_iff {m : Memo} {K : RelationSet} (h : P.Finished m)
    (fresh : ∀ K, P.table.find? K = none) : (m.find? K).isSome = true ↔
      K.identities ⊆ (IdSet.ofList P.root).identities ∧ 2 ≤ K.size := by
  rw [Option.isSome_iff_exists]
  simp only [h.find?_fresh fresh]
  constructor
  · rintro ⟨_, xs, part, same, _⟩
    rw [IdSet.size_eq same, IdSet.size_ofList (P.distinct.sublist part.sublist), same]
    refine ⟨fun a member => ?_, part.two⟩
    rw [IdSet.mem_identities_ofList] at member ⊢
    exact (part.sublist.map _).subset member
  · rintro ⟨inside, two⟩
    let xs := P.root.filter fun r => K.contains (identity r)
    have sub : xs.Sublist P.root := List.filter_sublist
    have same : K.identities = (IdSet.ofList xs).identities := by
      refine IdSet.identities_eq fun a => ?_
      rw [IdSet.mem_identities_ofList]
      constructor
      · intro member
        obtain ⟨r, known, rfl⟩ := List.mem_map.mp (IdSet.mem_identities_ofList.mp (inside member))
        exact List.mem_map_of_mem (List.mem_filter.mpr ⟨known, IdSet.contains_iff.mpr member⟩)
      · intro member
        obtain ⟨r, known, rfl⟩ := List.mem_map.mp member
        exact IdSet.contains_iff.mp (List.mem_filter.mp known).2
    rw [IdSet.size_eq same, IdSet.size_ofList (P.distinct.sublist sub)] at two
    exact ⟨_, xs, ⟨sub, two⟩, same, rfl⟩

end Problem

/-- How many candidates a search for the plan of `n` relations tries that starts with nothing. -/
def Order.allCandidates (order : Order) (n : Nat) : Int :=
  match order with
  | .canonical => (3 ^ n - 2 ^ (n + 1) + 1) / 2
  | .reference => 3 ^ n - 2 ^ (n + 1) + 1 - n * (n - 1) / 2

/-- How often it looks for a plan that it has found before. -/
def Order.allHits (order : Order) (n : Nat) : Int :=
  match order with
  | .canonical => 3 ^ n - 3 * 2 ^ n - n * 2 ^ (n - 1) + 2 * n + 3
  | .reference => 2 * 3 ^ n - 5 * 2 ^ n - n * 2 ^ n + 3 * n + 4

/-- What the account says of such a search. -/
structure Effort.IsExact (order : Order) (n : Nat) (e : Effort) : Prop where
  subproblems : (e.subproblems : Int) = 2 ^ n - n - 1
  candidates : e.candidates = order.allCandidates n
  memoHits : e.memoHits = order.allHits n

theorem mul_sub_one_ediv_two (n : Nat) : (n : Int) * (n - 1) / 2 = (n.choose 2 : Nat) := by
  cases n with
  | zero => rfl
  | succ n =>
    rw [Nat.choose_two_right]
    push_cast
    simp

theorem Problem.Settled.isExact {P : Problem} {e : Effort} (h : P.Settled false .zero e)
    (fresh : ∀ K, P.table.find? K = none) (two : 2 ≤ P.root.length) :
    e.IsExact P.order P.root.length := by
  obtain ⟨subproblems, candidates, hits⟩ := h.fresh fresh two
  have looks := @Order.tally_looks_canonical _ P.root
  have twice := @Order.tally_looks_reference _ P.root
  have once := @Order.tally_tries_canonical _ P.root
  have both := @Order.tally_tries_reference _ P.root
  generalize P.root.length = n at *
  have doubled : n * 2 ^ n = 2 * (n * 2 ^ (n - 1)) := by
    obtain ⟨m, rfl⟩ := Nat.exists_eq_add_of_le' two
    rw [Nat.add_sub_assoc (by decide), Nat.pow_succ _ (m + 1)]
    ring
  -- Powers and products as numbers that are not opened any further.
  have two_pow : (2 : Int) ^ n = (2 ^ n : Nat) := by norm_cast
  have two_pow_succ : (2 : Int) ^ (n + 1) = 2 * (2 ^ n : Nat) := by rw [pow_succ', two_pow]
  have three_pow : (3 : Int) ^ n = (3 ^ n : Nat) := by norm_cast
  have product : (n : Int) * 2 ^ (n - 1) = (n * 2 ^ (n - 1) : Nat) := by norm_cast
  generalize 2 ^ n = a, 3 ^ n = b, n * 2 ^ (n - 1) = c at *
  refine ⟨?_, ?_, ?_⟩
  · omega
  · cases order : P.order with
    | canonical =>
      rw [order] at candidates
      simp only [Order.allCandidates, three_pow, two_pow_succ]
      omega
    | reference =>
      rw [order] at candidates
      simp only [Order.allCandidates, three_pow, two_pow_succ, mul_sub_one_ediv_two]
      omega
  · cases order : P.order with
    | canonical =>
      rw [order] at hits
      simp only [Order.allHits, three_pow, two_pow, product]
      omega
    | reference =>
      rw [order] at hits
      simp only [Order.allHits, three_pow, two_pow]
      omega

namespace Optimizer

variable {o : Optimizer} {est : Plan → Plan → Int} {clock : Clock} {readings : Nat}
  {collection : Item} {relations : List Relation}

/-- With one worker, a model that always answers, and no time limit, relations that meet an empty table
get a plan, unless somebody listens who cannot be told all numbers. Then every set of two relations or
more has a plan in the table, nothing else has, and the account is known beforehand. -/
theorem optimize_exact (estimates : o.model.Estimates est)
    (described : ∃ description, o.model.describe = .ok description)
    (untimed : o.settings.timeout.isNull = true)
    (single : Value.less? (.int 1) o.settings.parallelWorkers = some false)
    (checked : RelationSet.checkAll collection o.settings.maxRelations = .ok relations)
    (proper : ∀ r ∈ relations, r.IsNumbered ∧ r.IsNamed) (two : 2 ≤ relations.length) :
    ((∃ plan, (o.optimize clock readings ∅ collection).result = .ok plan) ↔
        (o.settings.verbose.truthy = true → ∀ sorted, Relation.sort relations = .ok sorted →
          o.Audible est sorted)) ∧
      ∀ plan, (o.optimize clock readings ∅ collection).result = .ok plan →
        (∃ e, (o.optimize clock readings ∅ collection).effort = some e ∧
          e.IsExact o.settings.order relations.length) ∧
        ∀ K, ((o.optimize clock readings ∅ collection).memo.find? K).isSome = true ↔
          K.identities ⊆ (IdSet.ofList relations).identities ∧ 2 ≤ K.size := by
  obtain ⟨table, accepted⟩ := accept_fresh described checked
  refine ⟨optimize_isOk_iff_audible estimates described untimed checked proper, fun plan ok => ?_⟩
  obtain ⟨schedules, run⟩ := o.exists_optimizeBy clock readings ∅ collection
  obtain ⟨sorted, sort, finds⟩ := exists_finds estimates.agrees accepted run ok
  have perm := Relation.perm_of_sort sort
  have fresh := fresh_of_accept accepted
  obtain ⟨e, counted, settled⟩ := finds.effort
  have recursion : o.isLayered table sorted = false := by simp [isLayered, single]
  rw [← perm.length_eq] at two ⊢
  refine ⟨⟨e, counted, ?_⟩, fun K => ?_⟩
  · exact Problem.Settled.isExact (recursion ▸ settled) fresh two
  · rw [finds.finished.isSome_find?_iff fresh, ← IdSet.identities_ofList_perm perm]
    rfl

theorem optimize_exact_three : ∃ plan e,
    (plainOptimizer.optimize (fun _ => 0) 0 ∅ (listOf threeRelations)).result = .ok plan ∧
      (plainOptimizer.optimize (fun _ => 0) 0 ∅ (listOf threeRelations)).effort = some e ∧
        e.IsExact .canonical 3 := by
  obtain ⟨returned, exactly⟩ := @optimize_exact plainOptimizer
    CostModel.Known.sharedAttributes.estimateOf (fun _ => 0) 0 (listOf threeRelations) threeRelations
    (CostModel.estimates_known .sharedAttributes) (describe_known .sharedAttributes) rfl rfl rfl
    proper_three (by decide)
  obtain ⟨plan, ok⟩ := returned.mpr fun listens => absurd listens (by decide)
  obtain ⟨⟨e, counted, exact⟩, _⟩ := exactly plan ok
  exact ⟨plan, e, ok, counted, exact⟩

end Optimizer

end JoinOrder
