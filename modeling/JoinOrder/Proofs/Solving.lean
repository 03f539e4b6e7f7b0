import JoinOrder.Proofs.Problem
/-!
What the recursive search does. It finds the plan that has to be found, and leaves a table in which
that plan is known. The account of its work is told by what it took off the outstanding work.
-/

namespace JoinOrder

namespace Problem

open Search

variable (P : Problem)

/-- How many candidates are tried for a part. -/
def tries (xs : List Relation) : Nat :=
  if xs.length = 2 then 1 else Split.count P.order xs.length

/-- Looking for a plan counts, unless it is that of one relation which has no entry. -/
def counted (xs : List Relation) : Nat := if xs.length = 1 ∧ P.table.knows xs = false then 0 else 1

/-- What looking for both sides of the first splits counts. -/
def countedBefore (xs : List Relation) (i : Nat) : Nat :=
  ((List.range i).map fun j =>
    P.counted (Split.nth P.order xs j).1 + P.counted (Split.nth P.order xs j).2).sum

/-- What looking for the sides of all splits of a part counts. Two relations are joined without
looking for their plans. -/
def lookUps (xs : List Relation) : Nat :=
  if xs.length = 2 then 0 else P.countedBefore xs (Split.count P.order xs.length)

/-- Whoever listens can be told the plans of all parts that are not known at the start. -/
def Told (a : Answerer) : Prop :=
  ∀ xs, P.IsPart xs → P.table.knows xs = false → a.Tells (.solved xs (P.plan xs))

/-- Nothing stops a search: there is no deadline, the model always answers, and everything can be
told. -/
structure Calm (a : Answerer) : Prop where
  deadline : a.deadline = none
  estimates : a.model.Estimates P.est
  told : P.Told a

/-- What a search leaves behind that was stopped. -/
def Stopped (a : Answerer) (m : Memo) : Prop := P.Reached m ∧ ¬ P.Calm a

/-- What happens on the way from one standing to another. Parts that became known have `n` relations
at most. The last two numbers are what was counted beyond the work that was outstanding: candidates,
and look-ups. -/
structure Advance (a : Answerer) (n candidates lookUps : Nat) (t t' : Standing) : Prop where
  reached : P.Reached t'.memo
  keeps : t.memo.Keeps t'.memo
  told : ∀ xs, P.IsPart xs → t.memo.knows xs = false → t'.memo.knows xs = true →
    xs.length ≤ n ∧ a.Tells (.solved xs (P.plan xs))
  subproblems : t'.effort.subproblems + P.outstanding (fun _ => 1) t'.memo =
    t.effort.subproblems + P.outstanding (fun _ => 1) t.memo
  candidates : t'.effort.candidates + P.outstanding P.tries t'.memo =
    t.effort.candidates + P.outstanding P.tries t.memo + candidates
  /-- each look-up finds a plan, or else it solves a part -/
  lookUps : t'.effort.memoHits + t'.effort.subproblems + P.outstanding P.lookUps t'.memo =
    t.effort.memoHits + t.effort.subproblems + P.outstanding P.lookUps t.memo + lookUps

variable {P} {a : Answerer} {n c c' l l' : Nat} {t t' t'' : Standing} {xs source : List Relation}

namespace Advance

theorem refl (h : P.Reached t.memo) : P.Advance a n 0 0 t t where
  reached := h
  keeps := .refl _
  told := fun xs _ new known => by rw [new] at known; contradiction
  subproblems := rfl
  candidates := rfl
  lookUps := rfl

theorem mono {k : Nat} (h : P.Advance a k c l t t') (le : k ≤ n) : P.Advance a n c l t t' :=
  { h with told := fun xs part new known =>
      ⟨Nat.le_trans (h.told xs part new known).1 le, (h.told xs part new known).2⟩ }

theorem trans (h : P.Advance a n c l t t') (h' : P.Advance a n c' l' t' t'') :
    P.Advance a n (c + c') (l + l') t t'' where
  reached := h'.reached
  keeps := h.keeps.trans h'.keeps
  told := fun xs part new known => by
    cases between : t'.memo.knows xs with
    | true => exact h.told xs part new between
    | false => exact h'.told xs part between known
  subproblems := h'.subproblems.trans h.subproblems
  candidates := by rw [h'.candidates, h.candidates, Nat.add_assoc]
  lookUps := by rw [h'.lookUps, h.lookUps, Nat.add_assoc]

theorem candidate (h : P.Advance a n c l t t') : P.Advance a n (c + 1) l t (t'.count .candidate) :=
  { h with candidates := by have := h.candidates; simp only [Standing.count, Effort.add]; omega }

theorem memoHit (h : P.Advance a n c l t t') : P.Advance a n c (l + 1) t (t'.count .memoHit) :=
  { h with lookUps := by have := h.lookUps; simp only [Standing.count, Effort.add]; omega }

/-- Keeping the plan of a part settles what its candidates and look-ups have counted. -/
theorem keep (h : P.Advance a n (P.tries xs) (P.lookUps xs) t t') (part : P.IsPart xs)
    (small : n < xs.length) (unknown : t.memo.knows xs = false)
    (below : ∀ ys, ys.Sublist xs → 2 ≤ ys.length → ys ≠ xs → t'.memo.knows ys = true)
    (same : (IdSet.ofList source).identities = (IdSet.ofList xs).identities) (some : source ≠ [])
    (told : a.Tells (.solved xs (P.plan xs))) :
    P.Advance a xs.length 0 1 t ((t'.withPlan source (P.plan xs)).count .subproblem) := by
  -- Parts that became known on the way have `n` relations at most.
  have new : t'.memo.knows xs = false := by
    by_contra known
    have := (h.told xs part unknown (by simpa using known)).1
    omega
  have off (work : List Relation → Nat) :=
    outstanding_withPlan (p := P.plan xs) work part new same some
  refine ⟨reached_withPlan h.reached part new below same some, h.keeps.trans ?_, ?_, ?_, ?_, ?_⟩
  · refine Memo.keeps_withPlan some ?_
    rw [Memo.find?_congr same]
    simpa [Memo.knows] using new
  · intro ys inside unknown known
    rcases (knows_withPlan part inside.sublist same some).mp known with rfl | known
    · exact ⟨le_rfl, told⟩
    · have before := h.told ys inside unknown known
      exact ⟨by omega, before.2⟩
  · have before := h.subproblems
    have := off fun _ => 1
    simp only [Standing.withPlan, Standing.count, Effort.add]
    omega
  · have before := h.candidates
    have := off P.tries
    simp only [Standing.withPlan, Standing.count, Effort.add]
    omega
  · have before := h.lookUps
    have := off P.lookUps
    simp only [Standing.withPlan, Standing.count, Effort.add]
    omega

end Advance

/-- What solving a part comes to. -/
structure Solved (a : Answerer) (xs : List Relation) (t : Standing) (p : Plan) (t' : Standing) :
    Prop where
  plan : p = P.plan xs
  advance : P.Advance a xs.length 0 (P.counted xs) t t'
  known : 2 ≤ xs.length → t'.memo.knows xs = true

theorem counted_part (part : P.IsPart xs) : P.counted xs = 1 := by
  have := part.two
  exact if_neg (by omega)

theorem ends_keep (h : P.Advance a n (P.tries xs) (P.lookUps xs) t t') (part : P.IsPart xs)
    (small : n < xs.length) (unknown : t.memo.knows xs = false)
    (below : ∀ ys, ys.Sublist xs → 2 ≤ ys.length → ys ≠ xs → t'.memo.knows ys = true)
    (same : (IdSet.ofList source).identities = (IdSet.ofList xs).identities) :
    Ends a (Search.keep source xs (P.plan xs)) t' (P.Solved a xs t) (P.Stopped a) := by
  have some : source ≠ [] := by
    rintro rfl
    exact IdSet.identities_ofList_ne_nil part.ne_nil same.symm
  have new : t'.memo.knows xs = false := by
    by_contra known
    have := (h.told xs part unknown (by simpa using known)).1
    omega
  refine ends_record ((covers part.sublist part.ne_nil).1.trans same.symm)
    (ends_count (ends_report ?_ ?_))
  · intro untold
    have old : P.table.knows xs = false := by
      cases known : P.table.knows xs with
      | false => rfl
      | true =>
        have kept : t'.memo.knows xs = true := h.reached.keeps.isSome known
        rw [new] at kept
        contradiction
    exact ⟨reached_withPlan h.reached part new below same some, fun calm =>
      untold (calm.told xs part old)⟩
  · intro told
    refine ends_done ⟨rfl, ?_, fun _ => ?_⟩
    · rw [counted_part part]
      exact h.keep part small unknown below same some told
    · exact (knows_withPlan part part.sublist same some).mpr (.inl rfl)

/-! ### All splits of a part -/

/-- A candidate replaces the best one so far only if it has fewer tuples. -/
theorem better_eq {plan : Plan} {plans : List Plan} (counts : plan.tuples = .int plan.estimate)
    (allCount : ∀ p ∈ plans, p.tuples = .int p.estimate) :
    better (Plan.fewest plans) plan = done (Plan.fewest (plans ++ [plan])) := by
  rw [Plan.fewest_concat]
  cases best : Plan.fewest plans with
  | none => rfl
  | some known =>
    rw [better, counts, allCount known (Plan.fewest_mem best), Value.less?_int]
    by_cases fewer : plan.estimate < known.estimate
    · simp only [fewer, decide_true, if_true]
      rfl
    · simp only [fewer, decide_false, if_false]
      rfl

/-- The joins over the first splits of a part. -/
def candidatesBefore (P : Problem) (xs : List Relation) (i : Nat) : List Plan :=
  (List.range i).map fun j => candidateOf P.est P.order P.table.find? (Split.nth P.order xs j)

theorem better_next (P : Problem) (xs : List Relation) (i : Nat) :
    better (Plan.fewest (P.candidatesBefore xs i))
        (.joined P.est (P.plan (Split.nth P.order xs i).1) (P.plan (Split.nth P.order xs i).2)) =
      done (Plan.fewest (P.candidatesBefore xs (i + 1))) := by
  rw [better_eq rfl (by simp [candidatesBefore, candidateOf, Plan.tuples_joined]),
    candidatesBefore, candidatesBefore, List.range_succ, List.map_append]
  rfl

theorem countedBefore_succ (P : Problem) (xs : List Relation) (i : Nat) :
    P.countedBefore xs (i + 1) = P.countedBefore xs i +
      (P.counted (Split.nth P.order xs i).1 + P.counted (Split.nth P.order xs i).2) := by
  rw [countedBefore, List.range_succ, List.map_append, List.sum_append, countedBefore]
  rfl

/-- The sides of the first splits are known, as far as they have entries. -/
def SidesKnown (P : Problem) (xs : List Relation) (i : Nat) (m : Memo) : Prop :=
  ∀ j < i, ∀ side, side = (Split.nth P.order xs j).1 ∨ side = (Split.nth P.order xs j).2 →
    2 ≤ side.length → m.knows side = true

theorem ends_bestFrom {solve : List Relation → Search Plan} (sub : xs.Sublist P.root)
    (agrees : a.model.Agrees P.est)
    (solves : ∀ side t, side.Sublist xs → side ≠ [] → side.length < xs.length → P.Reached t.memo →
      Ends a (solve side) t (P.Solved a side t) (P.Stopped a))
    (splits i : Nat) (all : i + splits = Split.count P.order xs.length)
    (h : P.Advance a (xs.length - 1) i (P.countedBefore xs i) t t')
    (known : P.SidesKnown xs i t'.memo) :
    Ends a (bestFrom solve P.order xs i splits (Plan.fewest (P.candidatesBefore xs i))) t'
      (fun best t'' => best = Plan.fewest (P.candidatesBefore xs (i + splits)) ∧
        P.Advance a (xs.length - 1) (i + splits) (P.countedBefore xs (i + splits)) t t'' ∧
        P.SidesKnown xs (i + splits) t''.memo) (P.Stopped a) := by
  -- The best plan so far is the fewest of the candidates of the first `i` splits, and both sides of
  -- these splits are known.
  induction splits generalizing i t' with
  | zero => exact ends_done ⟨rfl, h, known⟩
  | succ splits ih =>
    have split : Split.IsSplit (Split.nth P.order xs i) xs := Split.isSplit_nth (by omega)
    rw [bestFrom]
    refine ends_bind ((solves _ t' split.sublist_left split.left_ne_nil split.length_left_lt
      h.reached).mono fun left t₁ ⟨hl, first, knownL⟩ => ?_)
    refine ends_bind ((solves _ t₁ split.sublist_right split.right_ne_nil split.length_right_lt
      first.reached).mono fun right t₂ ⟨hr, second, knownR⟩ => ?_)
    subst hl hr
    refine ends_bind (ends_join agrees (covers (split.sublist_left.trans sub) split.left_ne_nil).2
      (covers (split.sublist_right.trans sub) split.right_ne_nil).2
      (fun refused => ⟨second.reached, fun calm => refused calm.estimates⟩)
      (ends_count (ends_done ?_)))
    rw [better_next, ← Nat.add_assoc, Nat.add_right_comm]
    refine ih (i + 1) (by omega) ?_ ?_
    -- Both sides are shorter than the list, so neither search can have solved the list itself.
    · have small := split.length_left_lt
      have := split.length_right_lt
      have both := (h.trans (first.mono (Nat.le_sub_one_of_lt small))).trans
        (second.mono (Nat.le_sub_one_of_lt this))
      rw [countedBefore_succ, ← Nat.add_assoc]
      exact both.candidate
    · intro j before side is two
      rcases Nat.lt_succ_iff_lt_or_eq.mp before with before | rfl
      · exact second.keeps.isSome (first.keeps.isSome (known j before side is two))
      · rcases is with rfl | rfl
        · exact second.keeps.isSome (knownL two)
        · exact knownR two

theorem fewest_candidatesBefore (many : 3 ≤ xs.length)
    (new : P.table.find? (.ofList xs) = none) :
    Plan.fewest (P.candidatesBefore xs (Split.count P.order xs.length)) = some (P.plan xs) := by
  have all : P.candidatesBefore xs (Split.count P.order xs.length) =
      candidates P.est P.order P.table.find? xs := by
    rw [candidates, Split.all_eq, List.map_map]
    rfl
  rw [all, fewest_candidates new many]
  rfl

theorem tries_many (many : 3 ≤ xs.length) : P.tries xs = Split.count P.order xs.length :=
  if_neg (by omega)

theorem lookUps_many (many : 3 ≤ xs.length) :
    P.lookUps xs = P.countedBefore xs (Split.count P.order xs.length) := if_neg (by omega)

/-- Once all sides are known, every proper part of a part is. -/
theorem SidesKnown.below {m : Memo} (part : P.IsPart xs)
    (h : P.SidesKnown xs (Split.count P.order xs.length) m) {ys : List Relation}
    (sub : ys.Sublist xs) (two : 2 ≤ ys.length) (proper : ys ≠ xs) : m.knows ys = true := by
  have some : ys ≠ [] := fun none => by rw [none] at two; contradiction
  obtain ⟨sides, met, is⟩ :=
    Split.exists_side P.order (P.distinct.sublist part.sublist) sub some proper
  obtain ⟨j, before, rfl⟩ := Split.mem_all.mp met
  exact h j before ys (is.imp Eq.symm Eq.symm) two

/-! ### The recursion -/

theorem ends_bestOf {solve : List Relation → Search Plan} (part : P.IsPart xs)
    (many : 3 ≤ xs.length) (agrees : a.model.Agrees P.est) (reached : P.Reached t.memo)
    (new : P.table.knows xs = false)
    (solves : ∀ side t, side.Sublist xs → side ≠ [] → side.length < xs.length → P.Reached t.memo →
      Ends a (solve side) t (P.Solved a side t) (P.Stopped a)) :
    Ends a (bestOf solve P.order xs) t
      (fun p t' => p = P.plan xs ∧ P.Advance a (xs.length - 1) (P.tries xs) (P.lookUps xs) t t' ∧
        ∀ ys, ys.Sublist xs → 2 ≤ ys.length → ys ≠ xs → t'.memo.knows ys = true) (P.Stopped a) := by
  have loop := ends_bestFrom part.sublist agrees solves (Split.count P.order xs.length) 0
    (Nat.zero_add _) (Advance.refl reached) (fun j before => absurd before (Nat.not_lt_zero j))
  refine ends_bind (loop.mono fun best t' ⟨is, advance, known⟩ => ?_)
  have new : P.table.find? (.ofList xs) = none := by simpa [Memo.knows] using new
  rw [Nat.zero_add] at is advance known
  rw [fewest_candidatesBefore many new] at is
  subst is
  refine ends_done ⟨rfl, ?_, fun ys sub two proper => known.below part sub two proper⟩
  rw [tries_many many, lookUps_many many]
  exact advance

theorem ends_found {p : Plan} (sub : xs.Sublist P.root) (reached : P.Reached t.memo)
    (found : t.memo.find? (.ofList xs) = some p) :
    Ends a (count .memoHit (done p)) t (P.Solved a xs t) (P.Stopped a) := by
  have known : t.memo.knows xs = true := by rw [Memo.knows, found]; rfl
  have counts : P.counted xs = 1 := by
    apply if_neg
    rintro ⟨one, unknown⟩
    rw [reached.knows_one sub one known] at unknown
    contradiction
  refine ends_count (ends_done ⟨reached.eq_plan sub found, ?_, fun _ => known⟩)
  rw [counts]
  exact (Advance.refl reached).memoHit

theorem ends_one {r : Relation} (reached : P.Reached t.memo)
    (new : P.table.find? (.ofList [r]) = none) :
    Ends a (done (.ofRelation r)) t (P.Solved a [r] t) (P.Stopped a) := by
  have counts : P.counted [r] = 0 := if_pos ⟨rfl, by rw [Memo.knows, new]; rfl⟩
  refine ends_done ⟨(planFrom_one new).symm, ?_, fun two => absurd two (by simp)⟩
  rw [counts]
  exact Advance.refl reached

theorem ends_two {left right : Relation} (part : P.IsPart [left, right])
    (same : (IdSet.ofList source).identities = (IdSet.ofList [left, right]).identities)
    (reached : P.Reached t.memo) (agrees : a.model.Agrees P.est)
    (new : P.table.find? (.ofList [left, right]) = none)
    (unknown : t.memo.knows [left, right] = false) :
    Ends a (checkTime ((candidate (.ofRelation left) (.ofRelation right)).bind
      (keep source [left, right]))) t (P.Solved a [left, right] t) (P.Stopped a) := by
  refine ends_checkTime (fun deadline => ⟨reached, fun calm => deadline calm.deadline⟩) ?_
  refine ends_bind (ends_join agrees
    (Plan.isCounted_ofRelation (P.integers left (part.sublist.subset (by simp))))
    (Plan.isCounted_ofRelation (P.integers right (part.sublist.subset (by simp))))
    (fun refused => ⟨reached, fun calm => refused calm.estimates⟩)
    (ends_count (ends_done ?_)))
  rw [← @planFrom_two _ P.order P.table.find? _ _ new]
  refine ends_keep (n := 1) (Advance.refl reached).candidate part Nat.one_lt_two unknown ?_ same
  intro ys inside two proper
  exact absurd (inside.eq_of_length_le two) proper

theorem ends_many {solve : List Relation → Search Plan} (part : P.IsPart xs)
    (many : 3 ≤ xs.length) (same : (IdSet.ofList source).identities = (IdSet.ofList xs).identities)
    (reached : P.Reached t.memo) (agrees : a.model.Agrees P.est)
    (new : P.table.knows xs = false) (unknown : t.memo.knows xs = false)
    (solves : ∀ side t, side.Sublist xs → side ≠ [] → side.length < xs.length → P.Reached t.memo →
      Ends a (solve side) t (P.Solved a side t) (P.Stopped a)) :
    Ends a (checkTime ((bestOf solve P.order xs).bind (keep source xs))) t (P.Solved a xs t)
      (P.Stopped a) := by
  refine ends_checkTime (fun deadline => ⟨reached, fun calm => deadline calm.deadline⟩) ?_
  apply ends_bind
  apply (ends_bestOf part many agrees reached new solves).mono
  rintro p t' ⟨rfl, advance, below⟩
  exact ends_keep advance part (by omega) unknown below same

/-- The recursion solves what it is asked for: what is known it looks up, one relation is a scan, two
relations are a join, and of more relations it solves the sides of all splits first. -/
theorem ends_solveWithin (n : Nat) (sub : xs.Sublist P.root) (some : xs ≠ []) (le : xs.length ≤ n)
    (same : (IdSet.ofList source).identities = (IdSet.ofList xs).identities)
    (reached : P.Reached t.memo) (agrees : a.model.Agrees P.est) :
    Ends a (solveWithin P.order n source xs) t (P.Solved a xs t) (P.Stopped a) := by
  induction n generalizing xs source t with
  | zero => exact absurd (List.eq_nil_of_length_eq_zero (Nat.le_zero.mp le)) some
  | succ n ih =>
    apply ends_consult
    cases found : t.memo.find? (.ofList xs) with
    | some p => exact ends_found sub reached found
    | none =>
      have unknown : t.memo.knows xs = false := by rw [Memo.knows, found]; rfl
      -- Tables only grow, so what is unknown now was unknown at the start.
      have new : P.table.find? (.ofList xs) = none := by
        by_contra known
        obtain ⟨p, known⟩ := Option.ne_none_iff_exists'.mp known
        rw [reached.keeps _ _ known] at found
        contradiction
      rcases xs with _ | ⟨x, _ | ⟨y, _ | ⟨z, rest⟩⟩⟩
      · exact absurd rfl some
      · exact ends_one reached new
      · exact ends_two ⟨sub, le_rfl⟩ same reached agrees new unknown
      · apply ends_many ⟨sub, by simp⟩ (by simp) same reached agrees
          (by rw [Memo.knows, new]; rfl) unknown
        intro side t inside some less reached
        exact ih (inside.trans sub) some (by omega) rfl reached

/-! ### Finished tables -/

structure Finished (P : Problem) (m : Memo) : Prop where
  reached : P.Reached m
  all : ∀ xs, P.IsPart xs → m.knows xs = true

theorem finished_of_solved {p : Plan} (h : P.Solved a P.root t p t') (two : 2 ≤ P.root.length)
    (new : P.table.knows P.root = false) : P.Finished t'.memo :=
  ⟨h.advance.reached, fun xs part => h.advance.reached.closed P.root xs ⟨.refl _, two⟩ new
    (h.known two) part.sublist part.two⟩

theorem told_of_solved {e : Effort} {p : Plan} (h : P.Solved a P.root ⟨P.table, e⟩ p t')
    (two : 2 ≤ P.root.length) (new : P.table.knows P.root = false) : P.Told a :=
  fun xs part unknown =>
    (h.advance.told xs part unknown ((finished_of_solved h two new).all xs part)).2

/-- Finished tables know the same plans, whatever the order in which they were found. -/
theorem Finished.find?_eq {m m' : Memo} (h : P.Finished m) (h' : P.Finished m') (K : RelationSet) :
    m.find? K = m'.find? K := by
  have within {m m' : Memo} (h : P.Finished m) (h' : P.Finished m') (p : Plan)
      (found : m.find? K = some p) : m'.find? K = some p := by
    cases old : P.table.find? K with
    | some q =>
      rw [h.reached.keeps K q old] at found
      rw [h'.reached.keeps K q old, found]
    | none =>
      obtain ⟨xs, part, same, rfl⟩ := h.reached.fresh K p old found
      obtain ⟨q, known⟩ := Option.isSome_iff_exists.mp (h'.all xs part)
      rw [Memo.find?_congr same, known, h'.reached.eq_plan part.sublist known]
  cases found : m.find? K with
  | some p => exact (within h h' p found).symm
  | none =>
    cases found' : m'.find? K with
    | none => rfl
    | some p => rw [within h' h p found'] at found; contradiction

/-- What the account says after a finished search does not depend on the way there. -/
theorem Advance.finished {e : Effort} (h : P.Advance a n c l ⟨P.table, e⟩ t)
    (finished : P.Finished t.memo) :
    t.effort.subproblems = e.subproblems + P.outstanding (fun _ => 1) P.table ∧
      t.effort.candidates = e.candidates + P.outstanding P.tries P.table + c ∧
      t.effort.memoHits + t.effort.subproblems =
        e.memoHits + e.subproblems + P.outstanding P.lookUps P.table + l := by
  -- Nothing is outstanding any more.
  have none (work : List Relation → Nat) := outstanding_eq_zero work finished.all
  have sub := h.subproblems
  have cand := h.candidates
  have look := h.lookUps
  rw [none] at sub cand look
  exact ⟨sub, cand, look⟩

end Problem

end JoinOrder
