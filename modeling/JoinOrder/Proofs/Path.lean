import JoinOrder.Proofs.Solving
/-!
The tasks of a layer. Once all smaller parts are known, the answers to all requests of a task are
settled, as long as nobody else solves its part. So a task takes one path, which does not depend on
what is done between its turns: it looks up the sides of all splits, keeps one plan, and tells about
it.
-/

namespace JoinOrder

namespace Effort

instance : Add Effort :=
  ⟨fun e f => ⟨e.subproblems + f.subproblems, e.candidates + f.candidates, e.memoHits + f.memoHits⟩⟩

variable {e f g : Effort} {work : Work}

theorem ext_iff : e = f ↔
    e.subproblems = f.subproblems ∧ e.candidates = f.candidates ∧ e.memoHits = f.memoHits := by
  cases e
  cases f
  exact iff_of_eq (mk.injEq ..)

@[simp] theorem subproblems_add : (e + f).subproblems = e.subproblems + f.subproblems := rfl

@[simp] theorem candidates_add : (e + f).candidates = e.candidates + f.candidates := rfl

@[simp] theorem memoHits_add : (e + f).memoHits = e.memoHits + f.memoHits := rfl

theorem zero_add (e : Effort) : zero + e = e := by
  simp [ext_iff, zero]

theorem add_work (e f : Effort) (work : Work) : e.add work + f = (e + f).add work := by
  cases work <;> simp [ext_iff, add, Nat.add_right_comm]

end Effort

namespace Problem

open Search

variable (P : Problem)

/-- All smaller parts are known. -/
structure Stage (n : Nat) (m : Memo) : Prop where
  reached : P.Reached m
  below : ∀ xs, P.IsPart xs → xs.length < n → m.knows xs = true

/-- How far a task has come. -/
inductive Phase where
  | searching
  | kept
  | told

/-- The path of a task from one phase to another, with the work and the number of turns it takes. -/
inductive Path (xs : List Relation) {α : Type} (v : α) (last : Phase) :
    Phase → Effort → Nat → Search α → Prop
  | done : Path xs v last last .zero 0 (done v)
  | consult {K : RelationSet} {next : Option Plan → Search α} {e : Effort} {k : Nat}
      (answer : Option Plan)
      (settled : ∀ m, P.Stage xs.length m → m.knows xs = false → m.find? K = answer)
      (rest : Path xs v last .searching e k (next answer)) :
      Path xs v last .searching e (k + 1) (consult K next)
  | checkTime {next : Search α} {phase : Phase} {e : Effort} {k : Nat}
      (rest : Path xs v last phase e k next) : Path xs v last phase e (k + 1) (checkTime next)
  | join {left right : Plan} {next : Plan → Search α} {phase : Phase} {e : Effort} {k : Nat}
      (hl : left.IsCounted) (hr : right.IsCounted)
      (rest : Path xs v last phase e k (next (.joined P.est left right))) :
      Path xs v last phase e (k + 1) (join left right next)
  | count {work : Work} {next : Search α} {phase : Phase} {e : Effort} {k : Nat}
      (rest : Path xs v last phase e k next) :
      Path xs v last phase (e.add work) (k + 1) (count work next)
  | record {next : Search α} {e : Effort} {k : Nat} (rest : Path xs v last .kept e k next) :
      Path xs v last .searching e (k + 1) (record xs (P.plan xs) next)
  | report {next : Search α} {e : Effort} {k : Nat} (rest : Path xs v last .told e k next) :
      Path xs v last .kept e (k + 1) (report (.solved xs (P.plan xs)) next)

variable {P} {a : Answerer} {xs side : List Relation} {α β : Type}

theorem Path.bind {v : α} {w : β} {middle last phase : Phase} {e e' : Effort} {k k' : Nat}
    {x : Search α} {f : α → Search β} (h : P.Path xs v middle phase e k x)
    (h' : P.Path xs w last middle e' k' (f v)) :
    P.Path xs w last phase (e + e') (k + k') (x.bind f) := by
  induction h with
  | done =>
    rw [Effort.zero_add, Nat.zero_add]
    exact h'
  | consult _ settled _ ih => rw [Nat.add_right_comm]; exact .consult _ settled ih
  | checkTime _ ih => rw [Nat.add_right_comm]; exact .checkTime ih
  | join hl hr _ ih => rw [Nat.add_right_comm]; exact .join hl hr ih
  | count _ ih => rw [Nat.add_right_comm, Effort.add_work]; exact .count ih
  | record _ ih => rw [Nat.add_right_comm]; exact .record ih
  | report _ ih => rw [Nat.add_right_comm]; exact .report ih

/-! ### The path of a task -/

theorem path_side {n : Nat} (part : P.IsPart xs) (sub : side.Sublist xs) (some : side ≠ [])
    (small : side.length < xs.length) (le : side.length ≤ n) :
    ∃ k, P.Path xs (P.plan side) .searching .searching ⟨0, 0, P.counted side⟩ k
      (solveWithin P.order n side side) := by
  have inRoot := sub.trans part.sublist
  obtain ⟨n, rfl⟩ : ∃ l, n = l + 1 := ⟨n - 1, by have := List.length_pos_iff.mpr some; omega⟩
  by_cases unknown : side.length = 1 ∧ P.table.knows side = false
  · obtain ⟨r, rfl⟩ := List.length_eq_one_iff.mp unknown.1
    have new : P.table.find? (.ofList [r]) = none := by simpa [Memo.knows] using unknown.2
    rw [counted, if_pos unknown, plan, planFrom_one new]
    have leaf : P.Path xs (Plan.ofRelation r) .searching .searching .zero 0
        (done (.ofRelation r)) := .done
    refine ⟨1, .consult none (fun m stage _ => ?_) leaf⟩
    by_contra found
    -- No search keeps a plan for a single relation, so none can turn up later.
    have known : m.knows [r] = true := Option.isSome_iff_ne_none.mpr found
    rw [stage.reached.knows_one inRoot rfl known] at unknown
    exact absurd unknown.2 (by simp)
  -- The side is known: it was from the start, or an earlier stage has solved it.
  · rw [counted, if_neg unknown]
    have hit : P.Path xs (P.plan side) .searching .searching (Effort.zero.add .memoHit) 1
        (count .memoHit (done (P.plan side))) := .count .done
    refine ⟨2, .consult (P.plan side) (fun m stage _ => ?_) hit⟩
    have known : m.knows side = true := by
      rcases Nat.lt_or_ge side.length 2 with few | two
      · have one : side.length = 1 := by have := List.length_pos_iff.mpr some; omega
        have old : P.table.knows side = true := by simpa [one] using unknown
        exact stage.reached.keeps.isSome old
      · exact stage.below side ⟨inRoot, two⟩ small
    obtain ⟨p, found⟩ := Option.isSome_iff_exists.mp known
    rw [found, stage.reached.eq_plan inRoot found]

theorem path_bestFrom {n : Nat} (part : P.IsPart xs) (le : xs.length ≤ n + 1) (splits i : Nat)
    (all : i + splits = Split.count P.order xs.length) :
    ∃ hits k, P.countedBefore xs (i + splits) = P.countedBefore xs i + hits ∧
      P.Path xs (Plan.fewest (P.candidatesBefore xs (i + splits))) .searching .searching
        ⟨0, splits, hits⟩ k
        (bestFrom (fun side => solveWithin P.order n side side) P.order xs i splits
          (Plan.fewest (P.candidatesBefore xs i))) := by
  induction splits generalizing i with
  | zero => exact ⟨0, 0, rfl, .done⟩
  | succ splits ih =>
    have split : Split.IsSplit (Split.nth P.order xs i) xs := Split.isSplit_nth (by omega)
    have lessL := split.length_left_lt
    have lessR := split.length_right_lt
    obtain ⟨kl, left⟩ := path_side part split.sublist_left split.left_ne_nil lessL
      (show _ ≤ n by omega)
    obtain ⟨kr, right⟩ := path_side part split.sublist_right split.right_ne_nil lessR
      (show _ ≤ n by omega)
    obtain ⟨hits, k, counts, others⟩ := ih (i + 1) (by omega)
    have join : P.Path xs (.joined P.est (P.plan (Split.nth P.order xs i).1)
        (P.plan (Split.nth P.order xs i).2)) .searching .searching (Effort.zero.add .candidate) 2
        (candidate (P.plan (Split.nth P.order xs i).1) (P.plan (Split.nth P.order xs i).2)) :=
      .join (covers (split.sublist_left.trans part.sublist) split.left_ne_nil).2
        (covers (split.sublist_right.trans part.sublist) split.right_ne_nil).2 (.count .done)
    have rest : P.Path xs (Plan.fewest (P.candidatesBefore xs (i + (splits + 1))))
        .searching .searching ⟨0, splits, hits⟩ k
        ((better (Plan.fewest (P.candidatesBefore xs i))
          (.joined P.est (P.plan (Split.nth P.order xs i).1)
            (P.plan (Split.nth P.order xs i).2))).bind fun best =>
              bestFrom (fun side => solveWithin P.order n side side) P.order xs (i + 1) splits
                best) := by
      rw [better_next, ← Nat.add_assoc, Nat.add_right_comm]
      exact others
    refine ⟨P.counted (Split.nth P.order xs i).1 + (P.counted (Split.nth P.order xs i).2 + hits),
      kl + (kr + (2 + k)), ?_, ?_⟩
    · have counts' := P.countedBefore_succ xs i
      rw [← Nat.add_assoc, Nat.add_right_comm, counts, counts']
      omega
    · have work : (⟨0, splits + 1, P.counted (Split.nth P.order xs i).1 +
          (P.counted (Split.nth P.order xs i).2 + hits)⟩ : Effort) =
            ⟨0, 0, P.counted (Split.nth P.order xs i).1⟩ +
              (⟨0, 0, P.counted (Split.nth P.order xs i).2⟩ +
                (Effort.zero.add .candidate + ⟨0, splits, hits⟩)) := by
        simp [Effort.ext_iff, Effort.add, Effort.zero, Nat.add_comm]
      rw [work]
      exact left.bind (right.bind (join.bind rest))

theorem path_keep (xs : List Relation) :
    P.Path xs (P.plan xs) .told .searching (Effort.zero.add .subproblem) 3
      (Search.keep xs xs (P.plan xs)) :=
  .record (.count (.report .done))

/-- The path of a task that solves a part. -/
theorem path_solve (part : P.IsPart xs) (unknown : P.table.knows xs = false) :
    ∃ k, P.Path xs (P.plan xs) .told .searching ⟨1, P.tries xs, P.lookUps xs⟩ k
      (Search.solve P.order xs xs) := by
  have new : P.table.find? (.ofList xs) = none := by simpa [Memo.knows] using unknown
  have unsolved (m : Memo) (free : m.knows xs = false) : m.find? (.ofList xs) = none := by
    simpa [Memo.knows] using free
  rcases xs with _ | ⟨x, _ | ⟨y, _ | ⟨z, rest⟩⟩⟩
  · exact absurd rfl part.ne_nil
  · exact absurd part.two (by simp)
  · have join : P.Path [x, y] (P.plan [x, y]) .searching .searching
        (Effort.zero.add .candidate) 2
        (candidate (.ofRelation x) (.ofRelation y)) := by
      rw [plan, planFrom_two new]
      exact .join (Plan.isCounted_ofRelation (P.integers x (part.sublist.subset (by simp))))
        (Plan.isCounted_ofRelation (P.integers y (part.sublist.subset (by simp))))
        (.count .done)
    have whole := join.bind (path_keep [x, y])
    exact ⟨_, .consult none (fun m _ free => unsolved m free) (.checkTime whole)⟩
  · obtain ⟨hits, k, counts, splits⟩ := path_bestFrom part (Nat.le_refl (rest.length + 3))
      (Split.count P.order (x :: y :: z :: rest).length) 0 (Nat.zero_add _)
    rw [Nat.zero_add] at counts splits
    rw [fewest_candidatesBefore (by simp) new] at splits
    have work : (⟨1, P.tries (x :: y :: z :: rest), P.lookUps (x :: y :: z :: rest)⟩ : Effort) =
        ⟨0, Split.count P.order (x :: y :: z :: rest).length, hits⟩ + .zero +
          Effort.zero.add .subproblem := by
      have none : P.countedBefore (x :: y :: z :: rest) 0 = 0 := rfl
      rw [tries_many (by simp), lookUps_many (by simp), counts, none]
      simp [Effort.ext_iff, Effort.add, Effort.zero]
    rw [work]
    have best : P.Path (x :: y :: z :: rest) (P.plan (x :: y :: z :: rest)) .searching .searching
        (⟨0, Split.count P.order (x :: y :: z :: rest).length, hits⟩ + .zero) (k + 0)
        (bestOf (fun side => solveWithin P.order (rest.length + 2) side side) P.order
          (x :: y :: z :: rest)) := splits.bind .done
    exact ⟨_, .consult none (fun m _ free => unsolved m free)
      (.checkTime (best.bind (path_keep (x :: y :: z :: rest))))⟩

/-! ### One turn -/

/-- What a task does to the table and to the account when its turn is granted. -/
structure Turn (P : Problem) (a : Answerer) (xs : List Relation) (t t' : Standing)
    (phase phase' : Phase) (e e' : Effort) : Prop where
  effort : t'.effort + e' = t.effort + e
  memo : t'.memo = t.memo ∧ (phase' = .searching ↔ phase = .searching) ∨
    phase = .searching ∧ phase' = .kept ∧ t'.memo = t.memo.withPlan xs (P.plan xs)
  told : phase' = .told → phase = .told ∨ a.Tells (.solved xs (P.plan xs))

variable {t : Standing} {v : α} {last phase : Phase} {e : Effort} {k : Nat} {x : Search α}

theorem Turn.stay : P.Turn a xs t t phase phase e e := ⟨rfl, .inl ⟨rfl, .rfl⟩, .inl⟩

/-- A path ends in its result, or else its next turn leads on along it. -/
theorem Path.step (h : P.Path xs v last phase e k x) (part : P.IsPart xs)
    (old : P.table.knows xs = false) (agrees : a.model.Agrees P.est) (stage : P.Stage xs.length t.memo)
    (free : phase = .searching → t.memo.knows xs = false) :
    (x = .done v ∧ phase = last ∧ e = .zero ∧ k = 0) ∨
      ∃ next t' phase' e' k' granted refused, StepsTo a x t next t' granted refused ∧
        (refused → ¬ P.Calm a) ∧ P.Path xs v last phase' e' k' next ∧ k = k' + 1 ∧
        (granted → P.Turn a xs t t' phase phase' e e') := by
  cases h with
  | done => exact .inl ⟨rfl, rfl, rfl, rfl⟩
  | consult answer settled rest =>
    rw [← settled t.memo stage (free rfl)] at rest
    exact .inr ⟨_, t, _, _, _, _, _, stepsTo_consult, False.elim, rest, rfl, fun _ => .stay⟩
  | checkTime rest =>
    exact .inr ⟨_, t, _, _, _, _, _, stepsTo_checkTime, fun late calm => late calm.deadline, rest,
      rfl, fun _ => .stay⟩
  | join hl hr rest =>
    exact .inr ⟨_, t, _, _, _, _, _, stepsTo_join agrees hl hr,
      fun refused calm => refused calm.estimates, rest, rfl, fun _ => .stay⟩
  | @count work next _ e k rest =>
    refine .inr ⟨_, _, _, _, _, _, _, stepsTo_count, False.elim, rest, rfl, fun _ =>
      ⟨?_, .inl ⟨rfl, .rfl⟩, .inl⟩⟩
    cases work <;> simp [Effort.ext_iff, Effort.add, Standing.count] <;> omega
  | record rest =>
    exact .inr ⟨_, _, _, _, _, _, _, stepsTo_record (covers part.sublist part.ne_nil).1,
      False.elim, rest, rfl,
      fun _ => ⟨rfl, .inr ⟨rfl, rfl, rfl⟩, by simp⟩⟩
  | report rest =>
    exact .inr ⟨_, t, _, _, _, _, _, stepsTo_report,
      fun untold calm => untold (calm.told xs part old), rest, rfl,
      fun told => ⟨rfl, .inl ⟨rfl, by simp⟩, fun _ => .inr told⟩⟩

end Problem

end JoinOrder
