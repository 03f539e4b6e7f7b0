import JoinOrder.Proofs.Path
import JoinOrder.Proofs.Turns
/-!
Pools of tasks that solve the parts of a layer. Every turn keeps each task on its path and leaves the
parts of other tasks alone, so that whatever the schedule, a pool that is done has solved each of its
parts once.
-/

namespace JoinOrder

namespace Problem

open Search

variable (P : Problem)

/-- The work that solving a part adds to the account. -/
def effortOf (xs : List Relation) : Effort := ⟨1, P.tries xs, P.lookUps xs⟩

/-- The work on all parts that are not known yet. -/
def due (m : Memo) : Effort :=
  ⟨P.outstanding (fun _ => 1) m, P.outstanding P.tries m, P.outstanding P.lookUps m⟩

/-- What is due for the part of a task: everything, as long as its plan is not kept. -/
def dueIn (xs : List Relation) : Phase → Effort
  | .searching => P.effortOf xs
  | .kept | .told => .zero

theorem dueIn_congr {P : Problem} {xs : List Relation} {phase phase' : Phase}
    (same : phase' = .searching ↔ phase = .searching) : P.dueIn xs phase' = P.dueIn xs phase := by
  cases phase <;> cases phase' <;> simp [dueIn] at same ⊢

/-- The tasks of a pool are each on the path of a part, or have failed. The numbers are the work ahead
of all tasks, the work that is due for their parts, and the turns that each of them needs. -/
inductive Pool (a : Answerer) (m : Memo) :
    List (List Relation) → Effort → Effort → List Nat → List (Search Plan) → Prop
  | nil : Pool a m [] .zero .zero [] []
  | pending {xs : List Relation} {phase : Phase} {e : Effort} {k : Nat} {x : Search Plan}
      {layer : List (List Relation)} {ahead left : Effort} {turns : List Nat}
      {pool : List (Search Plan)} (path : P.Path xs (P.plan xs) .told phase e k x)
      (free : phase = .searching ↔ m.knows xs = false)
      (told : phase = .told → a.Tells (.solved xs (P.plan xs)))
      (rest : Pool a m layer ahead left turns pool) :
      Pool a m (xs :: layer) (e + ahead) (P.dueIn xs phase + left) (k :: turns) (x :: pool)
  | failed {xs : List Relation} {e d : Effort} {k : Nat} {error : Error}
      {layer : List (List Relation)} {ahead left : Effort} {turns : List Nat}
      {pool : List (Search Plan)} (stopped : ¬ P.Calm a)
      (rest : Pool a m layer ahead left turns pool) :
      Pool a m (xs :: layer) (e + ahead) (d + left) (k :: turns) (fail error :: pool)

variable {P} {a : Answerer} {m m' : Memo} {xs : List Relation} {layer : List (List Relation)}
  {ahead left : Effort} {turns : List Nat} {pool : List (Search Plan)} {n : Nat}

theorem Pool.congr (h : P.Pool a m layer ahead left turns pool)
    (same : ∀ xs ∈ layer, m'.knows xs = m.knows xs) : P.Pool a m' layer ahead left turns pool := by
  induction h with
  | nil => exact .nil
  | pending path free told _ ih =>
    refine .pending path ?_ told (ih fun xs member => same xs (List.mem_cons_of_mem _ member))
    rw [same _ List.mem_cons_self]
    exact free
  | failed stopped _ ih =>
    exact .failed stopped (ih fun xs member => same xs (List.mem_cons_of_mem _ member))

theorem due_withPlan {p : Plan} (part : P.IsPart xs) (new : m.knows xs = false) :
    P.due m = P.effortOf xs + P.due (m.withPlan xs p) := by
  simp only [Effort.ext_iff, due, effortOf, Effort.subproblems_add, Effort.candidates_add,
    Effort.memoHits_add]
  exact ⟨outstanding_withPlan _ part new rfl part.ne_nil,
    outstanding_withPlan _ part new rfl part.ne_nil,
    outstanding_withPlan _ part new rfl part.ne_nil⟩

theorem Stage.withPlan (stage : P.Stage n m) (part : P.IsPart xs) (length : xs.length = n)
    (new : m.knows xs = false) : P.Stage n (m.withPlan xs (P.plan xs)) where
  reached := reached_withPlan stage.reached part new
    (fun ys sub two proper => stage.below ys ⟨sub.trans part.sublist, two⟩
      (length ▸ Nat.lt_of_le_of_ne sub.length_le fun same => proper (sub.eq_of_length same)))
    rfl part.ne_nil
  below := fun ys inside small =>
    (knows_withPlan part inside.sublist rfl part.ne_nil).mpr (.inr (stage.below ys inside small))

/-- What a turn of a pool keeps: nothing but the parts of the pool is touched, and the work ahead goes
over into the account. -/
structure Pool.Kept (P : Problem) (a : Answerer) (layer : List (List Relation)) (n : Nat)
    (t t' : Standing) (ahead left ahead' left' : Effort) : Prop where
  stage : P.Stage n t'.memo
  others : ∀ xs, P.IsPart xs → xs ∉ layer → t'.memo.knows xs = t.memo.knows xs
  balance : t'.effort + ahead' + P.due t'.memo + left = t.effort + ahead + P.due t.memo + left'

/-- Tasks that do not have their turn bring nothing new to the balance. -/
theorem Pool.Kept.cons {t t' : Standing} {ahead' left' e d : Effort}
    (h : Pool.Kept P a layer n t t' ahead left ahead' left') :
    Pool.Kept P a (xs :: layer) n t t' (e + ahead) (d + left) (e + ahead') (d + left') where
  stage := h.stage
  others := fun ys inside outside =>
    h.others ys inside fun member => outside (List.mem_cons_of_mem xs member)
  balance := by
    have balance := h.balance
    simp only [Effort.ext_iff, Effort.subproblems_add, Effort.candidates_add,
      Effort.memoHits_add] at balance ⊢
    omega

theorem knows_others {p : Plan} (part : P.IsPart xs) {ys : List Relation} (inside : P.IsPart ys)
    (different : ys ≠ xs) : (m.withPlan xs p).knows ys = m.knows ys :=
  Bool.eq_iff_iff.mpr ((knows_withPlan part inside.sublist rfl part.ne_nil).trans
    (or_iff_right different))

theorem Pool.turn_first {s : State} {phase : Phase} {e : Effort} {k : Nat} {x : Search Plan}
    (agrees : a.model.Agrees P.est) (stage : P.Stage n s.memo) (part : P.IsPart xs)
    (length : xs.length = n) (old : P.table.knows xs = false) (fresh : xs ∉ layer)
    (parts : ∀ ys ∈ layer, P.IsPart ys)
    (path : P.Path xs (P.plan xs) .told phase e k x)
    (free : phase = .searching ↔ s.memo.knows xs = false)
    (told : phase = .told → a.Tells (.solved xs (P.plan xs)))
    (rest : P.Pool a s.memo layer ahead left turns pool) :
    ∃ ahead' left', P.Pool a (step a x s).2.memo (xs :: layer) ahead' left' ((k - 1) :: turns)
        ((step a x s).1 :: pool) ∧
      Pool.Kept P a (xs :: layer) n s.standing (step a x s).2.standing (e + ahead)
        (P.dueIn xs phase + left) ahead' left' := by
  rcases path.step (t := s.standing) part old agrees (length ▸ stage) free.mp with
    ⟨rfl, rfl, rfl, rfl⟩ | ⟨next, t', phase', e', k', granted, refused, steps, stop, path', rfl, turn⟩
  · exact ⟨_, _, .pending path free told rest, stage, fun _ _ _ => rfl, rfl⟩
  · rcases steps s rfl with ⟨search, standing, given⟩ | ⟨⟨error, search⟩, standing, denied⟩
    · have turn := turn given
      subst standing
      rw [search]
      have told' : phase' = .told → a.Tells (.solved xs (P.plan xs)) := fun last =>
        (turn.told last).elim told id
      have effort := Effort.ext_iff.mp turn.effort
      rcases turn.memo with ⟨memo, phases⟩ | ⟨rfl, rfl, memo⟩
      · have memo : (step a x s).2.memo = s.memo := memo
        have known : phase' = .searching ↔ (step a x s).2.memo.knows xs = false := by
          rw [memo]
          exact phases.trans free
        have stage : P.Stage n (step a x s).2.memo := by
          rw [memo]
          exact stage
        refine ⟨_, _, .pending path' known told' (memo ▸ rest), stage, fun ys _ _ =>
          congrArg (Memo.knows · ys) memo, ?_⟩
        have due : P.due (step a x s).2.standing.memo = P.due s.standing.memo :=
          congrArg P.due memo
        rw [due, dueIn_congr phases]
        simp only [Effort.ext_iff, Effort.subproblems_add, Effort.candidates_add,
          Effort.memoHits_add] at effort ⊢
        omega
      -- The task keeps the plan of its part, whose work is no longer due.
      · have memo : (step a x s).2.memo = s.memo.withPlan xs (P.plan xs) := memo
        have new : s.memo.knows xs = false := free.mp rfl
        have known : (step a x s).2.memo.knows xs = true := by
          rw [memo]
          exact (knows_withPlan part part.sublist rfl part.ne_nil).mpr (.inl rfl)
        have others (ys : List Relation) (inside : P.IsPart ys) (different : ys ≠ xs) :
            (step a x s).2.memo.knows ys = s.memo.knows ys := by
          rw [memo]
          exact knows_others part inside different
        have rest := rest.congr fun ys member =>
          others ys (parts ys member) fun same => fresh (same ▸ member)
        have stage : P.Stage n (step a x s).2.memo := by
          rw [memo]
          exact stage.withPlan part length new
        refine ⟨_, _, .pending path' (by simp [known]) told' rest, stage, fun ys inside outside =>
          others ys inside fun same => outside (same ▸ List.mem_cons_self), ?_⟩
        have due : P.due s.standing.memo =
            P.effortOf xs + P.due (step a x s).2.standing.memo := by
          rw [show (step a x s).2.standing.memo = _ from memo]
          exact due_withPlan part new
        rw [due]
        simp only [Effort.ext_iff, Effort.subproblems_add, Effort.candidates_add,
          Effort.memoHits_add, dueIn, Effort.zero] at effort ⊢
        omega
    · rw [search]
      have memo : (step a x s).2.memo = s.memo := congrArg Standing.memo standing
      refine ⟨e + ahead, P.dueIn xs phase + left, .failed (stop denied) (memo ▸ rest), ?_⟩
      rw [standing]
      exact ⟨stage, fun _ _ _ => rfl, rfl⟩

theorem Pool.turn {s : State} (agrees : a.model.Agrees P.est)
    (h : P.Pool a s.memo layer ahead left turns pool) (nodup : layer.Nodup)
    (parts : ∀ xs ∈ layer, P.IsPart xs ∧ xs.length = n ∧ P.table.knows xs = false)
    (stage : P.Stage n s.memo) {i : Nat}
    {x : Search Plan} (whose : pool[i]? = some x) :
    ∃ ahead' left', P.Pool a (step a x s).2.memo layer ahead' left' (turns.modify i (· - 1))
        (pool.set i (step a x s).1) ∧
      Pool.Kept P a layer n s.standing (step a x s).2.standing ahead left ahead' left' := by
  induction h generalizing i with
  | nil => simp at whose
  | @pending xs phase e k y layer ahead left turns pool path free told rest ih =>
    have ⟨fresh, nodup⟩ := List.nodup_cons.mp nodup
    have ⟨part, length, old⟩ := parts xs List.mem_cons_self
    have partsRest := fun ys member => parts ys (List.mem_cons_of_mem xs member)
    cases i with
    | zero =>
      cases whose
      exact turn_first agrees stage part length old fresh (fun ys member => (partsRest ys member).1)
        path free told rest
    | succ i =>
      -- The turn goes to another task, which leaves the part of this one alone.
      obtain ⟨ahead', left', rest', kept⟩ := ih nodup partsRest whose
      have alone : (step a x s).2.memo.knows xs = s.memo.knows xs := kept.others xs part fresh
      refine ⟨e + ahead', P.dueIn xs phase + left', .pending path (by rw [alone]; exact free) told
        rest', kept.cons⟩
  | @failed xs e d k error layer ahead left turns pool stopped rest ih =>
    have ⟨fresh, nodup⟩ := List.nodup_cons.mp nodup
    cases i with
    | zero =>
      cases whose
      exact ⟨_, _, .failed stopped rest, stage, fun _ _ _ => rfl, rfl⟩
    | succ i =>
      obtain ⟨ahead', left', rest', kept⟩ :=
        ih nodup (fun ys member => parts ys (List.mem_cons_of_mem xs member)) whose
      exact ⟨e + ahead', d + left', .failed stopped rest', kept.cons⟩

/-! ### All turns of a schedule -/

theorem Pool.Kept.refl {t : Standing} (stage : P.Stage n t.memo) :
    Pool.Kept P a layer n t t ahead left ahead left := ⟨stage, fun _ _ _ => rfl, rfl⟩

theorem Pool.Kept.trans {t₁ t₂ t₃ : Standing} {ahead₁ left₁ ahead₂ left₂ ahead₃ left₃ : Effort}
    (h : Pool.Kept P a layer n t₁ t₂ ahead₁ left₁ ahead₂ left₂)
    (h' : Pool.Kept P a layer n t₂ t₃ ahead₂ left₂ ahead₃ left₃) :
    Pool.Kept P a layer n t₁ t₃ ahead₁ left₁ ahead₃ left₃ where
  stage := h'.stage
  others := fun xs inside outside => (h'.others xs inside outside).trans (h.others xs inside outside)
  balance := by
    have first := h.balance
    have second := h'.balance
    simp only [Effort.ext_iff, Effort.subproblems_add, Effort.candidates_add,
      Effort.memoHits_add] at first second ⊢
    omega

theorem Pool.length_eq (h : P.Pool a m layer ahead left turns pool) :
    turns.length = pool.length := by
  induction h with
  | nil => rfl
  | pending _ _ _ _ ih | failed _ _ ih => simp [ih]

/-- The turns that are still needed after those of a schedule. -/
def turnsAfter (schedule turns : List Nat) : List Nat :=
  schedule.foldl (fun turns i => turns.modify i (· - 1)) turns

theorem getElem?_turnsAfter (schedule turns : List Nat) (i : Nat) :
    (turnsAfter schedule turns)[i]? = turns[i]?.map (· - schedule.count i) := by
  induction schedule generalizing turns with
  | nil => simp [turnsAfter]
  | cons j schedule ih =>
    rw [turnsAfter, List.foldl_cons, ← turnsAfter, ih, List.getElem?_modify, List.count_cons]
    by_cases same : j = i
    · cases turns[i]? with
      | none => simp
      | some k =>
        simp [same]
        omega
    · simp [same]

/-- Whatever the schedule, the tasks of a pool stay on their paths. -/
theorem Pool.takeTurns {s : State} (agrees : a.model.Agrees P.est)
    (h : P.Pool a s.memo layer ahead left turns pool) (nodup : layer.Nodup)
    (parts : ∀ xs ∈ layer, P.IsPart xs ∧ xs.length = n ∧ P.table.knows xs = false)
    (stage : P.Stage n s.memo) (schedule : List Nat) :
    ∃ ahead' left', P.Pool a (Search.takeTurns a schedule pool s).2.memo layer ahead' left'
        (turnsAfter schedule turns) (Search.takeTurns a schedule pool s).1 ∧
      Pool.Kept P a layer n s.standing (Search.takeTurns a schedule pool s).2.standing ahead left ahead'
        left' := by
  induction schedule generalizing ahead left turns pool s with
  | nil => exact ⟨ahead, left, h, .refl stage⟩
  | cons i schedule ih =>
    rw [Search.takeTurns]
    cases whose : pool[i]? with
    | none =>
      -- The turn goes to nobody.
      have outside : turns.modify i (· - 1) = turns := by
        have := List.getElem?_eq_none_iff.mp whose
        exact List.modify_eq_self (by rw [h.length_eq]; exact this)
      rw [turnsAfter, List.foldl_cons, outside]
      exact ih h stage
    | some x =>
      obtain ⟨ahead₁, left₁, h₁, kept₁⟩ := h.turn agrees nodup parts stage whose
      obtain ⟨ahead₂, left₂, h₂, kept₂⟩ := ih h₁ kept₁.stage
      exact ⟨ahead₂, left₂, h₂, kept₁.trans kept₂⟩

/-! ### What a pool has come to -/

theorem Pool.done (h : P.Pool a m layer ahead left turns pool)
    (ok : outcome pool = some (.ok ())) : ahead = .zero ∧ left = .zero ∧
      ∀ xs ∈ layer, m.knows xs = true ∧ a.Tells (.solved xs (P.plan xs)) := by
  induction h with
  | nil => exact ⟨rfl, rfl, by simp⟩
  | failed => exact nomatch ok
  | pending path free told _ ih =>
    obtain ⟨⟨v, rfl⟩, ok⟩ := outcome_cons_ok ok
    obtain ⟨rfl, rfl, rest⟩ := ih ok
    cases path
    refine ⟨rfl, rfl, fun xs member => ?_⟩
    rcases List.mem_cons.mp member with rfl | member
    · exact ⟨by simpa using free, told rfl⟩
    · exact rest xs member

theorem Pool.not_calm {e : Error} (h : P.Pool a m layer ahead left turns pool)
    (failed : outcome pool = some (.error e)) : ¬ P.Calm a := by
  induction h with
  | nil => exact nomatch failed
  | failed stopped => exact stopped
  | pending path _ _ _ ih =>
    rcases outcome_cons_error failed with rfl | failed
    · exact nomatch path
    · exact ih failed

/-- Tasks of a calm search that need no more turns are done. -/
theorem Pool.outcome_ok (calm : P.Calm a) (h : P.Pool a m layer ahead left turns pool)
    (spent : ∀ k ∈ turns, k = 0) : outcome pool = some (.ok ()) := by
  induction h with
  | nil => rfl
  | failed stopped => exact absurd calm stopped
  | pending path _ _ _ ih =>
    have rest := ih fun k member => spent k (List.mem_cons_of_mem _ member)
    cases spent _ List.mem_cons_self
    cases path
    exact rest

end Problem

end JoinOrder
