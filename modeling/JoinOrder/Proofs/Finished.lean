import JoinOrder.Proofs.Fresh
/-!
What is left behind by calls that have found a plan. Whichever search they went through and in whatever
order, a plan for every part of the relations is in the table, and the account says the same.
-/

namespace JoinOrder

open Search

namespace Problem

variable {P : Problem} {a : Answerer} {workers : Value} {e e' e'' : Effort} {t : Standing} {m : Memo}
  {K : RelationSet} {p : Plan}

/-- What the account says when all parts were solved. The recursion finds each part once less than the
layers do, all but the last. -/
structure Settled (P : Problem) (layered : Bool) (e e' : Effort) : Prop where
  subproblems : e'.subproblems = e.subproblems + (P.due P.table).subproblems
  candidates : e'.candidates = e.candidates + (P.due P.table).candidates
  memoHits : match layered with
    | true => e'.memoHits = e.memoHits + (P.due P.table).memoHits
    | false => e'.memoHits + (P.due P.table).subproblems =
        e.memoHits + (P.due P.table).memoHits + P.counted P.root

theorem Settled.unique {layered : Bool} (h : P.Settled layered e e') (h' : P.Settled layered e e'') :
    e' = e'' := by
  have := h.subproblems
  have := h'.subproblems
  have := h.candidates
  have := h'.candidates
  have hits := h.memoHits
  have hits' := h'.memoHits
  cases layered <;> simp only [Effort.ext_iff] at * <;> omega

theorem settled_of_advance {n : Nat} (h : P.Advance a n 0 (P.counted P.root) ⟨P.table, e⟩ t)
    (finished : P.Finished t.memo) : P.Settled false e t.effort := by
  obtain ⟨subproblems, candidates, lookUps⟩ := h.finished finished
  simp only [Nat.add_zero] at candidates
  refine ⟨subproblems, candidates, ?_⟩
  simp only [due]
  omega

theorem Front.settled (h : P.Front a workers e (P.root.length + 1) t) : P.Settled true e t.effort := by
  have balance := h.balance
  have none (work : List Relation → Nat) := outstanding_eq_zero work h.finished.all
  simp only [Effort.ext_iff, Effort.subproblems_add, Effort.candidates_add, Effort.memoHits_add,
    due, none, Nat.add_zero] at balance
  exact ⟨balance.1, balance.2.1, balance.2.2⟩

/-- One relation alone has no parts, and of more relations all parts are solved on the way. -/
theorem Solved.finished {t' : Standing} (h : P.Solved a P.root t p t')
    (new : P.table.knows P.root = false) : P.Finished t'.memo := by
  by_cases two : 2 ≤ P.root.length
  · exact finished_of_solved h two new
  · refine ⟨h.advance.reached, fun xs part => absurd ?_ two⟩
    exact part.two.trans part.sublist.length_le

/-- From an empty table, the plans of all parts are found and nothing else. -/
theorem Finished.find?_fresh (h : P.Finished m) (fresh : ∀ K, P.table.find? K = none) :
    m.find? K = some p ↔ ∃ xs, P.IsPart xs ∧ K.identities = (IdSet.ofList xs).identities ∧
      p = best P.est P.order xs := by
  constructor
  · intro found
    obtain ⟨xs, part, same, rfl⟩ := h.reached.fresh K p (fresh K) found
    exact ⟨xs, part, same, P.plan_fresh fresh⟩
  · rintro ⟨xs, part, same, rfl⟩
    obtain ⟨q, found⟩ := Option.isSome_iff_exists.mp (h.all xs part)
    rw [Memo.find?_congr same, found, h.reached.eq_plan part.sublist found, P.plan_fresh fresh]

end Problem

namespace Optimizer

variable {o : Optimizer} {est : Plan → Plan → Int} {clock : Clock} {readings : Nat} {table : Memo}
  {collection : Item} {relations source : List Relation} {a : Answerer} {e : Effort}
  {schedules : Nat → List Nat} {out : Outcome}

theorem searchBy_settled (P : Problem) (order : o.settings.order = P.order)
    (same : source.Perm P.root) (some : P.root ≠ []) (agrees : a.model.Agrees P.est)
    (new : P.table.knows P.root = false) {s s' : State} {p : Plan}
    (start : s.standing = ⟨P.table, e⟩)
    (h : o.searchBy schedules a P.table source P.root s = .some (.ok p, s')) :
    P.Finished s'.memo ∧ P.Settled (o.isLayered P.table P.root) e s'.effort := by
  rw [searchBy, order] at h
  cases layered : o.isLayered P.table P.root with
  | true =>
    rw [layered, if_pos rfl] at h
    obtain ⟨many, _⟩ := unsolved_of_isLayered layered
    obtain ⟨_, front⟩ := (Problem.solveLayersBy_ends start agrees (by omega) h).ok p rfl
    exact ⟨front.finished, front.settled⟩
  | false =>
    rw [layered, if_neg (by simp)] at h
    have recursion := Problem.ends_solveWithin P.root.length (.refl _) some le_rfl
      (IdSet.identities_ofList_perm same) Problem.reached_table agrees s start
    rw [← solve, Option.some.inj h] at recursion
    have solved : P.Solved a P.root ⟨P.table, e⟩ p s'.standing := recursion
    have finished := solved.finished new
    exact ⟨finished, Problem.settled_of_advance solved.advance finished⟩

/-- What the last search has counted, if there was one. -/
def Outcome.effort (out : Outcome) : Option Effort := out.optimizer.statistics.map (·.effort)

theorem conclude_effort {start : Float} {warnings : List String} {result : Except Error Plan}
    {s : State} : (o.conclude clock start warnings result s).effort = some s.effort := by
  unfold conclude
  cases result <;> cases o.settings.verbose.truthy <;> rfl

/-- What a call for a problem leaves behind that has returned a plan. -/
structure Finds (o : Optimizer) (P : Problem) (plan : Plan) (out : Outcome) : Prop where
  plan : plan = P.plan P.root
  finished : P.Finished out.memo
  effort : ∃ e, out.effort = some e ∧ P.Settled (o.isLayered P.table P.root) .zero e

theorem optimizeBy_finds (P : Problem) (order : o.settings.order = P.order)
    (accepted : o.accept table collection = .ok (relations, P.table))
    (sort : Relation.sort relations = .ok P.root) (some : P.root ≠ [])
    (agrees : o.model.Agrees P.est) (new : P.table.knows P.root = false)
    (h : o.optimizeBy schedules clock readings table collection = .some out) {plan : Plan}
    (ok : out.result = .ok plan) : o.Finds P plan out := by
  have found := (optimizeBy_reached P order accepted sort some agrees h).2 plan ok
  obtain ⟨deadline, warnings, sorted, opening, prepared⟩ := exists_prepared accepted h ok
  obtain rfl : sorted = P.root := sorted_of_prepare prepared sort
  rw [optimizeBy_prepared accepted prepared] at h
  obtain ⟨⟨result, s⟩, searched, rfl⟩ := Option.map_eq_some_iff.mp h
  have result := (conclude_ok_iff.mp ok).1
  subst result
  obtain ⟨finished, settled⟩ :=
    searchBy_settled P order (Relation.perm_of_sort sort).symm some agrees new rfl searched
  exact ⟨found, conclude_memo ▸ finished, _, conclude_effort, settled⟩

theorem exists_finds (agrees : o.model.Agrees est)
    (accepted : o.accept ∅ collection = .ok (relations, table))
    (h : o.optimizeBy schedules clock readings ∅ collection = some out) {plan : Plan}
    (ok : out.result = .ok plan) : ∃ sorted, ∃ sort : Relation.sort relations = .ok sorted,
      o.Finds (posed est o.settings.order table (sound_of_fresh (fresh_of_accept accepted))
        (accept_eq_ok.mp accepted).1 sort) plan out := by
  have fresh := fresh_of_accept accepted
  have checked := (accept_eq_ok.mp accepted).1
  obtain ⟨deadline, warnings, sorted, opening, prepared⟩ := exists_prepared accepted h ok
  have sort := (prepare_eq_ok prepared).2.1
  let P := posed est o.settings.order table (sound_of_fresh fresh) checked sort
  exact ⟨sorted, sort, optimizeBy_finds P rfl accepted sort (sorted_ne_nil checked sort) agrees
    (P.knows_fresh fresh) h ok⟩

/-- Two calls for one problem that both return a plan leave the same behind. -/
theorem Finds.same {P : Problem} {o' : Optimizer} {p p' : Plan} {out out' : Outcome}
    (h : o.Finds P p out) (h' : o'.Finds P p' out')
    (layers : o'.isLayered P.table P.root = o.isLayered P.table P.root) :
    p = p' ∧ (∀ K, out.memo.find? K = out'.memo.find? K) ∧
      out.effort = out'.effort := by
  obtain ⟨e, first, settled⟩ := h.effort
  obtain ⟨e', second, settled'⟩ := h'.effort
  rw [layers] at settled'
  refine ⟨h.plan.trans h'.plan.symm, h.finished.find?_eq h'.finished, ?_⟩
  rw [first, second, settled.unique settled']

end Optimizer

end JoinOrder
