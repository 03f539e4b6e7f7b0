import JoinOrder.Proofs.Layers
/-!
The layered search and the recursive one find the same plans. They solve the same parts, the one from
below and the other from above, and the account of the one follows from that of the other, whatever
the schedules of the layers are.

The table may know any plans at the start, as long as each of them joins its own set.
-/

namespace JoinOrder

namespace Search

theorem sound_empty : Sound (∅ : Memo).find? := fun K plan found => by
  rw [Memo.find?_empty] at found
  contradiction

theorem sound_put {m : Memo} {listed : List Relation} {plan : Plan} (sound : Sound m.find?)
    (some : listed ≠ []) (counted : plan.IsCounted)
    (covers : plan.relations.identities = (IdSet.ofList listed).identities) :
    Sound (m.put listed plan).find? := by
  intro K p found
  rw [Memo.find?_put some] at found
  split at found
  case isTrue same =>
    cases found
    exact ⟨covers.trans same.symm, counted⟩
  case isFalse => exact sound K p found

end Search

namespace Problem

open Search

/-- Both searches find the same plan and leave the same plans in the table, whatever the table knew at
the start and whatever the schedules are. They solve as many parts and try as many candidates; the
layered search finds each part it solves once more in the table, all but the last. Nothing but what
cannot be told stops them, and schedules that give every task enough turns let the layers end. -/
theorem layered_eq_recursive (P : Problem) {a : Answerer} {workers : Value} {source : List Relation}
    {s : State} (start : s.memo = P.table) (unspent : s.effort = .zero)
    (same : source.Perm P.root) (many : 2 < P.root.length)
    (new : P.table.find? (.ofList P.root) = none) (untimed : a.deadline = none)
    (estimates : a.model.Estimates P.est) :
    ∃ result s', run a (solve P.order source P.root) s = (result, s') ∧
      ((∃ p, result = .ok p) ↔ P.Told a) ∧
      (∀ schedules layered s'',
        solveLayersBy a P.order workers P.root schedules s = some (layered, s'') →
          ((∃ p, layered = .ok p) ↔ P.Told a ∧ P.LayersTold a workers) ∧
          ∀ p, layered = .ok p → result = .ok p ∧
            (∀ K, s''.memo.find? K = s'.memo.find? K) ∧
            s''.effort.subproblems = s'.effort.subproblems ∧
            s''.effort.candidates = s'.effort.candidates ∧
            s''.effort.memoHits + 1 = s'.effort.memoHits + s'.effort.subproblems) ∧
      (P.Told a → P.LayersTold a workers → ∃ n, ∀ schedules, (∀ size, Fair n (schedules size)) →
        (solveLayersBy a P.order workers P.root schedules s).isSome) := by
  have agrees := estimates.agrees
  have standing : s.standing = ⟨P.table, .zero⟩ := by rw [State.standing, start, unspent]
  have root : P.IsPart P.root := ⟨.refl _, by omega⟩
  have unknown : P.table.knows P.root = false := by rw [Memo.knows, new]; rfl
  have calm (told : P.Told a) : P.Calm a := ⟨untimed, estimates, told⟩
  have recursion := ends_solveWithin P.root.length (.refl _) root.ne_nil le_rfl
    (IdSet.identities_ofList_perm same) reached_table agrees s standing
  rw [← solve] at recursion
  generalize run a (solve P.order source P.root) s = ran at recursion ⊢
  obtain ⟨result, s'⟩ := ran
  refine ⟨result, s', rfl, ?_, fun schedules layered s'' h => ?_, fun told layersTold =>
    exists_fair standing (calm told) layersTold root.two⟩
  · cases result with
    | error error =>
      refine iff_of_false ?_ fun told => recursion.2 (calm told)
      rintro ⟨p, ok⟩
      contradiction
    | ok p => exact iff_of_true ⟨p, rfl⟩ (told_of_solved recursion root.two unknown)
  · have layers := solveLayersBy_ends standing agrees root.two h
    constructor
    · cases layered with
      | error error =>
        refine iff_of_false ?_ fun all => layers.failed error rfl ⟨calm all.1, all.2⟩
        rintro ⟨p, ok⟩
        contradiction
      | ok p => exact iff_of_true ⟨p, rfl⟩ (layers.ok p rfl).2.allTold
    · intro p ok
      obtain ⟨rfl, front⟩ := layers.ok p ok
      cases result with
      | error error => exact absurd (calm front.allTold.1) recursion.2
      | ok q =>
        have finished := finished_of_solved recursion root.two unknown
        have account := recursion.advance.finished finished
        have balance := front.balance
        have done (work : List Relation → Nat) := outstanding_eq_zero work front.finished.all
        rw [counted_part root] at account
        -- Both searches answer for the same parts; the layers look every solved part up once more.
        simp only [Effort.ext_iff, Effort.subproblems_add, Effort.candidates_add,
          Effort.memoHits_add, due, done, Effort.zero] at account balance
        refine ⟨congrArg Except.ok recursion.plan, fun K => front.finished.find?_eq finished K,
          ?_, ?_, ?_⟩ <;> simp only [State.standing] at account balance <;> omega

theorem told_of_quiet {P : Problem} {a : Answerer} (quiet : a.verbose = false) : P.Told a :=
  fun _ _ _ => Answerer.tells_of_quiet quiet _

theorem layersTold_of_quiet {P : Problem} {a : Answerer} {workers : Value}
    (quiet : a.verbose = false) : P.LayersTold a workers :=
  fun _ _ _ => Answerer.tells_of_quiet quiet _

def plainRelation (id : Int) (name : String) : Relation := ⟨.int id, .text name, .int 10, ∅, []⟩

/-- Three relations, two of which somebody has joined the wrong way round. -/
def halfKnown : Problem where
  est := CostModel.productOf
  order := .canonical
  root := [plainRelation 1 "A", plainRelation 2 "B", plainRelation 3 "C"]
  table := (∅ : Memo).put [plainRelation 1 "A", plainRelation 2 "B"]
    (.joined CostModel.productOf (.ofRelation (plainRelation 2 "B"))
      (.ofRelation (plainRelation 1 "A")))
  distinct := by decide
  integers := by
    intro r member
    simp only [List.mem_cons, List.not_mem_nil, or_false] at member
    rcases member with rfl | rfl | rfl <;> exact ⟨10, rfl⟩
  sound := sound_put sound_empty (by simp)
    (Plan.isCounted_joined (Plan.isCounted_ofRelation ⟨10, rfl⟩) (Plan.isCounted_ofRelation ⟨10, rfl⟩))
    (by decide)

def quiet : Answerer := ⟨.crossProduct .small, fun _ => 0, none, false⟩

theorem layered_eq_recursive_halfKnown :
    ∃ p s', run quiet (solve .canonical halfKnown.root.reverse halfKnown.root)
        ⟨halfKnown.table, .zero, 0, 0, []⟩ = (.ok p, s') ∧
      (∀ schedules layered s'', solveLayersBy quiet .canonical (.int 2) halfKnown.root schedules
          ⟨halfKnown.table, .zero, 0, 0, []⟩ = some (layered, s'') →
          layered = .ok p ∧ (∀ K, s''.memo.find? K = s'.memo.find? K) ∧
          s''.effort.subproblems = s'.effort.subproblems ∧
          s''.effort.candidates = s'.effort.candidates ∧
          s''.effort.memoHits + 1 = s'.effort.memoHits + s'.effort.subproblems) ∧
      ∃ n, ∀ schedules, (∀ size, Fair n (schedules size)) →
        (solveLayersBy quiet .canonical (.int 2) halfKnown.root schedules
          ⟨halfKnown.table, .zero, 0, 0, []⟩).isSome := by
  have new : halfKnown.table.find? (.ofList halfKnown.root) = none := by
    change ((∅ : Memo).put _ _).find? _ = none
    rw [Memo.find?_put (by simp), if_neg (by decide), Memo.find?_empty]
  obtain ⟨result, s', ran, solved, same, ends⟩ := @layered_eq_recursive halfKnown quiet (.int 2)
    halfKnown.root.reverse ⟨halfKnown.table, .zero, 0, 0, []⟩ rfl rfl
    (List.reverse_perm _) (by decide) new rfl CostModel.estimates_crossProduct
  obtain ⟨p, rfl⟩ := solved.mpr (told_of_quiet rfl)
  refine ⟨p, s', ran, fun schedules layered s'' h => ?_,
    ends (told_of_quiet rfl) (layersTold_of_quiet rfl)⟩
  obtain ⟨finds, agree⟩ := same schedules layered s'' h
  obtain ⟨q, rfl⟩ := finds.mpr ⟨told_of_quiet rfl, layersTold_of_quiet rfl⟩
  obtain ⟨plan, rest⟩ := agree q rfl
  exact ⟨plan.symm, rest⟩

end Problem

end JoinOrder
