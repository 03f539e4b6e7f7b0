import JoinOrder.Proofs.Halvings
import JoinOrder.Proofs.Places
import JoinOrder.Proofs.Unions
/-!
What the nodes of a plan keep, against what a walk through the plan finds: the relations and attributes
of its leaves, and the sum of what its joins were estimated at. The walks themselves agree on how many
leaves, joins and nodes there are, and on their order.
-/

namespace JoinOrder

namespace Value

/-- Some way to add values up in their order. -/
inductive AddsUp : List Value → Value → Prop where
  | none : AddsUp [] (.int 0)
  | one (v : Value) : AddsUp [v] v
  | add {xs ys : List Value} {a b sum : Value} : AddsUp xs a → AddsUp ys b → a.add b = .ok sum →
      AddsUp (xs ++ ys) sum

/-- Integers and truth values add up exactly. -/
theorem add_eq_int {a b : Value} {m n : Int} (ha : a.int? = some m) (hb : b.int? = some n) :
    a.add b = .ok (.int (m + n)) := by
  have exact : arithmetic (· + ·) (· + ·) a b = .ok (.int (m + n)) := by
    rw [arithmetic, ha, hb]
  unfold add
  split
  · contradiction
  · contradiction
  · exact exact

end Value

namespace Plan

variable {p left right : Plan} {tuples : Value} {c : Value}

/-! ### What nodes keep -/

theorem attributes_eq_unions (p : Plan) : p.attributes = .unions (p.leaves.map (·.attributes)) := by
  induction p with
  | scan r tuples => exact (IdSet.union_empty _).symm
  | join left right tuples ihl ihr =>
    rw [leaves, List.map_append, IdSet.unions_append, ← ihl, ← ihr]
    rfl

theorem relations_eq_ofList (p : Plan) : p.relations = .ofList p.leaves := by
  rw [IdSet.ofList_eq_unions]
  induction p with
  | scan r tuples => exact (IdSet.union_empty _).symm
  | join left right tuples ihl ihr =>
    rw [leaves, List.map_append, IdSet.unions_append, ← ihl, ← ihr]
    rfl

theorem cost_join_eq_ok (h : (join left right tuples).cost = .ok c) :
    ∃ a b children, left.cost = .ok a ∧ right.cost = .ok b ∧ a.add b = .ok children ∧
      children.add tuples = .ok c := by
  change (do let children ← (← left.cost).add (← right.cost); children.add tuples) = _ at h
  cases ha : left.cost with
  | error e => rw [ha] at h; exact nomatch h
  | ok a =>
    cases hb : right.cost with
    | error e => rw [ha, hb] at h; exact nomatch h
    | ok b =>
      rw [ha, hb] at h
      cases both : a.add b with
      | error e => simp only [bind, Except.bind, both] at h; exact nomatch h
      | ok children =>
        simp only [bind, Except.bind, both] at h
        exact ⟨a, b, children, rfl, rfl, both, h⟩

/-- The cost of a plan adds up what its joins are estimated at. -/
theorem addsUp_cost (h : p.cost = .ok c) : Value.AddsUp (p.joins.map Plan.tuples) c := by
  induction p generalizing c with
  | scan r tuples => cases h; exact .none
  | join left right tuples ihl ihr =>
    obtain ⟨a, b, children, costLeft, costRight, both, all⟩ := cost_join_eq_ok h
    rw [joins, List.map_append, List.map_append]
    exact .add (.add (ihl costLeft) (ihr costRight) both) (.one tuples) all

theorem cost_eq_sum (integers : ∀ join ∈ p.joins, ∃ n, join.tuples.int? = some n) :
    p.cost = .ok (.int (p.joins.map estimate).sum) := by
  induction p with
  | scan r tuples => rfl
  | join left right tuples ihl ihr =>
    have inLeft := ihl fun join member => integers join (by simp [joins, member])
    have inRight := ihr fun join member => integers join (by simp [joins, member])
    obtain ⟨n, is⟩ := integers (join left right tuples) (by simp [joins])
    have own : (join left right tuples).estimate = n := congrArg (·.getD 0) is
    change (do let children ← (← left.cost).add (← right.cost); children.add tuples) = _
    rw [inLeft, inRight, joins, List.map_append, List.map_append, List.sum_append, List.sum_append,
      List.map_singleton, List.sum_singleton, own]
    exact Value.add_eq_int (a := .int _) rfl is

theorem exists_cost_of_joinWith {model : CostModel} {asked : Nat}
    (ok : joinWith model asked left right = .ok p) : ∃ c, p.cost = .ok c := by
  obtain ⟨v, estimate, rfl⟩ := eq_join_of_joinWith ok
  unfold joinWith at ok
  rw [estimate] at ok
  change (do let _ ← (join left right v).cost; return join left right v) = _ at ok
  cases cost : (join left right v).cost with
  | error e => rw [cost] at ok; exact nomatch ok
  | ok c => exact ⟨c, rfl⟩

/-! ### Walks -/

theorem length_joins (p : Plan) : p.joins.length + 1 = p.leaves.length := by
  induction p with
  | scan r tuples => rfl
  | join left right tuples ihl ihr =>
    simp only [joins, leaves, List.length_append, List.length_singleton]
    omega

theorem length_nodes (p : Plan) : p.nodes.length + 1 = 2 * p.leaves.length := by
  induction p with
  | scan r tuples => rfl
  | join left right tuples ihl ihr =>
    simp only [nodes, leaves, List.length_append, List.length_cons]
    omega

theorem perm_filter_isJoin (p : Plan) : (p.nodes.filter isJoin).Perm p.joins := by
  induction p with
  | scan r tuples => exact .refl _
  | join left right tuples ihl ihr =>
    rw [nodes, List.filter_cons_of_pos rfl, List.filter_append]
    exact ((ihl.append ihr).cons _).trans (List.perm_append_singleton ..).symm

end Plan

/-! ### Plans as they are made -/

/-- Scans, and joins of what is nested in them, each under a model that was asked so often before. -/
inductive Nesting where
  | scan (r : Relation)
  | join (model : CostModel) (asked : Nat) (left right : Nesting)

namespace Nesting

def plan : Nesting → Except Error Plan
  | .scan r => .ok (.ofRelation r)
  | .join model asked left right => do Plan.joinWith model asked (← left.plan) (← right.plan)

/-- The estimates that are asked for, in their order. -/
def questions : Nesting → List (CostModel × Nat)
  | .scan _ => []
  | .join model asked left right => left.questions ++ right.questions ++ [(model, asked)]

/-- A join has the number of tuples that a model gives for its sides. -/
def Answers (question : CostModel × Nat) (join : Plan) : Prop :=
  ∃ left right tuples, join = .join left right tuples ∧
    question.1.estimate question.2 left right = .ok tuples

variable {nesting : Nesting} {p : Plan}

theorem plan_join_eq_ok {model : CostModel} {asked : Nat} {left right : Nesting}
    (made : (join model asked left right).plan = .ok p) :
    ∃ l r, left.plan = .ok l ∧ right.plan = .ok r ∧ Plan.joinWith model asked l r = .ok p := by
  change (do Plan.joinWith model asked (← left.plan) (← right.plan)) = _ at made
  cases hl : left.plan with
  | error e => rw [hl] at made; exact nomatch made
  | ok l =>
    cases hr : right.plan with
    | error e => rw [hl, hr] at made; exact nomatch made
    | ok r =>
      rw [hl, hr] at made
      exact ⟨l, r, rfl, rfl, made⟩

/-- Only plans whose costs add up are made. -/
theorem exists_cost (made : nesting.plan = .ok p) : ∃ c, p.cost = .ok c := by
  cases nesting with
  | scan r => cases made; exact ⟨.int 0, rfl⟩
  | join model asked left right =>
    obtain ⟨l, r, _, _, joined⟩ := plan_join_eq_ok made
    exact Plan.exists_cost_of_joinWith joined

theorem answers_joins (made : nesting.plan = .ok p) :
    List.Forall₂ Answers nesting.questions p.joins := by
  induction nesting generalizing p with
  | scan r => cases made; exact .nil
  | join model asked left right ihl ihr =>
    obtain ⟨l, r, madeLeft, madeRight, joined⟩ := plan_join_eq_ok made
    obtain ⟨v, estimate, rfl⟩ := Plan.eq_join_of_joinWith joined
    have below := List.rel_append (ihl madeLeft) (ihr madeRight)
    exact List.rel_append below (.cons ⟨l, r, v, rfl, estimate⟩ .nil)

theorem filter_isScan (made : nesting.plan = .ok p) :
    p.nodes.filter Plan.isScan = p.leaves.map Plan.ofRelation := by
  induction nesting generalizing p with
  | scan r => cases made; rfl
  | join model asked left right ihl ihr =>
    obtain ⟨l, r, madeLeft, madeRight, joined⟩ := plan_join_eq_ok made
    obtain ⟨v, _, rfl⟩ := Plan.eq_join_of_joinWith joined
    rw [Plan.nodes, List.filter_cons_of_neg (by simp [Plan.isScan]), List.filter_append,
      ihl madeLeft, ihr madeRight, Plan.leaves, List.map_append]

/-- Whatever is nested under whatever models, a plan that is made keeps what walks through it find: its
relations are the set of its leaves, its attributes are those of all leaves, its cost adds up the tuples
of its joins, exactly so if they are integers, and each join has the tuples that were estimated for its
sides. There is one join less than there are leaves, and the nodes are the scans of the leaves in their
order and the joins in some order. In the list of nodes every node stands before those further down, in
the list of joins behind them, at whichever places of the plan it stands. -/
theorem plan_consistent (made : nesting.plan = .ok p) :
    p.relations = .ofList p.leaves ∧ p.attributes = .unions (p.leaves.map (·.attributes)) ∧
    (∃ c, p.cost = .ok c ∧ Value.AddsUp (p.joins.map Plan.tuples) c ∧
      ((∀ join ∈ p.joins, ∃ n, join.tuples.int? = some n) →
        c = .int (p.joins.map Plan.estimate).sum)) ∧
    List.Forall₂ Answers nesting.questions p.joins ∧
    p.joins.length + 1 = p.leaves.length ∧ p.nodes.length + 1 = 2 * p.leaves.length ∧
    p.nodes.filter Plan.isScan = p.leaves.map Plan.ofRelation ∧
    (p.nodes.filter Plan.isJoin).Perm p.joins ∧
    (∃ places, p.ListsAt (fun _ => true) p.nodes places ∧
      places.Pairwise fun earlier later => ¬ earlier.Below later) ∧
    ∃ places, p.ListsAt Plan.isJoin p.joins places ∧
      places.Pairwise fun earlier later => ¬ later.Below earlier := by
  obtain ⟨c, cost⟩ := exists_cost made
  refine ⟨p.relations_eq_ofList, p.attributes_eq_unions,
    ⟨c, cost, Plan.addsUp_cost cost, fun integers => ?_⟩, answers_joins made, p.length_joins,
    p.length_nodes, filter_isScan made, p.perm_filter_isJoin,
    ⟨_, p.listsAt_nodes, p.pairwise_placesDown⟩, _, p.listsAt_joins, p.pairwise_joinPlacesUp⟩
  rw [Plan.cost_eq_sum integers] at cost
  exact (Except.ok.inj cost).symm

section Examples

open Problem (relationWith)

/-- A pair of relations that is joined with itself. -/
def paired : Nesting :=
  let pair := Nesting.join (.sharedAttributes .small) 0 (.scan (relationWith 1 "A" 10 ["x"]))
    (.scan (relationWith 2 "B" 20 ["x"]))
  .join (.sharedAttributes .small) 0 pair pair

theorem plan_consistent_paired : ∃ p, paired.plan = .ok p ∧ p.leaves.length = 4 ∧
    p.relations = .ofList p.leaves ∧ p.relations.size = 2 ∧
    p.joins.length + 1 = p.leaves.length ∧ p.cost = .ok (.int 5200) := by
  have made : ∃ p, paired.plan = .ok p ∧ p.leaves.length = 4 ∧ (IdSet.ofList p.leaves).size = 2 ∧
      p.joins.map Plan.estimate = [100, 100, 5000] ∧
      (p.joins.all fun join => join.tuples.int?.isSome) = true := by
    refine ⟨_, rfl, rfl, ?_, ?_, ?_⟩ <;> decide +kernel
  obtain ⟨p, made, leaves, size, estimates, integers⟩ := made
  obtain ⟨relations, _, ⟨c, cost, _, sum⟩, _, joins, _⟩ := plan_consistent made
  have total := sum fun join member =>
    Option.isSome_iff_exists.mp (List.all_eq_true.mp integers join member)
  rw [estimates] at total
  exact ⟨p, made, leaves, relations, relations ▸ size, joins, total ▸ cost⟩

end Examples

end Nesting

end JoinOrder
