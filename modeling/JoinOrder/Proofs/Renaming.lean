import JoinOrder.Proofs.ExactEffort
import JoinOrder.Proofs.InputOrder
import JoinOrder.Proofs.Relabel
/-!
Names, identities and the spelling of attributes. A search under a known model asks relations for their
tuples and for how many attributes they have in common, and everything else it learns from where they
stand in their order. So two lists of relations that agree on these things get the same plan, each in its
own words, and the search does as much for the one as for the other.
-/

namespace JoinOrder

/-- The two relations of each pair have as many tuples, an attribute of the one is renamed to an attribute
of the other, different attributes to different ones, and both lists are in the same order when they are
sorted. Attributes are given by their identities. -/
structure Renamed (rename : Atom → Atom) (pairs : List (Relation × Relation)) : Prop where
  tuples : ∀ pair ∈ pairs, pair.2.tuples = pair.1.tuples
  attributes : ∀ pair ∈ pairs, ∀ a, a ∈ pair.2.attributes.identities ↔
    ∃ b ∈ pair.1.attributes.identities, rename b = a
  injective : Set.InjOn rename {a | ∃ pair ∈ pairs, a ∈ pair.1.attributes.identities}
  order : ∃ arranged : List (Relation × Relation), arranged.Perm pairs ∧
    Relation.sort (pairs.map Prod.fst) = .ok (arranged.map Prod.fst) ∧
    Relation.sort (pairs.map Prod.snd) = .ok (arranged.map Prod.snd)

/-- Plans of one shape. Their leaves are the pairs one by one, and every node has as many tuples and the
same cost in both. -/
inductive Plan.Counterpart (pairs : List (Relation × Relation)) : Plan → Plan → Prop where
  | scan {r r' : Relation} {tuples : Value} : (r, r') ∈ pairs →
      Counterpart pairs (.scan r tuples) (.scan r' tuples)
  | join {left right left' right' : Plan} {tuples : Value} : Counterpart pairs left left' →
      Counterpart pairs right right' →
      (Plan.join left right tuples).cost = (Plan.join left' right' tuples).cost →
      Counterpart pairs (.join left right tuples) (.join left' right' tuples)

/-! ### Attributes that are renamed -/

section Groups

variable {f : Relation → Relation} {rename : Atom → Atom} {xs ys : List Relation}

/-- Every attribute of a relation is renamed, and there are no others. -/
def Renames (f : Relation → Relation) (rename : Atom → Atom) (xs : List Relation) : Prop :=
  ∀ r ∈ xs, ∀ a, a ∈ (f r).attributes.identities ↔ ∃ b ∈ r.attributes.identities, rename b = a

theorem attributesOf_map (renames : Renames f rename xs) :
    attributesOf (xs.map f) = (attributesOf xs).image rename := by
  ext a
  simp only [mem_attributesOf, List.mem_map, Finset.mem_image]
  constructor
  · rintro ⟨_, ⟨r, member, rfl⟩, has⟩
    obtain ⟨b, inside, rfl⟩ := (renames r member a).mp has
    exact ⟨b, ⟨r, member, inside⟩, rfl⟩
  · rintro ⟨b, ⟨r, member, inside⟩, rfl⟩
    exact ⟨f r, ⟨r, member, rfl⟩, (renames r member _).mpr ⟨b, inside, rfl⟩⟩

/-- As many attributes are in common under their new names. -/
theorem common_map (left : Renames f rename xs) (right : Renames f rename ys)
    (injective : Set.InjOn rename (attributesOf xs ∪ attributesOf ys : Finset Atom)) :
    common (xs.map f) (ys.map f) = common xs ys := by
  have apart : Set.InjOn rename (↑(attributesOf xs) ∪ ↑(attributesOf ys) : Set Atom) := by
    rwa [← Finset.coe_union]
  have both : ((attributesOf xs ∩ attributesOf ys : Finset Atom) : Set Atom) ⊆
      (attributesOf xs ∪ attributesOf ys : Finset Atom) :=
    Finset.coe_subset.mpr (Finset.inter_subset_left.trans Finset.subset_union_left)
  rw [common, common, attributesOf_map left, attributesOf_map right,
    ← Finset.image_inter_of_injOn _ _ apart, Finset.card_image_of_injOn (injective.mono both)]

end Groups

namespace Plan

variable {known : CostModel.Known} {f : Relation → Relation} {rename : Atom → Atom} {p : Plan}
  {xs : List Relation} {pairs : List (Relation × Relation)}

/-- Renaming changes no estimate. -/
theorem estimate_relabel (tree : IsTree known.formula.estimate p) (sub : p.leaves ⊆ xs)
    (tuples : ∀ r ∈ xs, (f r).tuples = r.tuples) (renames : Renames f rename xs)
    (injective : Set.InjOn rename (attributesOf xs)) :
    (p.relabel known.formula.estimate f).estimate = p.estimate := by
  induction tree with
  | scan r =>
    have same := tuples r (sub (by simp [ofRelation, leaves]))
    rw [relabel_ofRelation, estimate, estimate]
    exact congrArg (fun v : Value => v.int?.getD 0) same
  | @join left right treeLeft treeRight ihl ihr =>
    have subLeft : left.leaves ⊆ xs := fun r leaf => sub (List.mem_append_left _ leaf)
    have subRight : right.leaves ⊆ xs := fun r leaf => sub (List.mem_append_right _ leaf)
    have inside : ((attributesOf left.leaves ∪ attributesOf right.leaves : Finset Atom) : Set Atom) ⊆
        attributesOf xs := by
      rw [← attributesOf_append]
      intro a member
      obtain ⟨r, leaf, has⟩ := mem_attributesOf.mp member
      exact mem_attributesOf.mpr ⟨r, sub leaf, has⟩
    have shared := common_map (fun r leaf => renames r (subLeft leaf))
      (fun r leaf => renames r (subRight leaf)) (injective.mono inside)
    rw [relabel_joined, estimate_joined, estimate_joined, Formula.estimate, Formula.estimate,
      ihl subLeft, ihr subRight]
    cases known with
    | crossProduct => rfl
    | sharedAttributes =>
      simp only [CostModel.Known.formula, shared_attributes, leaves_relabel, shared]

theorem Counterpart.cost_eq {q : Plan} (h : Counterpart pairs p q) : p.cost = q.cost := by
  cases h with
  | scan => rfl
  | join _ _ same => exact same

/-- A tree and the tree over the other relations of the pairs, if no estimate changes. -/
theorem counterpart_relabel {est : Plan → Plan → Int} (tree : IsTree est p)
    (paired : ∀ r ∈ p.leaves, (r, f r) ∈ pairs)
    (tuples : ∀ pair ∈ pairs, pair.2.tuples = pair.1.tuples)
    (same : ∀ q, IsTree est q → q.leaves ⊆ p.leaves → (q.relabel est f).estimate = q.estimate) :
    Counterpart pairs p (p.relabel est f) := by
  induction tree with
  | scan r =>
    have pair := paired r (by simp [ofRelation, leaves])
    rw [relabel_ofRelation, ofRelation, ofRelation, tuples _ pair]
    exact .scan pair
  | @join left right treeLeft treeRight ihl ihr =>
    have partLeft : left.leaves ⊆ (joined est left right).leaves := List.subset_append_left ..
    have partRight : right.leaves ⊆ (joined est left right).leaves := List.subset_append_right ..
    have inLeft := ihl (fun r leaf => paired r (partLeft leaf))
      fun q tree sub => same q tree (List.Subset.trans sub partLeft)
    have inRight := ihr (fun r leaf => paired r (partRight leaf))
      fun q tree sub => same q tree (List.Subset.trans sub partRight)
    have whole := same _ (.join treeLeft treeRight) (List.Subset.refl _)
    rw [relabel_joined, estimate_joined, estimate_joined] at whole
    rw [relabel_joined, joined, joined, whole]
    refine .join inLeft inRight ?_
    change (do let children ← (← left.cost).add (← right.cost); children.add _) =
      do let children ← (← (left.relabel est f).cost).add (← (right.relabel est f).cost)
         children.add _
    rw [inLeft.cost_eq, inRight.cost_eq]

end Plan

/-! ### The effort of two searches -/

/-- The work on all parts depends on how long a list is, not on what is in it. -/
theorem tally_congr {α β : Type} {xs : List α} {ys : List β} (work : Nat → Nat)
    (same : xs.length = ys.length) : tally work xs = tally work ys := by
  induction xs generalizing ys work with
  | nil =>
    obtain rfl := List.length_eq_zero_iff.mp same.symm
    rw [tally_nil, tally_nil]
  | cons x xs ih =>
    cases ys with
    | nil => exact nomatch same
    | cons y ys =>
      have rest : xs.length = ys.length := Nat.succ.inj same
      rw [tally_cons, tally_cons, ih work rest, ih (fun k => work (k + 1)) rest]

namespace Problem

variable {P P' : Problem}

/-- As much is due for as many relations, if nothing is known of any of them. -/
theorem due_congr (fresh : ∀ K, P.table.find? K = none) (fresh' : ∀ K, P'.table.find? K = none)
    (order : P'.order = P.order) (length : P'.root.length = P.root.length) :
    P'.due P'.table = P.due P.table := by
  have total {Q : Problem} (fresh : ∀ K, Q.table.find? K = none) : Q.due Q.table =
      ⟨tally (fun k => if 2 ≤ k then 1 else 0) Q.root, tally Q.order.tries Q.root,
        tally Q.order.looks Q.root⟩ := by
    have subproblems : Q.outstanding (fun _ => 1) Q.table =
        tally (fun k => if 2 ≤ k then 1 else 0) Q.root :=
      outstanding_fresh fresh rfl rfl fun ys two => (if_pos two).symm
    have candidates : Q.outstanding Q.tries Q.table = tally Q.order.tries Q.root :=
      outstanding_fresh fresh (by cases Q.order <;> rfl) (by cases Q.order <;> rfl) fun _ _ => rfl
    have hits : Q.outstanding Q.lookUps Q.table = tally Q.order.looks Q.root :=
      outstanding_fresh fresh (by cases Q.order <;> rfl) (by cases Q.order <;> rfl)
        fun _ two => lookUps_fresh fresh two
    rw [due, subproblems, candidates, hits]
  rw [total fresh, total fresh', order, tally_congr _ length, tally_congr _ length,
    tally_congr _ length]

theorem Settled.congr {layered : Bool} {e e' : Effort} (h : P'.Settled layered e e')
    (fresh : ∀ K, P.table.find? K = none) (fresh' : ∀ K, P'.table.find? K = none)
    (order : P'.order = P.order) (length : P'.root.length = P.root.length) :
    P.Settled layered e e' := by
  have due := due_congr fresh fresh' order length
  have counted : P'.counted P'.root = P.counted P.root := by
    simp only [Problem.counted, length, knows_fresh fresh, knows_fresh fresh']
  obtain ⟨subproblems, candidates, hits⟩ := h
  rw [due] at subproblems candidates hits
  rw [counted] at hits
  exact ⟨subproblems, candidates, hits⟩

end Problem

namespace Search

open Plan

variable {known : CostModel.Known} {rename : Atom → Atom} {pairs arranged : List (Relation × Relation)}
  {order : Order}

/-- Pairs that are arranged so that both lists are in order have best plans that correspond. -/
theorem counterpart_best (renamed : Renamed rename pairs) (perm : arranged.Perm pairs)
    (distinct : Distinct (pairs.map Prod.fst)) (some : arranged ≠ []) :
    Counterpart pairs (best known.formula.estimate order (arranged.map Prod.fst))
      (best known.formula.estimate order (arranged.map Prod.snd)) := by
  obtain ⟨f, takes⟩ := exists_replacement distinct.nodup
  have replaced : arranged.map Prod.snd = (arranged.map Prod.fst).map f := by
    rw [List.map_map]
    exact List.map_congr_left fun pair member => (takes pair (perm.subset member)).symm
  have paired : ∀ r ∈ arranged.map Prod.fst, (r, f r) ∈ pairs := by
    intro r member
    obtain ⟨pair, inside, rfl⟩ := List.mem_map.mp member
    rw [takes pair (perm.subset inside)]
    exact perm.subset inside
  have injective : Set.InjOn rename (attributesOf (arranged.map Prod.fst)) := by
    refine renamed.injective.mono fun a member => ?_
    obtain ⟨r, inside, has⟩ := mem_attributesOf.mp member
    exact ⟨(r, f r), paired r inside, has⟩
  have same (q : Plan) (tree : IsTree known.formula.estimate q)
      (sub : q.leaves ⊆ arranged.map Prod.fst) :
      (q.relabel known.formula.estimate f).estimate = q.estimate :=
    estimate_relabel tree sub (fun r member => renamed.tuples _ (paired r member))
      (fun r member => renamed.attributes _ (paired r member)) injective
  have nonempty : arranged.map Prod.fst ≠ [] := mt List.map_eq_nil_iff.mp some
  have leaves := @leaves_best known.formula.estimate order _ nonempty
  rw [replaced, best_map nonempty same]
  exact counterpart_relabel (isTree_best nonempty) (fun r leaf => paired r (leaves.subset leaf))
    renamed.tuples fun q tree sub => same q tree (List.Subset.trans sub leaves.subset)

end Search

namespace Optimizer

open CostModel Plan Search

variable {o o' : Optimizer} {known : CostModel.Known} {rename : Atom → Atom}
  {pairs : List (Relation × Relation)} {collection collection' : Item}

/-- Tasks of a layer are solved side by side. -/
def hasWorkers (o : Optimizer) : Bool := (Value.less? (.int 1) o.settings.parallelWorkers).getD false

/-- Two calls for as many relations that both return a plan count as much, if nothing was known. -/
theorem Finds.effort_congr {P P' : Problem} {p p' : Plan} {out out' : Outcome} (h : o.Finds P p out)
    (h' : o'.Finds P' p' out') (fresh : ∀ K, P.table.find? K = none)
    (fresh' : ∀ K, P'.table.find? K = none) (order : P'.order = P.order)
    (length : P'.root.length = P.root.length) (mode : o'.hasWorkers = o.hasWorkers) :
    ∃ e, out.effort = some e ∧ out'.effort = some e := by
  have layers : o'.isLayered P'.table P'.root = o.isLayered P.table P.root := by
    rw [isLayered, isLayered, length, P.knows_fresh fresh, P'.knows_fresh fresh']
    exact congrArg (fun workers => workers && decide (2 < P.root.length) && !false) mode
  obtain ⟨e, counted, settled⟩ := h.effort
  obtain ⟨e', counted', settled'⟩ := h'.effort
  rw [layers] at settled'
  exact ⟨e, counted, settled.unique (settled'.congr fresh fresh' order length) ▸ counted'⟩

theorem optimizeBy_renamed (renamed : Renamed rename pairs)
    (agrees : o.model.Agrees known.formula.estimate)
    (agrees' : o'.model.Agrees known.formula.estimate)
    (order : o'.settings.order = o.settings.order) (mode : o'.hasWorkers = o.hasWorkers)
    {table table' : Memo} (accepted : o.accept ∅ collection = .ok (pairs.map Prod.fst, table))
    (accepted' : o'.accept ∅ collection' = .ok (pairs.map Prod.snd, table'))
    {schedules schedules' : Nat → List Nat} {clock clock' : Clock} {readings readings' : Nat}
    {out out' : Outcome} (ran : o.optimizeBy schedules clock readings ∅ collection = some out)
    (ran' : o'.optimizeBy schedules' clock' readings' ∅ collection' = some out') {plan plan' : Plan}
    (ok : out.result = .ok plan) (ok' : out'.result = .ok plan') :
    Counterpart pairs plan plan' ∧ ∃ e, out.effort = some e ∧ out'.effort = some e := by
  have fresh := fresh_of_accept accepted
  have fresh' := fresh_of_accept accepted'
  have checked := (accept_eq_ok.mp accepted).1
  have ⟨_, _, _, _, distinct, _⟩ := RelationSet.checkAll_eq_ok.mp checked
  obtain ⟨xs, sort, finds⟩ := exists_finds agrees accepted ran ok
  obtain ⟨ys, sort', finds'⟩ := exists_finds agrees' accepted' ran' ok'
  obtain ⟨arranged, perm, first, second⟩ := renamed.order
  obtain rfl : xs = arranged.map Prod.fst := Except.ok.inj (sort.symm.trans first)
  obtain rfl : ys = arranged.map Prod.snd := Except.ok.inj (sort'.symm.trans second)
  have some : arranged ≠ [] := mt List.map_eq_nil_iff.mpr (sorted_ne_nil checked sort)
  have length : (arranged.map Prod.snd).length = (arranged.map Prod.fst).length := by
    rw [List.length_map, List.length_map]
  refine ⟨?_, finds.effort_congr finds' fresh fresh' order length mode⟩
  rw [finds.plan.trans (Problem.plan_fresh fresh), finds'.plan.trans (Problem.plan_fresh fresh')]
  change Counterpart pairs (best known.formula.estimate o.settings.order (arranged.map Prod.fst))
    (best known.formula.estimate o'.settings.order (arranged.map Prod.snd))
  rw [order]
  exact counterpart_best renamed perm distinct some

/-- Two optimizers with one known model, one order of enumeration and one way of searching get two lists
of relations that differ in names, identities and the spelling of attributes alone, and are sorted alike.
Without time limits both return a plan for an empty table, unless somebody listens who cannot be told
all numbers. Whenever both do, by whatever clocks and schedules, the plans have one shape, their leaves
belong together one by one, all nodes have as many tuples and the same cost, and both calls have solved
as many parts, tried as many candidates and found as many plans in their tables. -/
theorem optimize_renamed {machine machine' : Machine} (model : o.model = known.model machine)
    (model' : o'.model = known.model machine')
    (order : o'.settings.order = o.settings.order) (mode : o'.hasWorkers = o.hasWorkers)
    (checked : RelationSet.checkAll collection o.settings.maxRelations = .ok (pairs.map Prod.fst))
    (checked' : RelationSet.checkAll collection' o'.settings.maxRelations =
      .ok (pairs.map Prod.snd))
    (proper : ∀ pair ∈ pairs, pair.1.IsNumbered ∧ pair.1.IsNamed)
    (proper' : ∀ pair ∈ pairs, pair.2.IsNumbered ∧ pair.2.IsNamed)
    (renamed : Renamed rename pairs) :
    (∀ clock readings, o.settings.timeout.isNull = true →
      ((∃ plan, (o.optimize clock readings ∅ collection).result = .ok plan) ↔
        (o.settings.verbose.truthy = true → ∀ sorted,
          Relation.sort (pairs.map Prod.fst) = .ok sorted →
            o.Audible known.formula.estimate sorted))) ∧
    (∀ clock readings, o'.settings.timeout.isNull = true →
      ((∃ plan, (o'.optimize clock readings ∅ collection').result = .ok plan) ↔
        (o'.settings.verbose.truthy = true → ∀ sorted,
          Relation.sort (pairs.map Prod.snd) = .ok sorted →
            o'.Audible known.formula.estimate sorted))) ∧
    (∀ clock clock' readings readings' plan plan',
      (o.optimize clock readings ∅ collection).result = .ok plan →
      (o'.optimize clock' readings' ∅ collection').result = .ok plan' →
        Counterpart pairs plan plan' ∧
          ∃ e, (o.optimize clock readings ∅ collection).effort = some e ∧
            (o'.optimize clock' readings' ∅ collection').effort = some e) ∧
    ∀ schedules schedules' clock clock' readings readings' out out' plan plan',
      o.optimizeBy schedules clock readings ∅ collection = some out →
      o'.optimizeBy schedules' clock' readings' ∅ collection' = some out' →
      out.result = .ok plan → out'.result = .ok plan' →
        Counterpart pairs plan plan' ∧ ∃ e, out.effort = some e ∧ out'.effort = some e := by
  have estimates : o.model.Estimates known.formula.estimate := model ▸ known.estimates_formula
  have estimates' : o'.model.Estimates known.formula.estimate := model' ▸ known.estimates_formula
  have described : ∃ description, o.model.describe = .ok description := model ▸ describe_known known
  have described' : ∃ description, o'.model.describe = .ok description :=
    model' ▸ describe_known known
  obtain ⟨table, accepted⟩ := accept_fresh described checked
  obtain ⟨table', accepted'⟩ := accept_fresh described' checked'
  refine ⟨fun _ _ untimed => ?_, fun _ _ untimed => ?_, ?_, ?_⟩
  · exact optimize_isOk_iff_audible estimates described untimed checked
      (List.forall_mem_map.mpr proper)
  · exact optimize_isOk_iff_audible estimates' described' untimed checked'
      (List.forall_mem_map.mpr proper')
  · intro clock clock' readings readings' plan plan' ok ok'
    obtain ⟨_, ran⟩ := o.exists_optimizeBy clock readings ∅ collection
    obtain ⟨_, ran'⟩ := o'.exists_optimizeBy clock' readings' ∅ collection'
    exact optimizeBy_renamed renamed estimates.agrees estimates'.agrees order mode accepted accepted'
      ran ran' ok ok'
  · intro _ _ _ _ _ _ _ _ _ _ ran ran' ok ok'
    exact optimizeBy_renamed renamed estimates.agrees estimates'.agrees order mode accepted accepted'
      ran ran' ok ok'

section Examples

open Problem

def spelledOut (a : Atom) : Atom :=
  if a = .text "x" then .text "width" else if a = .text "y" then .text "height" else a

/-- Three relations in a row, and the same with other names, identities and attributes. -/
def spelled : List (Relation × Relation) :=
  [(relationWith 1 "A" 4 ["x"], relationWith 30 "T2" 4 ["width"]),
    (relationWith 2 "B" 3 ["x", "y"], relationWith 20 "T10" 3 ["height", "width"]),
    (relationWith 3 "C" 2 ["y"], relationWith 10 "T11" 2 ["height"])]

theorem proper_spelled : ∀ pair ∈ spelled, (pair.1.IsNumbered ∧ pair.1.IsNamed) ∧
    pair.2.IsNumbered ∧ pair.2.IsNamed := by
  intro pair member
  simp only [spelled, List.mem_cons, List.not_mem_nil, or_false] at member
  rcases member with rfl | rfl | rfl <;> exact ⟨proper_relationWith .., proper_relationWith ..⟩

theorem renamed_spelled : Renamed spelledOut spelled where
  tuples := by
    intro pair member
    simp only [spelled, List.mem_cons, List.not_mem_nil, or_false] at member
    rcases member with rfl | rfl | rfl <;> rfl
  attributes := by
    intro pair member a
    have same : ∀ pair ∈ spelled, pair.2.attributes.identities.Perm
        (pair.1.attributes.identities.map spelledOut) := by decide +kernel
    rw [(same pair member).mem_iff, List.mem_map]
  injective := by
    have some : ∀ pair ∈ spelled, ∀ a ∈ pair.1.attributes.identities,
        a ∈ [Atom.text "x", Atom.text "y"] := by decide +kernel
    have apart : ∀ a ∈ [Atom.text "x", Atom.text "y"], ∀ b ∈ [Atom.text "x", Atom.text "y"],
        spelledOut a = spelledOut b → a = b := by decide +kernel
    rintro a ⟨pair, member, has⟩ b ⟨pair', member', has'⟩ same
    exact apart a (some pair member a has) b (some pair' member' b has') same
  order := by
    refine ⟨spelled, .refl _, Relation.sort_of_proper ?_ (by decide) ?_,
      Relation.sort_of_proper ?_ (by decide) ?_⟩
    · exact List.forall_mem_map.mpr fun pair member => (proper_spelled pair member).1
    · unfold Relation.Ordered
      decide +kernel
    · exact List.forall_mem_map.mpr fun pair member => (proper_spelled pair member).2
    · unfold Relation.Ordered
      decide +kernel

theorem optimize_renamed_spelled : ∃ plan plan' e,
    (plainOptimizer.optimize (fun _ => 0) 0 ∅ (listOf (spelled.map Prod.fst))).result = .ok plan ∧
      (plainOptimizer.optimize (fun _ => 0) 0 ∅ (listOf (spelled.map Prod.snd))).result =
        .ok plan' ∧
      Counterpart spelled plan plan' ∧
      (plainOptimizer.optimize (fun _ => 0) 0 ∅ (listOf (spelled.map Prod.fst))).effort = some e ∧
      (plainOptimizer.optimize (fun _ => 0) 0 ∅ (listOf (spelled.map Prod.snd))).effort =
        some e := by
  obtain ⟨first, second, same, _⟩ := @optimize_renamed plainOptimizer plainOptimizer .sharedAttributes
    spelledOut spelled (listOf (spelled.map Prod.fst)) (listOf (spelled.map Prod.snd)) .small .small
    rfl rfl rfl rfl rfl rfl (fun pair member => (proper_spelled pair member).1)
    (fun pair member => (proper_spelled pair member).2) renamed_spelled
  obtain ⟨plan, ok⟩ := (first (fun _ => 0) 0 rfl).mpr fun listens => absurd listens (by decide)
  obtain ⟨plan', ok'⟩ := (second (fun _ => 0) 0 rfl).mpr fun listens => absurd listens (by decide)
  obtain ⟨shapes, e, counted, counted'⟩ := same _ _ _ _ plan plan' ok ok'
  exact ⟨plan, plan', e, ok, ok', shapes, counted, counted'⟩

end Examples

end Optimizer

end JoinOrder
