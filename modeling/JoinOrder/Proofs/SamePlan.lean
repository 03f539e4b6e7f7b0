import JoinOrder.Proofs.Traversals
/-!
When plans are the same. A plan can be read back from two flat lists: the kinds of its nodes from the
top down, and its leaves from left to right. So two plans are the same exactly if they agree on both
lists, and what does not look at estimates cannot tell them apart. A plan is the same as itself unless
one of its relations is identified by what is no number.
-/

namespace JoinOrder

namespace Relation

variable {r s t : Relation}

theorem same_symm (same : r.same s = true) : s.same r = true := by
  obtain ⟨number, equal⟩ := same_iff.mp same
  exact same_iff.mpr ⟨equal ▸ number, equal.symm⟩

theorem same_trans (first : r.same s = true) (second : s.same t = true) : r.same t = true := by
  obtain ⟨number, equal⟩ := same_iff.mp first
  exact same_iff.mpr ⟨number, equal.trans (same_iff.mp second).2⟩

theorem same_self_iff : r.same r = true ↔ identity r ≠ .undefined :=
  same_iff.trans (and_iff_left rfl)

end Relation

namespace Plan

variable {p q : Plan}

/-- Sameness goes down both plans at once. -/
theorem same_induction {motive : Plan → Plan → Prop}
    (scan : ∀ r s v w, r.same s = true → motive (.scan r v) (.scan s w))
    (join : ∀ left left' right right' v w, motive left left' → motive right right' →
      motive (.join left right v) (.join left' right' w))
    (same : p.same q = true) : motive p q := by
  induction p generalizing q with
  | scan r v =>
    cases q with
    | scan s w => exact scan r s v w same
    | join => exact nomatch same
  | join left right v ihl ihr =>
    cases q with
    | scan => exact nomatch same
    | join left' right' w =>
      have sides := Bool.and_eq_true_iff.mp same
      exact join left left' right right' v w (ihl sides.1) (ihr sides.2)

/-! ### Reading a plan back -/

/-- The lists of a plan show where they end, whatever follows them: a join asks for two plans more and a
scan for one leaf. -/
theorem same_of_append {ks ls : List Bool} {rs ss : List Relation}
    (kinds : p.nodes.map isJoin ++ ks = q.nodes.map isJoin ++ ls)
    (leaves : List.Forall₂ (fun r s => r.same s = true) (p.leaves ++ rs) (q.leaves ++ ss)) :
    p.same q = true ∧ ks = ls ∧ List.Forall₂ (fun r s => r.same s = true) rs ss := by
  induction p generalizing q ks ls rs ss with
  | scan r v =>
    cases q with
    | scan s w =>
      have kinds := List.cons.inj kinds
      obtain ⟨same, leaves⟩ := List.forall₂_cons.mp leaves
      exact ⟨same, kinds.2, leaves⟩
    | join => exact nomatch kinds
  | join left right v ihl ihr =>
    cases q with
    | scan => exact nomatch kinds
    | join left' right' w =>
      simp only [nodes, Plan.leaves, List.map_cons, List.map_append, List.cons_append,
        List.append_assoc, List.cons.injEq] at kinds leaves
      have first := ihl kinds.2 leaves
      have second := ihr first.2.1 first.2.2
      exact ⟨Bool.and_eq_true_iff.mpr ⟨first.1, second.1⟩, second.2⟩

theorem kinds_eq_of_same (same : p.same q = true) : p.nodes.map isJoin = q.nodes.map isJoin := by
  refine same_induction (motive := fun p q => p.nodes.map isJoin = q.nodes.map isJoin)
    (fun _ _ _ _ _ => rfl) ?_ same
  intro left left' right right' v w ihl ihr
  simp only [nodes, List.map_cons, List.map_append, ihl, ihr, isJoin, isScan]

theorem leaves_same_of_same (same : p.same q = true) :
    List.Forall₂ (fun r s => r.same s = true) p.leaves q.leaves := by
  refine same_induction
    (motive := fun p q => List.Forall₂ (fun r s => r.same s = true) p.leaves q.leaves) ?_ ?_ same
  · intro r s v w same
    exact .cons same .nil
  · intro left left' right right' v w ihl ihr
    exact List.rel_append ihl ihr

theorem same_iff_lists (p q : Plan) :
    p.same q = true ↔ p.nodes.map isJoin = q.nodes.map isJoin ∧
      List.Forall₂ (fun r s => r.same s = true) p.leaves q.leaves := by
  constructor
  · intro same
    exact ⟨kinds_eq_of_same same, leaves_same_of_same same⟩
  · rintro ⟨kinds, leaves⟩
    exact (same_of_append (congrArg (· ++ []) kinds) (List.rel_append leaves .nil)).1

/-! ### How far sameness is an equivalence -/

theorem same_symm (same : p.same q = true) : q.same p = true := by
  refine same_induction (motive := fun p q => q.same p = true) ?_ ?_ same
  · intro r s v w same
    exact Relation.same_symm same
  · intro left left' right right' v w ihl ihr
    exact Bool.and_eq_true_iff.mpr ⟨ihl, ihr⟩

theorem same_trans {r : Plan} (first : p.same q = true) (second : q.same r = true) :
    p.same r = true := by
  refine same_induction (motive := fun p q => ∀ {r}, q.same r = true → p.same r = true) ?_ ?_
    first second
  · intro r s v w same other second
    cases other with
    | scan => exact Relation.same_trans same second
    | join => exact nomatch second
  · intro left left' right right' v w ihl ihr other second
    cases other with
    | scan => exact nomatch second
    | join =>
      have sides := Bool.and_eq_true_iff.mp second
      exact Bool.and_eq_true_iff.mpr ⟨ihl sides.1, ihr sides.2⟩

theorem same_self_iff : p.same p = true ↔ ∀ r ∈ p.leaves, identity r ≠ .undefined := by
  rw [same_iff_lists, and_iff_right rfl, List.forall₂_same]
  simp only [Relation.same_self_iff]

/-! ### What same plans share -/

theorem identities_eq_of_same (same : p.same q = true) :
    p.leaves.map identity = q.leaves.map identity := by
  refine same_induction (motive := fun p q => p.leaves.map identity = q.leaves.map identity) ?_ ?_ same
  · intro r s v w same
    exact congrArg ([·]) (Relation.same_iff.mp same).2
  · intro left left' right right' v w ihl ihr
    simp only [leaves, List.map_append, ihl, ihr]

theorem relations_same_of_same (same : p.same q = true) : p.relations.same q.relations = true := by
  rw [IdSet.same_iff, relations_eq_ofList, relations_eq_ofList]
  exact IdSet.identities_ofList_congr fun a => by rw [identities_eq_of_same same]

theorem depth_eq_of_same (same : p.same q = true) : p.depth = q.depth := by
  refine same_induction (motive := fun p q => p.depth = q.depth) (fun _ _ _ _ _ => rfl) ?_ same
  intro left left' right right' v w ihl ihr
  simp only [depth, ihl, ihr]

/-- Whether a join is linear depends on which of its sides are scans, so both are carried along. -/
theorem isLinear_eq_of_same (same : p.same q = true) : p.isLinear = q.isLinear := by
  have both := same_induction
    (motive := fun p q => p.isScan = q.isScan ∧ p.isLinear = q.isLinear)
    (fun _ _ _ _ _ => ⟨rfl, rfl⟩) ?_ same
  · exact both.2
  · intro left left' right right' v w ihl ihr
    exact ⟨rfl, by simp only [isLinear, ihl, ihr]⟩

theorem hash_eq_of_same {H : Type} (ofAtom : Atom → H) (ofSequence : List H → H)
    (same : p.same q = true) : p.hash ofAtom ofSequence = q.hash ofAtom ofSequence := by
  refine same_induction
    (motive := fun p q => p.hash ofAtom ofSequence = q.hash ofAtom ofSequence) ?_ ?_ same
  · intro r s v w same
    simp only [hash, (Relation.same_iff.mp same).2]
  · intro left left' right right' v w ihl ihr
    simp only [hash, ihl, ihr]

/-- Joins of any two models are the same exactly if their sides are. -/
theorem same_joinWith_iff {model model' : CostModel} {asked asked' : Nat}
    {left left' right right' joined joined' : Plan}
    (one : joinWith model asked left right = .ok joined)
    (other : joinWith model' asked' left' right' = .ok joined') :
    joined.same joined' = true ↔ left.same left' = true ∧ right.same right' = true := by
  cases eq_join_of_joinWith one with
  | intro v one =>
    cases eq_join_of_joinWith other with
    | intro w other =>
      rw [one.2, other.2]
      exact Bool.and_eq_true_iff

/-- Two plans are the same exactly if the kinds of their nodes from the top down agree, and so do their
leaves from left to right, whatever any node is estimated at. This is symmetric and transitive, and a plan
is the same as itself exactly if all its relations are identified by something that equals itself. Plans
that are the same have the same relations and the same depth, are linear or not alike, and have the same
hash, however identities and lists of hashes are hashed. Two joins that were made under any two models are
the same exactly if both of their sides are. -/
theorem same_iff_kinds_and_leaves (p q : Plan) :
    (p.same q = true ↔ p.nodes.map isJoin = q.nodes.map isJoin ∧
      List.Forall₂ (fun r s => r.same s = true) p.leaves q.leaves) ∧
    (p.same q = true → q.same p = true) ∧
    (∀ r, p.same q = true → q.same r = true → p.same r = true) ∧
    (p.same p = true ↔ ∀ r ∈ p.leaves, identity r ≠ .undefined) ∧
    (p.same q = true → p.relations.same q.relations = true ∧ p.depth = q.depth ∧
      p.isLinear = q.isLinear ∧ ∀ {H : Type} (ofAtom : Atom → H) (ofSequence : List H → H),
        p.hash ofAtom ofSequence = q.hash ofAtom ofSequence) ∧
    ∀ model model' asked asked' r s joined joined', joinWith model asked p r = .ok joined →
      joinWith model' asked' q s = .ok joined' →
      (joined.same joined' = true ↔ p.same q = true ∧ r.same s = true) := by
  refine ⟨same_iff_lists p q, same_symm, fun r => same_trans, same_self_iff, ?_, ?_⟩
  · intro same
    exact ⟨relations_same_of_same same, depth_eq_of_same same, isLinear_eq_of_same same,
      fun ofAtom ofSequence => hash_eq_of_same ofAtom ofSequence same⟩
  · intro model model' asked asked' r s joined joined' one other
    exact same_joinWith_iff one other

section Examples

open Problem (relationWith)

/-- A relation can be identified by what is no number. The plan that scans it does not equal itself. -/
theorem same_not_reflexive : ∃ r,
    (Relation.build .start (.int 1) (.array []) (.real (0 / 0)) (.text "A")).1 = .ok r ∧
      (ofRelation r).same (ofRelation r) = false := by
  refine ⟨⟨.real (0 / 0), .text "A", .int 1, ∅, []⟩, rfl, ?_⟩
  decide +kernel

/-- Two relations joined under two models that estimate them differently, and a third one joined to both
results. The hash of a node lists the identities that it was made from. -/
theorem same_iff_kinds_and_leaves_twoModels :
    let a := ofRelation (relationWith 1 "A" 10 ["x"])
    let b := ofRelation (relationWith 2 "B" 20 ["x"])
    let c := ofRelation (relationWith 3 "C" 30 [])
    ∃ p q top other, joinWith (.sharedAttributes .small) 0 a b = .ok p ∧
      joinWith (.crossProduct .small) 0 a b = .ok q ∧ p.estimate = 100 ∧ q.estimate = 200 ∧
      p.same q = true ∧ p.depth = q.depth ∧
      p.hash List.singleton List.flatten = q.hash List.singleton List.flatten ∧
      joinWith (.crossProduct .small) 0 p c = .ok top ∧
      joinWith (.sharedAttributes .small) 0 q c = .ok other ∧ top.same other = true := by
  intro a b c
  have made : ∃ p q, joinWith (.sharedAttributes .small) 0 a b = .ok p ∧
      joinWith (.crossProduct .small) 0 a b = .ok q ∧ p.estimate = 100 ∧ q.estimate = 200 ∧
      p.nodes.map isJoin = q.nodes.map isJoin ∧
      List.Forall₂ (fun r s => r.same s = true) p.leaves q.leaves ∧
      ∃ top other, joinWith (.crossProduct .small) 0 p c = .ok top ∧
        joinWith (.sharedAttributes .small) 0 q c = .ok other := by
    refine ⟨_, _, rfl, rfl, ?_, ?_, ?_, ?_, _, _, rfl, rfl⟩ <;> decide +kernel
  obtain ⟨p, q, first, second, less, more, kinds, leaves, top, other, above, beside⟩ := made
  obtain ⟨iff, _, _, _, shared, joins⟩ := same_iff_kinds_and_leaves p q
  have same := iff.mpr ⟨kinds, leaves⟩
  obtain ⟨_, depth, _, hash⟩ := shared same
  have itself : c.same c = true := by decide +kernel
  have joined := (joins _ _ _ _ c c top other above beside).mpr ⟨same, itself⟩
  exact ⟨p, q, top, other, first, second, less, more, same, depth, hash _ _, above, beside, joined⟩

end Examples

end Plan

end JoinOrder
