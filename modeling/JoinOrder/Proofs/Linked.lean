import JoinOrder.Proofs.CrossProducts
import JoinOrder.Proofs.LeastTuples
/-!
Connected relations and the trees they need. Relations are linked if an edge leads across every division
of them, which is what a connected graph is.

Some best tree over linked relations has no cross product. Of a best split each side can be reduced to
one of its components, because what has no attribute in common with the rest of its side may as well be
joined to the other side first. Doing this on both sides leaves two linked sides, and no more tuples.
-/

namespace JoinOrder

open CostModel Plan Search JoinGraph

variable {xs ys zs ks ws us : List Relation} {r s : Relation} {order : Order}

/-- However the relations are divided in two, an edge leads across. -/
def Linked (xs : List Relation) : Prop :=
  ∀ p : Relation → Bool, (∃ r ∈ xs, p r = true) → (∃ s ∈ xs, p s = false) →
    ∃ r ∈ xs, ∃ s ∈ xs, p r = true ∧ p s = false ∧ r.Touches s

theorem Linked.congr (h : Linked xs) (same : ∀ r, r ∈ xs ↔ r ∈ ys) : Linked ys := by
  intro p yes no
  simp only [← same] at yes no ⊢
  exact h p yes no

theorem Linked.perm (h : Linked xs) (same : xs.Perm ys) : Linked ys := h.congr fun _ => same.mem_iff

theorem linked_singleton (r : Relation) : Linked [r] := by
  rintro p ⟨s, member, yes⟩ ⟨t, member', no⟩
  rw [List.mem_singleton] at member member'
  rw [member] at yes
  rw [member', yes] at no
  contradiction

/-- If relations are linked that are all on one side of a division, it is enough to look at divisions that
have them on the first side. -/
theorem linked_of_core (core : Linked ks) (sub : ks ⊆ xs) (h : ∀ p : Relation → Bool,
    (∀ r ∈ ks, p r = true) → (∃ s ∈ xs, p s = false) →
      ∃ r ∈ xs, ∃ s ∈ xs, p r = true ∧ p s = false ∧ r.Touches s) : Linked xs := by
  intro p yes no
  by_cases all : ∀ r ∈ ks, p r = true
  · exact h p all no
  by_cases none : ∀ r ∈ ks, p r = false
  · obtain ⟨r, inXs, s, inXs', yes', no', touches⟩ :=
      h (fun r => !p r) (by simpa using none) (by simpa using yes)
    exact ⟨s, inXs', r, inXs, by simpa using no', by simpa using yes', touches.symm⟩
  · obtain ⟨r, inKs, s, inKs', yes', no', touches⟩ :=
      core p (by simpa using none) (by simpa using all)
    exact ⟨r, sub inKs, s, sub inKs', yes', no', touches⟩

/-- What is linked stays linked without a part of it, if the others are linked to a core and the part has
no edge to those outside of the core. -/
theorem Linked.drop (h : Linked (ks ++ ws ++ us)) (core : Linked ks) (some : ks ≠ [])
    (apart : ¬ Bridged ws us) : Linked (ks ++ us) := by
  classical
  refine linked_of_core core (List.subset_append_left ks us) fun p all ⟨s, member, no⟩ => ?_
  obtain ⟨k, inKs⟩ := List.exists_mem_of_ne_nil ks some
  have outside : s ∈ us := (List.mem_append.mp member).resolve_left fun inside => by
    rw [all s inside] at no
    contradiction
  -- An edge that leads out of the relations that are not on the side of the core leads to that side.
  obtain ⟨t, _, u, inside, here, there, touches⟩ := h (fun t => decide (t ∈ us ∧ p t = false))
    ⟨s, List.mem_append_right _ outside, by simp [outside, no]⟩
    ⟨k, by simp [inKs], by simp [all k inKs]⟩
  obtain ⟨inUs, no'⟩ := of_decide_eq_true here
  have yes : u ∈ us → p u = true := fun inUs' => by simpa [inUs'] using there
  rcases List.mem_append.mp inside with inKsWs | inUs'
  · rcases List.mem_append.mp inKsWs with inKs' | inWs
    · exact ⟨u, List.mem_append_left _ inKs', t, List.mem_append_right _ inUs, all u inKs', no',
        touches.symm⟩
    · exact absurd ⟨u, inWs, t, inUs, touches.symm⟩ apart
  · exact ⟨u, List.mem_append_right _ inUs', t, List.mem_append_right _ inUs, yes inUs', no',
      touches.symm⟩

theorem Linked.bridged (h : Linked (xs ++ ys)) (nodup : (xs ++ ys).Nodup) (some : xs ≠ [])
    (some' : ys ≠ []) : Bridged xs ys := by
  classical
  obtain ⟨r, inXs⟩ := List.exists_mem_of_ne_nil xs some
  obtain ⟨s, inYs⟩ := List.exists_mem_of_ne_nil ys some'
  have other {t : Relation} (inYs : t ∈ ys) : t ∉ xs := fun inXs =>
    List.disjoint_of_nodup_append nodup inXs inYs
  obtain ⟨t, _, u, inside, here, there, touches⟩ := h (fun t => decide (t ∈ xs))
    ⟨r, List.mem_append_left _ inXs, by simpa using inXs⟩
    ⟨s, List.mem_append_right _ inYs, by simpa using other inYs⟩
  refine ⟨t, of_decide_eq_true here, u, ?_, touches⟩
  exact (List.mem_append.mp inside).resolve_left (of_decide_eq_false there)

/-! ### Components -/

theorem JoinGraph.Grown.linked {rs : List Relation} (h : Grown rs) : Linked rs := by
  rintro p ⟨r, member, yes⟩ ⟨s, member', no⟩
  by_contra none
  have closed : ClosedIn rs (rs.filter p) := by
    intro t inside u inRs touches
    obtain ⟨inRs', here⟩ := List.mem_filter.mp inside
    refine List.mem_filter.mpr ⟨inRs, ?_⟩
    by_contra there
    exact none ⟨t, inRs', u, inRs, here, Bool.eq_false_iff.mpr there, touches⟩
  have all := h.subset_of_closed (List.Subset.refl rs) closed member
    (List.mem_filter.mpr ⟨member, yes⟩)
  rw [(List.mem_filter.mp (all member')).2] at no
  contradiction

/-- Every relation is in a linked part that has no attribute in common with the rest. -/
theorem exists_component (distinct : Distinct xs) (member : r ∈ xs) :
    ∃ p : Relation → Bool, p r = true ∧ Linked (xs.filter p) ∧
      ¬ Bridged (xs.filter p) (xs.filter (!p ·)) := by
  obtain ⟨isGroup, inGroup⟩ := isGroup_reach distinct member
  generalize (ofSorted xs).reach r = group at isGroup inGroup
  have inside {s : Relation} (known : s ∈ xs) : s.isIn group = true ↔ s ∈ group :=
    Relation.isIn_iff_mem distinct isGroup.subset known
  refine ⟨(·.isIn group), (inside member).mpr inGroup, isGroup.grown.linked.congr fun s => ?_, ?_⟩
  · rw [List.mem_filter]
    exact ⟨fun inGroup => ⟨isGroup.subset inGroup, (inside (isGroup.subset inGroup)).mpr inGroup⟩,
      fun ⟨known, here⟩ => (inside known).mp here⟩
  · rintro ⟨s, here, t, there, touches⟩
    obtain ⟨known, here⟩ := List.mem_filter.mp here
    obtain ⟨known', there⟩ := List.mem_filter.mp there
    have reached := isGroup.closed s ((inside known).mp here) t known' touches
    simp [(inside known').mpr reached] at there

/-- A graph is connected if its relations are linked. -/
theorem isConnected_iff_linked (distinct : Distinct xs) (nonempty : xs ≠ []) :
    (ofSorted xs).isConnected = true ↔ Linked xs := by
  obtain ⟨r, member⟩ := List.exists_mem_of_ne_nil xs nonempty
  obtain ⟨isGroup, inGroup⟩ := isGroup_reach distinct member
  rw [isConnected_iff distinct nonempty, length_groups_eq_one_iff distinct member]
  constructor
  · intro all
    exact isGroup.grown.linked.congr fun s => ⟨fun inside => isGroup.subset inside, fun known => all known⟩
  · intro linked s known
    by_contra outside
    have inside {t : Relation} (known : t ∈ xs) :
        t.isIn ((ofSorted xs).reach r) = true ↔ t ∈ (ofSorted xs).reach r :=
      Relation.isIn_iff_mem distinct isGroup.subset known
    obtain ⟨t, known, u, known', here, there, touches⟩ :=
      linked (·.isIn ((ofSorted xs).reach r)) ⟨r, member, (inside member).mpr inGroup⟩
        ⟨s, known, Bool.eq_false_iff.mpr (mt (inside known).mp outside)⟩
    have reached := isGroup.closed t ((inside known).mp here) u known' touches
    rw [(inside known').mpr reached] at there
    contradiction

/-! ### A best tree without cross products -/

/-- One component of a side may stay there while the others go to the other side. -/
theorem exists_linked_side (order : Order) (h : IsInput (xs ++ ys)) (member : r ∈ xs) :
    ∃ p : Relation → Bool, p r = true ∧ Linked (xs.filter p) ∧
      ¬ Bridged (xs.filter p) (xs.filter (!p ·)) ∧
        joint order (xs.filter p) (xs.filter (!p ·) ++ ys) ≤ joint order xs ys := by
  obtain ⟨p, yes, linked, apart⟩ := exists_component h.left.distinct member
  have parts := (List.filter_append_perm p xs).symm
  refine ⟨p, yes, linked, apart, ?_⟩
  rw [joint_perm parts (.refl ys) (h.left.perm parts.symm) h.right]
  exact joint_le_of_apart apart (h.perm (parts.symm.append_right ys))

/-- Some best split of linked relations leaves both sides linked. -/
theorem exists_linked_split (order : Order) (h : IsInput xs) (linked : Linked xs)
    (two : 2 ≤ xs.length) :
    ∃ ls rs, (ls ++ rs).Perm xs ∧ ls ≠ [] ∧ rs ≠ [] ∧ Linked ls ∧ Linked rs ∧
      joint order ls rs ≤ least order xs := by
  obtain ⟨⟨as, bs⟩, split, _, attained⟩ := exists_split_least order h two
  obtain ⟨a, inAs⟩ := List.exists_mem_of_ne_nil as split.left_ne_nil
  obtain ⟨b, inBs⟩ := List.exists_mem_of_ne_nil bs split.right_ne_nil
  -- One component of the left side stays there, the others go to the right side. One component of what
  -- is there then stays on the right side, the others go back to the left.
  obtain ⟨p, yes, core, _, le⟩ := exists_linked_side order (h.perm split.perm) inAs
  have parts := (List.filter_append_perm p as).symm
  have some : as.filter p ≠ [] := List.ne_nil_of_mem (List.mem_filter.mpr ⟨inAs, yes⟩)
  generalize as.filter p = ks at core le parts some
  generalize as.filter (!p ·) = os at le parts
  have turned : (os ++ bs ++ ks).Perm xs :=
    calc List.Perm (os ++ bs ++ ks) (ks ++ (os ++ bs)) := List.perm_append_comm
      List.Perm _ (ks ++ os ++ bs) := .of_eq (List.append_assoc ..).symm
      List.Perm _ (as ++ bs) := parts.symm.append_right bs
      List.Perm _ xs := split.perm
  obtain ⟨q, yes', core', apart, le'⟩ :=
    exists_linked_side order (h.perm turned) (List.mem_append_right os inBs)
  have parts' := (List.filter_append_perm q (os ++ bs)).symm
  have some' : (os ++ bs).filter q ≠ [] :=
    List.ne_nil_of_mem (List.mem_filter.mpr ⟨List.mem_append_right os inBs, yes'⟩)
  generalize (os ++ bs).filter q = ws at core' apart le' parts' some'
  generalize (os ++ bs).filter (!q ·) = us at apart le' parts'
  have whole : (ks ++ ws ++ us).Perm xs :=
    calc List.Perm (ks ++ ws ++ us) (ks ++ (ws ++ us)) := .of_eq (List.append_assoc ..)
      List.Perm _ (ks ++ (os ++ bs)) := parts'.symm.append_left ks
      List.Perm _ (os ++ bs ++ ks) := List.perm_append_comm
      List.Perm _ xs := turned
  have exchanged : (ks ++ us ++ ws).Perm (ks ++ ws ++ us) := by
    rw [List.append_assoc, List.append_assoc]
    exact List.perm_append_comm.append_left ks
  have inputs := h.perm whole
  have left : IsInput (ks ++ us) := (inputs.perm exchanged).left
  refine ⟨ks ++ us, ws, exchanged.trans whole, List.append_ne_nil_of_left_ne_nil some us, some',
    (linked.perm whole.symm).drop core some apart, core', ?_⟩
  calc joint order (ks ++ us) ws
      = joint order ws (us ++ ks) := by
        rw [joint_comm, joint_perm (.refl ws) List.perm_append_comm (inputs.perm exchanged).right
          (left.perm List.perm_append_comm)]
    _ ≤ joint order (os ++ bs) ks := le'
    _ = joint order ks (os ++ bs) := joint_comm _ _
    _ ≤ joint order as bs := le
    _ = least order xs := attained.symm

/-- Linked relations have a tree without cross products that no other tree is better than. -/
theorem exists_tree_linked (order : Order) (h : IsInput xs) (linked : Linked xs) (some : xs ≠ []) :
    ∃ tree, IsTree sharedOf tree ∧ tree.leaves.Perm xs ∧ tree.crossJoins = [] ∧
      tree.estimate = least order xs := by
  induction length : xs.length using Nat.strongRecOn generalizing xs with
  | ind n ih =>
    by_cases two : 2 ≤ xs.length
    · obtain ⟨ls, rs, perm, someLs, someRs, linkedLs, linkedRs, le⟩ :=
        exists_linked_split order h linked two
      have inputs := h.perm perm
      have lengths : ls.length + rs.length = xs.length := by rw [← List.length_append, perm.length_eq]
      have longLs := List.length_pos_iff.mpr someLs
      have longRs := List.length_pos_iff.mpr someRs
      obtain ⟨left, treeLeft, leavesLeft, noneLeft, leastLeft⟩ :=
        ih ls.length (by omega) inputs.left linkedLs someLs rfl
      obtain ⟨right, treeRight, leavesRight, noneRight, leastRight⟩ :=
        ih rs.length (by omega) inputs.right linkedRs someRs rfl
      have built : IsTree sharedOf (joined sharedOf left right) := .join treeLeft treeRight
      have leaves : (joined sharedOf left right).leaves.Perm xs :=
        (leavesLeft.append leavesRight).trans perm
      have bridged : Bridged left.leaves right.leaves := (bridged_congr leavesLeft leavesRight).mpr
        ((linked.perm perm.symm).bridged inputs.distinct.nodup someLs someRs)
      refine ⟨_, built, leaves, ?_, le_antisymm ?_ (least_le built leaves h)⟩
      · rw [joined, crossJoins_join, noneLeft, noneRight, if_pos bridged]
        rfl
      · rw [estimate_joined, sharedOf, productOf, shared_attributes, leastLeft, leastRight,
          common_congr leavesLeft leavesRight]
        exact le
    · have one : xs.length = 1 := by
        have := List.length_pos_iff.mpr some
        omega
      obtain ⟨r, rfl⟩ := List.length_eq_one_iff.mp one
      exact ⟨.ofRelation r, .scan r, .refl _, rfl, (least_singleton r).symm⟩

end JoinOrder
