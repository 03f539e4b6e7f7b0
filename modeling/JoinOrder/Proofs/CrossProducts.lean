import JoinOrder.Proofs.Components
import JoinOrder.Proofs.InputOrder
import JoinOrder.Proofs.Optimality
/-!
Cross products of join trees. A join is one if the relations on its two sides have no attribute in
common. With one join a tree brings the relations of at most two components together, and only a cross
product does not meet a component with both of its sides; so every tree over all relations has a cross
product for every component but one. A tree that grows every component along its edges and then joins
the components has no others.
-/

namespace JoinOrder

/-! ### Nodes and their handles -/

namespace Handles

/-- The handles stand for nodes: whatever has one handle is one node. -/
def Name (node : Nat → Plan) : Plan → Handles → Prop
  | p@(.scan ..), handles => node handles.top = p
  | p@(.join left right _), handles =>
    node handles.top = p ∧ Name node left handles.sides.1 ∧ Name node right handles.sides.2.1

def Tells (handles : Handles) (plan : Plan) : Prop := ∃ node : Nat → Plan, Name node plan handles

/-- A handle of its own for every node, in the order in which nodes are listed. -/
def number : Nat → Plan → Handles
  | k, .scan .. => .scan k
  | k, .join left right _ =>
    .join k (number (k + 1) left) (number (k + 1 + left.nodes.length) right)

variable {node : Nat → Plan} {p left right : Plan} {tuples : Value} {handles : Handles}

theorem Name.top_eq (h : Name node p handles) : node handles.top = p := by
  cases p with
  | scan => exact h
  | join => exact h.1

theorem name_number (p : Plan) {all before after : List Plan}
    (is : all = before ++ (p.nodes ++ after)) :
    Name (fun k => all[k]?.getD default) p (number before.length p) := by
  induction p generalizing before after with
  | scan r tuples => simp [Name, number, top, is, Plan.nodes]
  | join left right tuples ihl ihr =>
    rw [Plan.nodes] at is
    have inLeft := @ihl (before ++ [.join left right tuples]) (right.nodes ++ after) (by simp [is])
    have inRight := @ihr (before ++ .join left right tuples :: left.nodes) after (by simp [is])
    rw [List.length_append, List.length_singleton] at inLeft
    rw [List.length_append, List.length_cons, Nat.add_comm left.nodes.length,
      ← Nat.add_assoc] at inRight
    exact ⟨by simp [number, top, is], inLeft, inRight⟩

theorem tells_number (p : Plan) : (number 0 p).Tells p :=
  ⟨_, @name_number p p.nodes [] [] (List.append_nil _).symm⟩

/-- A node with distinct leaves is not joined with itself. -/
theorem Name.apart (h : Name node (.join left right tuples) handles)
    (nodup : (left.leaves ++ right.leaves).Nodup) : handles.sides.2.2 = false := by
  cases handles with
  | scan => rfl
  | join n leftHandles rightHandles =>
    refine beq_eq_false_iff_ne.mpr fun one => ?_
    have same : left = right := by
      rw [← h.2.1.top_eq, ← h.2.2.top_eq]
      exact congrArg node one
    obtain ⟨r, leaf⟩ := List.exists_mem_of_ne_nil _ left.leaves_ne_nil
    exact List.disjoint_of_nodup_append nodup leaf (same ▸ leaf)

end Handles

/-! ### Cross products -/

open JoinGraph (Bridged)

namespace Plan

/-- The two sides have no attribute in common. -/
def IsCross : Plan → Prop
  | .scan .. => False
  | .join left right _ => ¬ Bridged left.leaves right.leaves

instance : DecidablePred IsCross
  | .scan .. => inferInstanceAs (Decidable False)
  | .join left right _ => inferInstanceAs (Decidable (¬ Bridged left.leaves right.leaves))

def crossJoins (p : Plan) : List Plan := p.joins.filter fun join => IsCross join

theorem crossJoins_join (left right : Plan) (tuples : Value) :
    (Plan.join left right tuples).crossJoins = left.crossJoins ++ right.crossJoins ++
      if Bridged left.leaves right.leaves then [] else [.join left right tuples] := by
  rw [crossJoins, joins, List.filter_append, List.filter_append]
  by_cases bridged : Bridged left.leaves right.leaves <;> simp [crossJoins, IsCross, bridged]

end Plan

namespace SlotTable

variable {α : Type} [Identified α] {a b : SlotTable α}

/-- Tables without common members are listed together. -/
theorem perm_union (distinct : Distinct (b.members ++ a.members)) :
    (a.union b).members.Perm (b.members ++ a.members) := by
  unfold union
  dsimp only
  have start (table : SlotTable α) (same : table.members.Perm a.members) :
      (table.insertAll b.members).members.Perm (b.members ++ a.members) := by
    have all := same.append_left b.members
    exact (perm_insertAll table (distinct.perm all)).trans all
  split
  · exact start _ ((perm_resize ..).trans (perm_copy a))
  · exact start _ (perm_copy a)

end SlotTable

namespace JoinGraph

open Plan Handles

variable {xs rs sources targets sources' targets' : List Relation} {groups : List (List Relation)}
  {p plan : Plan} {handles : Handles} {node : Nat → Plan}

theorem bridged_congr (left : sources.Perm sources') (right : targets.Perm targets') :
    Bridged sources targets ↔ Bridged sources' targets' := by
  simp only [Bridged, left.mem_iff, right.mem_iff]

/-- The table of a plan lists its relations, and the joins that are found are its cross products. -/
theorem examine_eq (distinct : Distinct xs) (sub : p.leaves ⊆ xs) (once : Distinct p.leaves)
    (names : Name node p handles) :
    ∃ table, (ofSorted xs).examine p handles = .ok (table, p.crossJoins) ∧
      table.members.Perm p.leaves := by
  induction p generalizing handles with
  | scan r tuples => exact ⟨.ofList [r], rfl, SlotTable.perm_ofList once⟩
  | join left right tuples ihl ihr =>
    rw [leaves] at sub once
    have partLeft := List.sublist_append_left left.leaves right.leaves
    have partRight := List.sublist_append_right left.leaves right.leaves
    have subLeft := List.Subset.trans partLeft.subset sub
    have subRight := List.Subset.trans partRight.subset sub
    obtain ⟨leftTable, leftExamined, leftPerm⟩ := ihl subLeft (once.sublist partLeft) names.2.1
    obtain ⟨rightTable, rightExamined, rightPerm⟩ := ihr subRight (once.sublist partRight) names.2.2
    have nodup := once.nodup
    have sides : handles.sides = (handles.sides.1, handles.sides.2.1, false) :=
      Prod.ext rfl (Prod.ext rfl (names.apart nodup))
    have both : (rightTable.members ++ leftTable.members).Perm (left.leaves ++ right.leaves) :=
      (rightPerm.append leftPerm).trans List.perm_append_comm
    have between : (ofSorted xs).joinsBetween rightTable.members leftTable.members =
        .ok (decide (Bridged left.leaves right.leaves)) := by
      rw [joinsBetween_eq distinct (List.Subset.trans leftPerm.subset subLeft)
        (List.Subset.trans rightPerm.subset subRight)]
      · exact congrArg Except.ok (decide_eq_decide.mpr (bridged_congr leftPerm rightPerm))
      · exact fun r inLeft inRight =>
          List.disjoint_of_nodup_append nodup (leftPerm.subset inLeft) (rightPerm.subset inRight)
    refine ⟨leftTable.union rightTable, ?_, (SlotTable.perm_union (once.perm both)).trans both⟩
    rw [examine, sides, crossJoins_join]
    simp [leftExamined, rightExamined, between, bind, Except.bind, pure, Except.pure]

theorem crossProducts_eq (distinct : Distinct xs) (sub : p.leaves ⊆ xs) (once : Distinct p.leaves)
    (tells : handles.Tells p) : (ofSorted xs).crossProducts p handles = .ok p.crossJoins := by
  obtain ⟨node, names⟩ := tells
  obtain ⟨table, examined, _⟩ := examine_eq distinct sub once names
  rw [crossProducts, examined]
  rfl

/-! ### Every tree needs them -/

/-- A relation of the plan is in the group. -/
def meets (p : Plan) (group : List Relation) : Bool := p.leaves.any (·.isIn group)

theorem meets_of_mem {r : Relation} {group : List Relation} (leaf : r ∈ p.leaves)
    (inside : r ∈ group) : meets p group = true :=
  List.any_eq_true.mpr ⟨r, leaf, Relation.isIn_of_mem inside⟩

theorem countP_or_add_countP_and {α : Type} (f g : α → Bool) (xs : List α) :
    xs.countP (fun x => f x || g x) + xs.countP (fun x => f x && g x) = xs.countP f + xs.countP g := by
  induction xs with
  | nil => rfl
  | cons x xs ih =>
    simp only [List.countP_cons]
    cases f x <;> cases g x <;> simp <;> omega

/-- Every relation is in one group at most. -/
theorem countP_isIn_le_one {r : Relation} (distinct : Distinct xs) (member : r ∈ xs)
    (apart : AreApart xs groups) : groups.countP (r.isIn ·) ≤ 1 := by
  obtain ⟨isGroup, disjoint⟩ := apart
  induction groups with
  | nil => exact Nat.zero_le 1
  | cons group groups ih =>
    obtain ⟨others, disjoint⟩ := List.pairwise_cons.mp disjoint
    have inside {found : List Relation} (known : found ∈ group :: groups) :
        r.isIn found = true ↔ r ∈ found :=
      Relation.isIn_iff_mem distinct (isGroup found known).subset member
    rw [List.countP_cons]
    split
    case isTrue here =>
      have none : groups.countP (r.isIn ·) = 0 := List.countP_eq_zero.mpr fun other later there =>
        others other later ((inside List.mem_cons_self).mp here)
          ((inside (List.mem_cons_of_mem group later)).mp there)
      exact none ▸ le_rfl
    case isFalse =>
      exact ih (fun found later => isGroup found (List.mem_cons_of_mem group later)) disjoint

/-- A tree meets at most one group more than it has cross products. -/
theorem countP_meets_le (distinct : Distinct xs) (apart : AreApart xs groups)
    (all : ∀ r ∈ xs, ∃ group ∈ groups, r ∈ group) (sub : p.leaves ⊆ xs) :
    groups.countP (meets p) ≤ p.crossJoins.length + 1 := by
  induction p with
  | scan r tuples =>
    have one : meets (.scan r tuples) = (r.isIn ·) := funext fun group => Bool.or_false _
    rw [one]
    exact countP_isIn_le_one distinct (sub List.mem_cons_self) apart
  | join left right tuples ihl ihr =>
    rw [leaves] at sub
    have inLeft := ihl fun r member => sub (List.mem_append_left _ member)
    have inRight := ihr fun r member => sub (List.mem_append_right _ member)
    have sides := countP_or_add_countP_and (meets left) (meets right) groups
    have union : meets (.join left right tuples) =
        fun group => meets left group || meets right group := funext fun group => List.any_append
    rw [crossJoins_join, List.length_append, List.length_append, union]
    by_cases bridged : Bridged left.leaves right.leaves
    -- An attribute in common keeps both sides in one group, which is counted once only.
    · have shared : 0 < groups.countP fun group => meets left group && meets right group := by
        obtain ⟨r, leafLeft, s, leafRight, touches⟩ := bridged
        obtain ⟨group, member, inside⟩ := all r (sub (List.mem_append_left _ leafLeft))
        have other := (apart.isGroup group member).closed r inside s
          (sub (List.mem_append_right _ leafRight)) touches
        exact List.countP_pos_iff.mpr ⟨group, member, Bool.and_eq_true_iff.mpr
          ⟨meets_of_mem leafLeft inside, meets_of_mem leafRight other⟩⟩
      rw [if_pos bridged, List.length_nil]
      omega
    · rw [if_neg bridged, List.length_singleton]
      omega

/-- Every tree over all relations has a cross product for every group but one. -/
theorem length_groups_le (distinct : Distinct xs) (perm : p.leaves.Perm xs) :
    (ofSorted xs).groups.length ≤ p.crossJoins.length + 1 := by
  obtain ⟨apart, all⟩ := areApart_groups distinct
  have every : (ofSorted xs).groups.countP (meets p) = (ofSorted xs).groups.length := by
    refine List.countP_eq_length.mpr fun group member => ?_
    obtain ⟨reached, _⟩ := apart.isGroup group member
    obtain ⟨r, inside⟩ := List.exists_mem_of_ne_nil group reached.grown.ne_nil
    exact meets_of_mem (perm.symm.subset (reached.subset inside)) inside
  exact every ▸ countP_meets_le distinct apart all perm.subset

/-! ### A tree that has no others -/

/-- Relations that can be reached one by one have a tree without cross products. -/
theorem Grown.exists_tree (est : Plan → Plan → Int) (h : Grown rs) :
    ∃ p, IsTree est p ∧ p.leaves = rs ∧ p.crossJoins = [] := by
  induction h with
  | one r => exact ⟨.ofRelation r, .scan r, rfl, rfl⟩
  | @grow rs r s _ member touches ih =>
    obtain ⟨p, tree, leaves, none⟩ := ih
    have bridged : Bridged p.leaves [s] := ⟨r, leaves ▸ member, s, List.mem_singleton_self s, touches⟩
    refine ⟨.joined est p (.ofRelation s), .join tree (.scan s), ?_, ?_⟩
    · exact congrArg (· ++ [s]) leaves
    · rw [joined, crossJoins_join, none]
      exact if_pos bridged

/-- The trees of groups are joined one after the other, with a cross product at most for each join. -/
theorem exists_tree_flatten (est : Plan → Plan → Int) (nonempty : groups ≠ [])
    (grown : ∀ group ∈ groups, Grown group) :
    ∃ p, IsTree est p ∧ p.leaves = groups.flatten ∧ p.crossJoins.length + 1 ≤ groups.length := by
  induction groups with
  | nil => contradiction
  | cons group groups ih =>
    obtain ⟨p, tree, leaves, none⟩ := (grown group List.mem_cons_self).exists_tree est
    by_cases last : groups = []
    · exact ⟨p, tree, by simpa [last] using leaves, by simp [last, none]⟩
    · obtain ⟨q, others, leaves', few⟩ := ih last fun found later =>
        grown found (List.mem_cons_of_mem group later)
      refine ⟨.joined est p q, .join tree others, ?_, ?_⟩
      · rw [List.flatten_cons, ← leaves, ← leaves']
        rfl
      · have one : (if Bridged p.leaves q.leaves then []
            else [Plan.join p q (.int (est p q))]).length ≤ 1 := by
          split <;> simp
        rw [joined, crossJoins_join, none, List.nil_append, List.length_append, List.length_cons]
        omega

theorem exists_least_tree (est : Plan → Plan → Int) (distinct : Distinct xs) (nonempty : xs ≠ []) :
    ∃ p, IsTree est p ∧ p.leaves.Perm xs ∧ p.crossJoins.length + 1 = (ofSorted xs).groups.length := by
  obtain ⟨apart, all⟩ := areApart_groups distinct
  obtain ⟨r, member⟩ := List.exists_mem_of_ne_nil xs nonempty
  obtain ⟨group, some, _⟩ := all r member
  obtain ⟨p, tree, leaves, few⟩ := exists_tree_flatten est (List.ne_nil_of_mem some)
    fun group member => (apart.isGroup group member).grown
  have perm : p.leaves.Perm xs := leaves ▸ perm_flatten_groups distinct
  exact ⟨p, tree, perm, le_antisymm few (length_groups_le distinct perm)⟩

/-- A graph is connected if some tree has no cross product. -/
theorem isConnected_iff_exists_tree (distinct : Distinct xs) (nonempty : xs ≠ []) :
    (ofSorted xs).isConnected = true ↔ ∃ p : Plan, p.leaves.Perm xs ∧ p.crossJoins = [] := by
  rw [isConnected_iff distinct nonempty]
  obtain ⟨p, _, perm, least⟩ := exists_least_tree (fun _ _ => 0) distinct nonempty
  constructor
  · intro one
    exact ⟨p, perm, List.length_eq_zero_iff.mp (by omega)⟩
  · rintro ⟨q, perm', none⟩
    have few := length_groups_le distinct perm'
    rw [none, List.length_nil] at few
    omega

end JoinGraph

/-- Nothing is warned of if the graph of the relations is connected, and only then. -/
theorem Optimizer.warnings_eq_nil_iff {o : Optimizer} {relations sorted : List Relation}
    (wanted : o.settings.warnOnCrossProducts.truthy = true)
    (sorts : Relation.sort relations = .ok sorted) :
    o.warnings relations = .ok [] ↔ (JoinGraph.ofSorted sorted).isConnected = true := by
  unfold warnings
  rw [wanted, sorts]
  change (if (JoinGraph.ofSorted sorted).isConnected = true then _ else _) = _ ↔ _
  by_cases connected : (JoinGraph.ofSorted sorted).isConnected = true
  · simp only [connected, if_true]
    exact iff_of_true rfl trivial
  · rw [if_neg connected]
    refine iff_of_false (fun none => ?_) connected
    cases found : (JoinGraph.ofSorted sorted).components with
    | error e => simp [found, bind, Except.bind] at none
    | ok components =>
      simp only [found, bind, Except.bind] at none
      split at none
      · contradiction
      · simp [pure, Except.pure] at none

namespace JoinGraph

open Plan

variable {relations : List Relation} {collection : Item}

theorem ofItem_eq_ok_iff (list : collection.elements = .ok (relations.map .relation))
    {g : JoinGraph} :
    ofItem collection = .ok g ↔
      ∃ sorted, Relation.sort relations = .ok sorted ∧ ofSorted sorted = g := by
  rw [ofItem, Relation.sortItems_eq list]
  cases Relation.sort relations <;> simp [bind, Except.bind, pure, Except.pure]

theorem ofItem_isOk_iff (list : collection.elements = .ok (relations.map .relation))
    (distinct : Distinct relations) (named : ∀ r ∈ relations, r.IsNamed) :
    (∃ g, ofItem collection = .ok g) ↔ relations.Pairwise Relation.Comparable := by
  simp only [ofItem_eq_ok_iff list, ← Relation.sort_isOk_iff named distinct]
  exact ⟨fun ⟨_, sorted, sorts, _⟩ => ⟨sorted, sorts⟩,
    fun ⟨sorted, sorts⟩ => ⟨_, sorted, sorts, rfl⟩⟩

/-- A join graph that can be made tells how few cross products a tree over its relations can have: one
less than it has components. It is connected, and nothing is warned of, exactly if some tree has none.
Relations with names have a graph exactly if the ids behind names that rank alike can be compared. -/
theorem crossProducts_least (list : collection.elements = .ok (relations.map .relation))
    (distinct : Distinct relations) (nonempty : relations ≠ []) :
    ((∀ r ∈ relations, r.IsNamed) →
      ((∃ g, ofItem collection = .ok g) ↔ relations.Pairwise Relation.Comparable)) ∧
    ∀ g, ofItem collection = .ok g → ∃ components, g.components = .ok components ∧
      (∀ (plan : Plan) (handles : Handles), plan.leaves.Perm relations → handles.Tells plan →
        ∃ crossed, g.crossProducts plan handles = .ok crossed ∧
          components.length ≤ crossed.length + 1) ∧
      (∀ est, ∃ plan handles crossed, IsTree est plan ∧ plan.leaves.Perm relations ∧
        handles.Tells plan ∧ g.crossProducts plan handles = .ok crossed ∧
          components.length = crossed.length + 1) ∧
      (g.isConnected = true ↔ ∃ plan handles, plan.leaves.Perm relations ∧ handles.Tells plan ∧
        g.crossProducts plan handles = .ok []) ∧
      ∀ o : Optimizer, o.settings.warnOnCrossProducts.truthy = true →
        (o.warnings relations = .ok [] ↔ g.isConnected = true) := by
  refine ⟨ofItem_isOk_iff list distinct, fun g ok => ?_⟩
  obtain ⟨sorted, sorts, rfl⟩ := (ofItem_eq_ok_iff list).mp ok
  have perm := Relation.perm_of_sort sorts
  have apart := distinct.perm perm
  have some : sorted ≠ [] := fun none => nonempty (perm.symm.trans (none ▸ .refl _)).eq_nil
  have crossed {plan : Plan} {handles : Handles} (tree : plan.leaves.Perm relations)
      (tells : handles.Tells plan) :
      (ofSorted sorted).crossProducts plan handles = .ok plan.crossJoins :=
    crossProducts_eq apart (tree.trans perm.symm).subset (distinct.perm tree) tells
  obtain ⟨components, found, groups⟩ := components_perm (Relation.comparable_of_sort sorts)
  have count : components.length = (ofSorted sorted).groups.length := by
    rw [groups.length_eq, List.length_map]
  refine ⟨components, found, fun plan handles tree tells => ?_, fun est => ?_, ?_,
    fun o wanted => Optimizer.warnings_eq_nil_iff wanted sorts⟩
  · exact ⟨_, crossed tree tells, count ▸ length_groups_le apart (tree.trans perm.symm)⟩
  · obtain ⟨p, built, tree, least⟩ := exists_least_tree est apart some
    have tells := Handles.tells_number p
    exact ⟨p, _, _, built, tree.trans perm, tells, crossed (tree.trans perm) tells,
      count.trans least.symm⟩
  · rw [isConnected_iff_exists_tree apart some]
    constructor
    · rintro ⟨p, tree, none⟩
      have tells := Handles.tells_number p
      exact ⟨p, _, tree.trans perm, tells, none ▸ crossed (tree.trans perm) tells⟩
    · rintro ⟨p, handles, tree, tells, none⟩
      rw [crossed tree tells] at none
      exact ⟨p, tree.trans perm.symm, Except.ok.inj none⟩

section Examples

open Problem Optimizer

/-- Two relations with an attribute in common and a third one with no attribute. -/
def linked : List Relation :=
  let x : Attributes := .ofList [.text "x"]
  [{ plainRelation 1 "A" with attributes := x }, { plainRelation 2 "B" with attributes := x },
    plainRelation 3 "C"]

theorem ofItem_linked : ofItem (listOf linked) = .ok (ofSorted linked) := by
  have proper : ∀ r ∈ linked, r.IsNumbered ∧ r.IsNamed := by
    intro r member
    simp only [linked, List.mem_cons, List.not_mem_nil, or_false] at member
    rcases member with rfl | rfl | rfl <;> exact ⟨⟨_, rfl⟩, _, rfl⟩
  have sorts : Relation.sort linked = .ok linked :=
    Relation.sort_of_ordered (fun r member => (proper r member).2)
      (Relation.pairwise_comparable fun r member => (proper r member).1) (by decide)
      (by unfold Relation.Ordered; decide +kernel)
  exact (ofItem_eq_ok_iff rfl).mpr ⟨linked, sorts, rfl⟩

theorem crossProducts_least_linked : ∃ g components, ofItem (listOf linked) = .ok g ∧
    g.components = .ok components ∧ g.isConnected = false ∧
      ∃ plan handles crossed, IsTree CostModel.productOf plan ∧ plan.leaves.Perm linked ∧
        handles.Tells plan ∧ g.crossProducts plan handles = .ok crossed ∧
          components.length = crossed.length + 1 := by
  obtain ⟨components, found, _, least, _⟩ :=
    (crossProducts_least rfl (by decide) (by simp [linked])).2 _ ofItem_linked
  exact ⟨_, components, ofItem_linked, found, by decide +kernel, least _⟩

/-- Two relations of one name, with a number and a text for their identities. -/
def namesakes : List Relation := [plainRelation 1 "A", { plainRelation 3 "A" with id := .text "x" }]

theorem ofItem_namesakes_ne_ok (g : JoinGraph) : ofItem (listOf namesakes) ≠ .ok g := by
  intro made
  have named : ∀ r ∈ namesakes, r.IsNamed := by
    intro r member
    rcases List.mem_pair.mp member with rfl | rfl <;> exact ⟨_, rfl⟩
  have comparable := (ofItem_isOk_iff rfl (by decide) named).mp ⟨g, made⟩
  exact absurd (List.pairwise_pair.mp comparable rfl) (by decide)

/-- They are apart from one another, but have no graph, because their identities cannot be put in
order. -/
theorem ofItem_namesakes : Distinct namesakes ∧ namesakes ≠ [] ∧
    (∃ plan : Plan, plan.leaves.Perm namesakes) ∧ ∀ g, ofItem (listOf namesakes) ≠ .ok g :=
  ⟨by decide, by simp [namesakes], ⟨.join (.ofRelation _) (.ofRelation _) .null, .refl _⟩,
    ofItem_namesakes_ne_ok⟩

end Examples

end JoinGraph

end JoinOrder
