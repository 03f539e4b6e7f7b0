import JoinOrder.Proofs.Neighbours
import JoinOrder.Proofs.SortedParts
/-!
The components of a join graph. What is reached from a relation grows by neighbours until no neighbour
is missing; such a group can be listed so that every relation but the first has an attribute in common
with one before it. The groups of all relations have no relation in common and leave none out.
-/

namespace JoinOrder

namespace JoinGraph

variable {xs rs group found nodes news : List Relation} {groups : List (List Relation)}
  {node r s : Relation}

/-! ### Growing by neighbours -/

/-- Every relation but the first touches one before it. -/
inductive Grown : List Relation → Prop where
  | one (r : Relation) : Grown [r]
  | grow {rs : List Relation} {r s : Relation} : Grown rs → r ∈ rs → r.Touches s → Grown (rs ++ [s])

/-- No relation of `xs` that touches the group is outside of it. -/
def ClosedIn (xs group : List Relation) : Prop := ∀ r ∈ group, ∀ s ∈ xs, r.Touches s → s ∈ group

theorem Grown.ne_nil (h : Grown rs) : rs ≠ [] := by
  cases h <;> simp

theorem Grown.append (h : Grown rs) (each : ∀ s ∈ news, ∃ r ∈ rs, r.Touches s) :
    Grown (rs ++ news) := by
  induction news generalizing rs with
  | nil => rwa [List.append_nil]
  | cons s news ih =>
    obtain ⟨r, member, touches⟩ := each s List.mem_cons_self
    rw [List.append_cons]
    refine ih (h.grow member touches) fun t inside => ?_
    obtain ⟨r, member, touches⟩ := each t (List.mem_cons_of_mem s inside)
    exact ⟨r, List.mem_append_left _ member, touches⟩

/-- A closed group that has one relation of a grown list has all of them. -/
theorem Grown.subset_of_closed (h : Grown rs) (sub : rs ⊆ xs) (closed : ClosedIn xs group)
    (member : r ∈ rs) (inside : r ∈ group) : rs ⊆ group := by
  induction h generalizing r with
  | one t =>
    rw [List.mem_singleton.mp member] at inside
    simpa using inside
  | @grow rs t s _ known touches ih =>
    have earlier : rs ⊆ xs := fun u inRs => sub (List.mem_append_left _ inRs)
    have old : rs ⊆ group := by
      rcases List.mem_append.mp member with before | last
      · exact ih earlier before inside
      · rw [List.mem_singleton.mp last] at inside
        exact ih earlier known (closed s inside t (earlier known) touches.symm)
    have new : s ∈ group := closed t (old known) s (sub (by simp)) touches
    intro u inList
    rcases List.mem_append.mp inList with before | last
    · exact old before
    · exact List.mem_singleton.mp last ▸ new

/-- A round of growing adds neighbours, and leaves out none. -/
theorem grow_eq (distinct : Distinct xs) (sub : found ⊆ xs) (apart : Distinct found) :
    ∃ news, (ofSorted xs).grow found = found ++ news ∧ Distinct (found ++ news) ∧
      (∀ s ∈ news, s ∈ xs ∧ ∃ r ∈ found, r.Touches s) ∧
        ∀ r ∈ found, ∀ s ∈ xs, r.Touches s → s ∈ found ++ news := by
  obtain ⟨news, result, distinctAll, part, all⟩ :=
    Relation.foldl_distinct found (found.flatMap (ofSorted xs).neighbours) apart
  have grown : (ofSorted xs).grow found = found ++ news := by
    have kept := Relation.distinct_eq_self apart
    rw [Relation.distinct] at kept
    rw [grow, Relation.distinct, List.foldl_append, kept, result]
  have origin : ∀ s ∈ news, s ∈ xs ∧ ∃ r ∈ found, r.Touches s := by
    intro s inside
    obtain ⟨r, member, neighbour⟩ := List.mem_flatMap.mp (part.subset inside)
    obtain ⟨known, _, touches⟩ := (mem_neighbours_iff distinct (sub member)).mp neighbour
    exact ⟨known, r, member, touches⟩
  have inXs : found ++ news ⊆ xs := by
    intro t inside
    rcases List.mem_append.mp inside with old | new
    · exact sub old
    · exact (origin t new).1
  refine ⟨news, grown, distinctAll, origin, fun r member s known touches => ?_⟩
  by_cases same : s = r
  · exact List.mem_append_left _ (same ▸ member)
  · have neighbour : s ∈ (ofSorted xs).neighbours r :=
      (mem_neighbours_iff distinct (sub member)).mpr ⟨known, same, touches⟩
    have present := all s (List.mem_flatMap.mpr ⟨r, member, neighbour⟩)
    exact (Relation.isIn_iff_mem distinct inXs known).mp (Relation.isIn_iff.mpr present)

/-- Relations of the graph that were reached from one another. -/
structure IsReached (xs found : List Relation) : Prop where
  grown : Grown found
  distinct : Distinct found
  subset : found ⊆ xs

theorem IsReached.length_le (h : IsReached xs found) : found.length ≤ xs.length :=
  (List.subperm_of_subset h.distinct.nodup h.subset).length_le

/-- After some rounds nothing is missing, or every round has added something. -/
theorem isReached_growTimes (distinct : Distinct xs) (n : Nat) (h : IsReached xs found) :
    IsReached xs ((ofSorted xs).growTimes n found) ∧ found ⊆ (ofSorted xs).growTimes n found ∧
      (ClosedIn xs ((ofSorted xs).growTimes n found) ∨
        found.length + n ≤ ((ofSorted xs).growTimes n found).length) := by
  induction n generalizing found with
  | zero => exact ⟨h, List.Subset.refl _, .inr le_rfl⟩
  | succ n ih =>
    obtain ⟨news, grown, apart, origin, all⟩ := grow_eq distinct h.subset h.distinct
    rw [growTimes, grown]
    by_cases none : (found ++ news).length = found.length
    · rw [if_pos none]
      obtain rfl : news = [] := by simpa using none
      rw [List.append_nil] at all
      exact ⟨h, List.Subset.refl _, .inl all⟩
    · rw [if_neg none]
      have next : IsReached xs (found ++ news) :=
        ⟨h.grown.append fun s inside => (origin s inside).2, apart, fun s inside =>
          (List.mem_append.mp inside).elim (fun old => h.subset old) fun new => (origin s new).1⟩
      obtain ⟨reached, kept, closed | longer⟩ := ih next
      · exact ⟨reached, fun s old => kept (List.mem_append_left _ old), .inl closed⟩
      · refine ⟨reached, fun s old => kept (List.mem_append_left _ old), .inr ?_⟩
        rw [List.length_append] at none longer
        omega

/-! ### Groups -/

/-- A group that was reached, with nothing missing. -/
structure IsGroup (xs group : List Relation) : Prop extends IsReached xs group where
  closed : ClosedIn xs group

theorem isGroup_reach (distinct : Distinct xs) (member : node ∈ xs) :
    IsGroup xs ((ofSorted xs).reach node) ∧ node ∈ (ofSorted xs).reach node := by
  have start : IsReached xs [node] :=
    ⟨.one node, List.nodup_singleton _, by simpa using member⟩
  obtain ⟨reached, kept, closed | longer⟩ :=
    isReached_growTimes distinct (ofSorted xs).nodes.length start
  · exact ⟨⟨reached, closed⟩, kept List.mem_cons_self⟩
  -- There are not as many relations as that many rounds would have found.
  · have few := reached.length_le
    have nodes : (ofSorted xs).nodes = xs := Relation.distinct_eq_self distinct
    rw [nodes, List.length_singleton] at longer
    rw [nodes] at few
    omega

theorem IsReached.subset_of_mem (h : IsReached xs found) (isGroup : IsGroup xs group)
    (member : r ∈ found) (inside : r ∈ group) : found ⊆ group :=
  h.grown.subset_of_closed h.subset isGroup.closed member inside

/-- Groups that have no relation in common. -/
structure AreApart (xs : List Relation) (groups : List (List Relation)) : Prop where
  isGroup : ∀ group ∈ groups, IsGroup xs group
  disjoint : groups.Pairwise List.Disjoint

theorem areApart_foldl (distinct : Distinct xs) (sub : nodes ⊆ xs) (h : AreApart xs groups) :
    ∃ others, nodes.foldl (fun found node =>
        if found.any (node.isIn ·) then found else found ++ [(ofSorted xs).reach node]) groups =
          groups ++ others ∧ AreApart xs (groups ++ others) ∧
      ∀ r ∈ nodes, ∃ group ∈ groups ++ others, r ∈ group := by
  induction nodes generalizing groups with
  | nil => exact ⟨[], by simp, by simpa using h, by simp⟩
  | cons node nodes ih =>
    have member : node ∈ xs := sub List.mem_cons_self
    have rest : nodes ⊆ xs := fun r inside => sub (List.mem_cons_of_mem node inside)
    have known : groups.any (node.isIn ·) = true ↔ ∃ group ∈ groups, node ∈ group := by
      rw [List.any_eq_true]
      exact exists_congr fun group => and_congr_right fun inside =>
        Relation.isIn_iff_mem distinct (h.isGroup group inside).subset member
    rw [List.foldl_cons]
    by_cases met : ∃ group ∈ groups, node ∈ group
    · rw [if_pos (known.mpr met)]
      obtain ⟨others, result, apart, all⟩ := ih rest h
      refine ⟨others, result, apart, fun r inside => ?_⟩
      rcases List.mem_cons.mp inside with rfl | inside
      · obtain ⟨group, old, inGroup⟩ := met
        exact ⟨group, List.mem_append_left _ old, inGroup⟩
      · exact all r inside
    · rw [if_neg (mt known.mp met)]
      obtain ⟨isGroup, first⟩ := isGroup_reach distinct member
      have longer : AreApart xs (groups ++ [(ofSorted xs).reach node]) := by
        refine ⟨fun group inside => ?_, List.pairwise_append.mpr ⟨h.disjoint,
          List.pairwise_singleton .., fun group old other only r inGroup inOther => ?_⟩⟩
        · rcases List.mem_append.mp inside with old | new
          · exact h.isGroup group old
          · exact List.mem_singleton.mp new ▸ isGroup
        · rw [List.mem_singleton.mp only] at inOther
          exact met ⟨group, old, isGroup.subset_of_mem (h.isGroup group old) inOther inGroup first⟩
      obtain ⟨others, result, apart, all⟩ := ih rest longer
      rw [List.append_assoc, List.singleton_append] at result apart all
      refine ⟨_, result, apart, fun r inside => ?_⟩
      rcases List.mem_cons.mp inside with rfl | inside
      · exact ⟨_, by simp, first⟩
      · exact all r inside

/-- The groups of all relations: nothing is in two of them, and nothing is left out. -/
theorem areApart_groups (distinct : Distinct xs) : AreApart xs (ofSorted xs).groups ∧
    ∀ r ∈ xs, ∃ group ∈ (ofSorted xs).groups, r ∈ group := by
  have nodes : (ofSorted xs).nodes = xs := Relation.distinct_eq_self distinct
  have none : AreApart xs [] := ⟨fun _ => nofun, .nil⟩
  obtain ⟨others, result, apart, all⟩ := areApart_foldl distinct (List.Subset.refl xs) none
  rw [groups, nodes, result]
  exact ⟨apart, all⟩

theorem perm_flatten_groups (distinct : Distinct xs) : (ofSorted xs).groups.flatten.Perm xs := by
  obtain ⟨apart, all⟩ := areApart_groups distinct
  have nodup : (ofSorted xs).groups.flatten.Nodup := List.nodup_flatten.mpr
    ⟨fun group inside => (apart.isGroup group inside).distinct.nodup, apart.disjoint⟩
  refine (List.perm_ext_iff_of_nodup nodup distinct.nodup).mpr fun r => ?_
  rw [List.mem_flatten]
  constructor
  · rintro ⟨group, inside, member⟩
    exact (apart.isGroup group inside).subset member
  · intro member
    exact all r member

/-! ### Connected graphs -/

theorem length_groups_eq_one_iff (distinct : Distinct xs) (member : node ∈ xs) :
    (ofSorted xs).groups.length = 1 ↔ xs ⊆ (ofSorted xs).reach node := by
  obtain ⟨apart, all⟩ := areApart_groups distinct
  obtain ⟨isGroup, first⟩ := isGroup_reach distinct member
  constructor
  · intro one r inside
    obtain ⟨only, is⟩ := List.length_eq_one_iff.mp one
    obtain ⟨group, here, inGroup⟩ := all r inside
    obtain ⟨group', here', nodeIn⟩ := all node member
    rw [is, List.mem_singleton] at here here'
    rw [here] at inGroup
    rw [here'] at nodeIn
    have whole := apart.isGroup only (is ▸ List.mem_singleton_self only)
    exact whole.subset_of_mem isGroup nodeIn first inGroup
  · intro reached
    obtain ⟨group, here, _⟩ := all node member
    match groups : (ofSorted xs).groups, here with
    | [_], _ => rfl
    | b :: c :: rest, _ =>
      rw [groups] at apart
      have groupB := apart.isGroup b (by simp)
      have groupC := apart.isGroup c (by simp)
      obtain ⟨r, inB⟩ := List.exists_mem_of_ne_nil b groupB.grown.ne_nil
      obtain ⟨s, inC⟩ := List.exists_mem_of_ne_nil c groupC.grown.ne_nil
      have whole := isGroup.subset_of_mem groupB (reached (groupB.subset inB)) inB
      have disjoint := (List.pairwise_cons.mp apart.disjoint).1 c List.mem_cons_self
      exact absurd inC (disjoint (whole (reached (groupC.subset inC))))

theorem isConnected_iff (distinct : Distinct xs) (nonempty : xs ≠ []) :
    (ofSorted xs).isConnected = true ↔ (ofSorted xs).groups.length = 1 := by
  obtain ⟨node, rest, rfl⟩ := List.exists_cons_of_ne_nil nonempty
  have nodes : (ofSorted (node :: rest)).nodes = node :: rest := Relation.distinct_eq_self distinct
  have member : node ∈ node :: rest := List.mem_cons_self
  obtain ⟨isGroup, first⟩ := isGroup_reach distinct member
  have subperm := List.subperm_of_subset isGroup.distinct.nodup isGroup.subset
  have all : ((ofSorted (node :: rest)).reach node).length = (node :: rest).length ↔
      node :: rest ⊆ (ofSorted (node :: rest)).reach node := by
    constructor
    · intro same
      exact (subperm.perm_of_length_le same.ge).symm.subset
    · intro reached
      exact le_antisymm subperm.length_le
        (List.subperm_of_subset distinct.nodup reached).length_le
  rw [length_groups_eq_one_iff distinct member, isConnected, nodes, Bool.or_eq_true,
    decide_eq_true_iff, beq_iff_eq, all]
  refine or_iff_right_of_imp fun few => ?_
  have none : rest = [] := by
    change (node :: rest).length ≤ 1 at few
    simpa using few
  simpa [none] using first

end JoinGraph

end JoinOrder
