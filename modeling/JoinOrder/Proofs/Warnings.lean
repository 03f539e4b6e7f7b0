import JoinOrder.Optimizer
import JoinOrder.Proofs.Messages
/-!
What happens before a search. Components of a join graph consist of its relations, so wherever the
relations can be put in order and have names, so can their components.
-/

namespace JoinOrder

theorem mem_of_pairsOf {α : Type} {p : α × α} {xs : List α} (h : p ∈ pairsOf xs) :
    p.1 ∈ xs ∧ p.2 ∈ xs := by
  induction xs with
  | nil => exact absurd h List.not_mem_nil
  | cons x xs ih =>
    rcases List.mem_append.mp h with first | later
    · obtain ⟨y, member, rfl⟩ := List.mem_map.mp first
      exact ⟨List.mem_cons_self, List.mem_cons_of_mem x member⟩
    · exact ⟨List.mem_cons_of_mem x (ih later).1, List.mem_cons_of_mem x (ih later).2⟩

theorem Relation.mem_distinct {relations : List Relation} :
    ∀ r ∈ distinct relations, r ∈ relations := by
  refine List.foldlRecOn (motive := fun kept => ∀ r ∈ kept, r ∈ relations) relations _
    (fun r none => absurd none List.not_mem_nil) fun kept known s member r inside => ?_
  split at inside
  · exact known r inside
  · rcases List.mem_append.mp inside with old | new
    · exact known r old
    · exact List.mem_singleton.mp new ▸ member

namespace JoinGraph

variable {relations : List Relation}

/-- Both ends of an edge are among some relations. -/
def Within (relations : List Relation) (e : Edge) : Prop := e.first ∈ relations ∧ e.second ∈ relations

theorem within_record {e : Edge} {found : List Edge} (new : Within relations e)
    (old : ∀ f ∈ found, Within relations f) : ∀ f ∈ e.record found, Within relations f := by
  intro f member
  unfold Edge.record at member
  split at member
  · obtain ⟨g, inside, rfl⟩ := List.mem_map.mp member
    split
    · exact old g inside
    · exact old g inside
  · rcases List.mem_cons.mp member with rfl | inside
    · exact new
    · exact old f inside

theorem within_edgesOf : ∀ e ∈ edgesOf relations, Within relations e := by
  intro e member
  refine List.foldlRecOn (motive := fun found => ∀ e ∈ found, Within relations e)
    (pairsOf relations) _ (fun e none => absurd none List.not_mem_nil) ?_ e
    (List.mem_reverse.mp member)
  rintro found old ⟨first, second⟩ pair
  have new := mem_of_pairsOf pair
  dsimp only
  split
  · exact old
  · split
    · exact within_record new old
    · intro e inside
      rcases List.mem_cons.mp inside with rfl | inside
      · exact new
      · exact old e inside

variable {g : JoinGraph} (edges : ∀ e ∈ g.edges, Within g.relations e)

include edges

theorem mem_neighbours {r node : Relation} (h : r ∈ g.neighbours node) : r ∈ g.relations := by
  obtain ⟨e, member, across⟩ := List.mem_filterMap.mp h
  have within := edges e member
  unfold Edge.across at across
  split at across
  · cases across
    exact within.2
  · split at across
    · cases across
      exact within.1
    · contradiction

theorem mem_growTimes {n : Nat} {found : List Relation} (known : ∀ r ∈ found, r ∈ g.relations) :
    ∀ r ∈ g.growTimes n found, r ∈ g.relations := by
  induction n generalizing found with
  | zero => exact known
  | succ n ih =>
    rw [growTimes]
    have more : ∀ r ∈ g.grow found, r ∈ g.relations := by
      intro r member
      rcases List.mem_append.mp (Relation.mem_distinct r member) with old | new
      · exact known r old
      · obtain ⟨node, _, neighbour⟩ := List.mem_flatMap.mp new
        exact mem_neighbours edges neighbour
    split
    · exact known
    · exact ih more

theorem mem_groups (nodes : ∀ r ∈ g.nodes, r ∈ g.relations) :
    ∀ group ∈ g.groups, ∀ r ∈ group, r ∈ g.relations := by
  refine List.foldlRecOn (motive := fun found => ∀ group ∈ found, ∀ r ∈ group, r ∈ g.relations)
    g.nodes _ (fun group none => absurd none List.not_mem_nil) ?_
  intro found known node member group inside
  split at inside
  · exact known group inside
  · rcases List.mem_append.mp inside with old | new
    · exact known group old
    · rw [List.mem_singleton.mp new]
      exact mem_growTimes edges (by simpa using nodes node member)

end JoinGraph

theorem mapM_ok {α β : Type} {f : α → Except Error β} {xs : List α}
    (h : ∀ x ∈ xs, ∃ y, f x = .ok y) :
    ∃ ys, xs.mapM f = .ok ys ∧ ∀ y ∈ ys, ∃ x ∈ xs, f x = .ok y := by
  induction xs with
  | nil => exact ⟨[], rfl, by simp⟩
  | cons x xs ih =>
    obtain ⟨y, first⟩ := h x List.mem_cons_self
    obtain ⟨ys, others, known⟩ := ih fun z member => h z (List.mem_cons_of_mem x member)
    refine ⟨y :: ys, by rw [List.mapM_cons, first, others]; rfl, fun z member => ?_⟩
    rcases List.mem_cons.mp member with rfl | member
    · exact ⟨x, List.mem_cons_self, first⟩
    · obtain ⟨w, inside, is⟩ := known z member
      exact ⟨w, List.mem_cons_of_mem x inside, is⟩

theorem mapM_eq_map {α β : Type} {f : α → Except Error β} {g : α → β} {xs : List α}
    (h : ∀ x ∈ xs, f x = .ok (g x)) : xs.mapM f = .ok (xs.map g) := by
  induction xs with
  | nil => rfl
  | cons x xs ih =>
    rw [List.mapM_cons, h x List.mem_cons_self, ih fun y member => h y (List.mem_cons_of_mem x member)]
    rfl

def Relation.Orderly.componentKey (sorted : List Relation) : SortKey :=
  .tuple ((sorted.take 1).map sortKey)

namespace JoinGraph

variable {relations : List Relation}

theorem comparable_componentKeys
    (comparable : ∀ r ∈ relations, ∀ s ∈ relations, r.sortKey.comparable s.sortKey = true)
    {xs ys : List Relation} (hx : xs ⊆ relations) (hy : ys ⊆ relations) :
    (Relation.Orderly.componentKey xs).comparable (Relation.Orderly.componentKey ys) = true := by
  cases xs with
  | nil => rfl
  | cons x xs =>
    cases ys with
    | nil => rfl
    | cons y ys =>
      have keys := comparable x (hx List.mem_cons_self) y (hy List.mem_cons_self)
      simp only [Relation.Orderly.componentKey, List.take_succ_cons, List.take_zero, List.map_cons,
        List.map_nil, SortKey.comparable, SortKey.comparableItems, keys, ite_self]

/-- A group as a set, behind the key that its place among the components hangs on. -/
def keyed (group : List Relation) : SortKey × RelationSet :=
  (Relation.Orderly.componentKey (SortKey.arranged Relation.sortKey group), IdSet.ofList group)

/-- Where all relations can be compared, the components are the groups as sets, by their keys. -/
theorem components_eq
    (comparable : ∀ r ∈ relations, ∀ s ∈ relations, r.sortKey.comparable s.sortKey = true) :
    (ofSorted relations).components =
      .ok ((SortKey.arranged Prod.fst ((ofSorted relations).groups.map keyed)).map Prod.snd) := by
  have inside := mem_groups (g := .ofSorted relations) within_edgesOf fun r member =>
    Relation.mem_distinct r member
  have all : (ofSorted relations).groups.mapM (fun group => do
      let sorted ← Relation.sort group
      return (Relation.Orderly.componentKey sorted, IdSet.ofList group)) =
        .ok ((ofSorted relations).groups.map keyed) := by
    refine mapM_eq_map fun group member => ?_
    have known := inside group member
    rw [Relation.sort_eq_ok.mpr (SortKey.sortBy?_of_comparable fun r hr s hs =>
      comparable r (known r hr) s (known s hs))]
    rfl
  have keys : ∀ c ∈ (ofSorted relations).groups.map keyed,
      ∀ d ∈ (ofSorted relations).groups.map keyed, c.1.comparable d.1 = true := by
    have part (group : List Relation) (member : group ∈ (ofSorted relations).groups) :
        SortKey.arranged Relation.sortKey group ⊆ relations := fun r inGroup =>
      inside group member r ((SortKey.arranged_perm Relation.sortKey group).subset inGroup)
    simp only [List.mem_map]
    rintro _ ⟨group, member, rfl⟩ _ ⟨group', member', rfl⟩
    exact comparable_componentKeys comparable (part group member) (part group' member')
  change (do
    let keyed ← (ofSorted relations).groups.mapM (fun group => do
      let sorted ← Relation.sort group
      return (Relation.Orderly.componentKey sorted, IdSet.ofList group))
    return (← fitting (SortKey.sortBy? Prod.fst keyed)).map Prod.snd) = _
  rw [all]
  change (do
    return (← fitting (SortKey.sortBy? Prod.fst ((ofSorted relations).groups.map keyed))).map
      Prod.snd) = _
  rw [SortKey.sortBy?_of_comparable keys]
  rfl

theorem perm_arranged_keyed (groups : List (List Relation)) :
    ((SortKey.arranged Prod.fst (groups.map keyed)).map Prod.snd).Perm (groups.map IdSet.ofList) := by
  have perm := (SortKey.arranged_perm Prod.fst (groups.map keyed)).map Prod.snd
  rwa [List.map_map] at perm

theorem components_perm
    (comparable : ∀ r ∈ relations, ∀ s ∈ relations, r.sortKey.comparable s.sortKey = true) :
    ∃ components, (ofSorted relations).components = .ok components ∧
      components.Perm ((ofSorted relations).groups.map IdSet.ofList) :=
  ⟨_, components_eq comparable, perm_arranged_keyed _⟩

end JoinGraph

/-- Relations with names that can be put in order wherever they are met. -/
structure Relation.Orderly (relations : List Relation) : Prop where
  named : ∀ r ∈ relations, r.IsNamed
  comparable : ∀ r ∈ relations, ∀ s ∈ relations, r.sortKey.comparable s.sortKey = true

namespace Relation.Orderly

variable {relations group : List Relation}

theorem of_pairwise (named : ∀ r ∈ relations, r.IsNamed)
    (comparable : relations.Pairwise Comparable) : Orderly relations :=
  ⟨named, comparable_keys named comparable⟩

theorem subset (h : Orderly relations) (sub : group ⊆ relations) : Orderly group :=
  ⟨fun r hr => h.named r (sub hr), fun r hr s hs => h.comparable r (sub hr) s (sub hs)⟩

theorem sort_isOk (h : Orderly relations) : ∃ sorted, sort relations = .ok sorted :=
  ⟨_, sort_eq_ok.mpr (SortKey.sortBy?_of_comparable h.comparable)⟩

/-- Relations with distinct identities have one order, however they are listed. -/
theorem sort_congr (h : Orderly relations) (distinct : Distinct relations)
    (same : relations.Perm group) : sort relations = sort group := by
  obtain ⟨sorted, first⟩ := h.sort_isOk
  obtain ⟨sorted', second⟩ := (h.subset same.symm.subset).sort_isOk
  have perm : sorted.Perm sorted' :=
    (perm_of_sort first).trans (same.trans (perm_of_sort second).symm)
  rw [first, second, (ordered_of_sort distinct first).eq_of_perm
    (ordered_of_sort (distinct.perm same.symm) second) perm]

theorem names_isOk (h : Orderly relations) : ∃ text, RelationSet.names relations = .ok text := by
  obtain ⟨sorted, ok⟩ := h.sort_isOk
  obtain ⟨text, named⟩ := RelationSet.namesInOrder_isOk_iff.mpr fun r member =>
    h.named r ((perm_of_sort ok).subset member)
  refine ⟨text, ?_⟩
  rw [RelationSet.names, ok]
  exact named

theorem components_isOk (h : Orderly relations) :
    ∃ components, (JoinGraph.ofSorted relations).components = .ok components ∧
      ∀ c ∈ components, c.toList ⊆ relations := by
  have groups := JoinGraph.mem_groups (g := .ofSorted relations) JoinGraph.within_edgesOf
    fun r member => mem_distinct r member
  obtain ⟨components, found, perm⟩ := JoinGraph.components_perm h.comparable
  refine ⟨components, found, fun c member => ?_⟩
  obtain ⟨group, inside, rfl⟩ := List.mem_map.mp (perm.subset member)
  exact fun r inSet => groups group inside r (IdSet.mem_ofList r inSet)

end Relation.Orderly

namespace Optimizer

variable {o : Optimizer} {relations : List Relation} {start : Float}

theorem warnings_isOk (h : Relation.Orderly relations) :
    ∃ warnings, o.warnings relations = .ok warnings := by
  unfold warnings
  split
  · exact ⟨[], rfl⟩
  · obtain ⟨sorted, ok⟩ := h.sort_isOk
    have orderly := h.subset (Relation.perm_of_sort ok).subset
    obtain ⟨components, found, known⟩ := orderly.components_isOk
    obtain ⟨names, all, _⟩ := @mapM_ok _ _ (fun c : RelationSet => RelationSet.names c.toList)
      components fun c member => (orderly.subset (known c member)).names_isOk
    rw [ok]
    change ∃ warnings, (if (JoinGraph.ofSorted sorted).isConnected = true then _ else _) = _
    split
    · exact ⟨[], rfl⟩
    · rw [found]
      simp only [bind, Except.bind, all]
      exact ⟨_, rfl⟩

theorem message_started_iff {sorted : List Relation} :
    (∃ items, (Progress.started sorted).message = .ok items) ↔ ∀ r ∈ sorted, r.IsNamed := by
  rw [← RelationSet.namesInOrder_isOk_iff, Progress.message]
  cases RelationSet.namesInOrder sorted with
  | error e =>
    constructor
    · rintro ⟨_, ok⟩
      cases ok
    · rintro ⟨_, ok⟩
      cases ok
  | ok names => exact iff_of_true ⟨_, rfl⟩ ⟨names, rfl⟩

/-- What a search starts with once everything before it has gone well. -/
theorem prepare_eq_ok {deadline : Option Deadline} {warnings : List String}
    {sorted : List Relation} {opening : List Item}
    (h : o.prepare start relations = .ok (deadline, warnings, sorted, opening)) :
    Deadline.ofLimit start o.settings.timeout = .ok deadline ∧
      Relation.sort relations = .ok sorted ∧ ∀ r ∈ sorted, r.IsNamed := by
  rw [prepare] at h
  cases limit : Deadline.ofLimit start o.settings.timeout with
  | error e => rw [limit] at h; exact nomatch h
  | ok d =>
    rw [limit] at h
    cases warned : o.warnings relations with
    | error e => rw [warned] at h; exact nomatch h
    | ok w =>
      rw [warned] at h
      cases sort : Relation.sort relations with
      | error e => rw [sort] at h; exact nomatch h
      | ok list =>
        rw [sort] at h
        cases message : (Progress.started list).message with
        | error e =>
          change (do return (d, w, list, ← (Progress.started list).message)) = _ at h
          rw [message] at h
          exact nomatch h
        | ok items =>
          change (do return (d, w, list, ← (Progress.started list).message)) = _ at h
          rw [message] at h
          cases h
          exact ⟨rfl, rfl, message_started_iff.mp ⟨_, message⟩⟩

theorem sorted_of_prepare {deadline : Option Deadline} {warnings : List String}
    {sorted sorted' : List Relation} {opening : List Item}
    (h : o.prepare start relations = .ok (deadline, warnings, sorted, opening))
    (sort : Relation.sort relations = .ok sorted') : sorted = sorted' :=
  Except.ok.inj ((prepare_eq_ok h).2.1.symm.trans sort)

theorem prepare_isOk {deadline : Option Deadline}
    (limit : Deadline.ofLimit start o.settings.timeout = .ok deadline)
    (orderly : Relation.Orderly relations) : ∃ prepared, o.prepare start relations = .ok prepared := by
  obtain ⟨warnings, warned⟩ := warnings_isOk (o := o) orderly
  obtain ⟨sorted, sort⟩ := orderly.sort_isOk
  obtain ⟨items, message⟩ := message_started_iff.mpr fun r member =>
    orderly.named r ((Relation.perm_of_sort sort).subset member)
  refine ⟨(deadline, warnings, sorted, items), ?_⟩
  rw [prepare, limit, warned, sort]
  change (do return (_, warnings, sorted, ← (Progress.started sorted).message)) = _
  rw [message]
  rfl

theorem orderly_of_prepare {prepared : Option Deadline × List String × List Relation × List Item}
    (ok : o.prepare start relations = .ok prepared) (distinct : Distinct relations) :
    Relation.Orderly relations := by
  obtain ⟨_, sort, named⟩ := prepare_eq_ok ok
  have named : ∀ r ∈ relations, r.IsNamed := fun r member =>
    named r ((Relation.perm_of_sort sort).symm.subset member)
  exact .of_pairwise named ((Relation.sort_isOk_iff named distinct).mp ⟨_, sort⟩)

/-- Without a time limit, names and identities alone decide whether a search starts. -/
theorem prepare_isOk_iff (untimed : o.settings.timeout.isNull = true) (distinct : Distinct relations) :
    (∃ prepared, o.prepare start relations = .ok prepared) ↔
      (∀ r ∈ relations, r.IsNamed) ∧ relations.Pairwise Relation.Comparable := by
  constructor
  · rintro ⟨prepared, ok⟩
    have orderly := orderly_of_prepare ok distinct
    exact ⟨orderly.named, (Relation.sort_isOk_iff orderly.named distinct).mp orderly.sort_isOk⟩
  · rintro ⟨named, comparable⟩
    have limit : Deadline.ofLimit start o.settings.timeout = .ok none := by
      rw [Deadline.ofLimit, untimed]
      rfl
    exact prepare_isOk limit (.of_pairwise named comparable)

end Optimizer

end JoinOrder
