import JoinOrder.Proofs.Fresh
/-!
Tables over their whole history. Whatever callers do with a table that was empty at first, its
entries stay the best plans of the configuration it is bound to, and no entry is there without those
of all smaller sets.

Calls may end in any way: their models and clocks may stop them at any request, and the layers of
their searches may follow any schedules. What has to be true of the callers is that one description
stands for one way to estimate, and one identity for one relation.
-/

namespace JoinOrder

open Search

namespace Memo

variable {met : Relation → Prop} {est : Plan → Plan → Int} {order : Order} {m m' : Memo}
  {xs ys : List Relation} {plan : Plan}

/-- Relations in their order that were met before. -/
structure Ranked (met : Relation → Prop) (xs : List Relation) : Prop where
  met : ∀ r ∈ xs, met r
  counted : ∀ r ∈ xs, r.IsCounted
  ordered : Relation.Ordered xs

/-- Every entry is for at least two relations and has the best plan for them, and there are entries
for all smaller sets. -/
structure IsBest (met : Relation → Prop) (est : Plan → Plan → Int) (order : Order) (m : Memo) :
    Prop where
  entries : ∀ K plan, m.find? K = some plan → 2 ≤ K.size ∧
    ∃ xs, Ranked met xs ∧ K.identities = (IdSet.ofList xs).identities ∧ plan = best est order xs
  closed : ∀ K L, (m.find? K).isSome = true → L.identities ⊆ K.identities → 2 ≤ L.size →
    (m.find? L).isSome = true

/-- One identity stands for one relation. -/
def OneEach (met : Relation → Prop) : Prop :=
  ∀ r s, met r → met s → identity r = identity s → r = s

theorem Ranked.sublist (h : Ranked met ys) (sub : xs.Sublist ys) : Ranked met xs where
  met := fun r member => h.met r (sub.subset member)
  counted := fun r member => h.counted r (sub.subset member)
  ordered := h.ordered.sublist sub

theorem Ranked.nodup (h : Ranked met xs) : xs.Nodup := by
  apply h.ordered.imp
  intro r s below same
  rw [same] at below
  exact SortKey.not_below_self _ below

theorem Ranked.distinct (h : Ranked met xs) (one : OneEach met) : Distinct xs :=
  h.nodup.map_on fun r hr s hs same => one r s (h.met r hr) (h.met s hs) same

theorem Ranked.subset (hx : Ranked met xs) (hy : Ranked met ys) (one : OneEach met)
    (same : (IdSet.ofList xs).identities = (IdSet.ofList ys).identities) : xs ⊆ ys := by
  intro r member
  have known : identity r ∈ (IdSet.ofList ys).identities := by
    rw [← same]
    exact IdSet.mem_identities_ofList.mpr (List.mem_map_of_mem member)
  obtain ⟨s, inside, equal⟩ := List.mem_map.mp (IdSet.mem_identities_ofList.mp known)
  rwa [one r s (hx.met r member) (hy.met s inside) equal.symm]

theorem Ranked.eq (hx : Ranked met xs) (hy : Ranked met ys) (one : OneEach met)
    (same : (IdSet.ofList xs).identities = (IdSet.ofList ys).identities) : xs = ys := by
  apply hx.ordered.eq_of_perm hy.ordered
  apply (List.perm_ext_iff_of_nodup hx.nodup hy.nodup).mpr
  intro r
  exact ⟨fun h => hx.subset hy one same h, fun h => hy.subset hx one same.symm h⟩

theorem isBest_of_none (none : ∀ K, m.find? K = none) : m.IsBest met est order := by
  constructor
  · intro K plan found
    rw [none] at found
    contradiction
  · intro K L found
    rw [none] at found
    contradiction

namespace IsBest

theorem ne_nil {K : RelationSet} (same : K.identities = (IdSet.ofList xs).identities)
    (two : 2 ≤ K.size) : xs ≠ [] := by
  rintro rfl
  rw [IdSet.size_eq same] at two
  exact absurd two (by decide)

theorem sound (h : m.IsBest met est order) : Sound m.find? := by
  intro K plan found
  obtain ⟨two, xs, ranked, same, rfl⟩ := h.entries K plan found
  have covers := @planFrom_covers est order _ _ sound_none ranked.counted (ne_nil same two)
  exact ⟨covers.1.trans same.symm, covers.2⟩

theorem eq_best (h : m.IsBest met est order) (one : OneEach met) (ranked : Ranked met xs)
    (found : m.find? (.ofList xs) = some plan) : plan = best est order xs := by
  obtain ⟨_, ys, rankedYs, same, rfl⟩ := h.entries _ plan found
  rw [ranked.eq rankedYs one same]

theorem plan_eq {P : Problem} (h : P.table.IsBest met P.est P.order) (one : OneEach met)
    (ranked : Ranked met xs) : P.plan xs = best P.est P.order xs := by
  apply planFrom_eq_best
  intro ys plan sub found
  exact h.eq_best one (ranked.sublist sub) found

/-- What a search makes of a table of best plans is a table of best plans, wherever it stops. -/
theorem of_reached {P : Problem} (h : P.table.IsBest met P.est P.order) (one : OneEach met)
    (ranked : Ranked met P.root) (reached : P.Reached m) : m.IsBest met P.est P.order := by
  constructor
  · intro K plan found
    cases old : P.table.find? K with
    -- Entries that were there stay, and all others are plans for parts of the list.
    | some q =>
      have kept := reached.keeps K q old
      rw [found] at kept
      cases kept
      exact h.entries K plan old
    | none =>
      obtain ⟨xs, part, same, rfl⟩ := reached.fresh K plan old found
      have rankedXs := ranked.sublist part.sublist
      refine ⟨?_, xs, rankedXs, same, h.plan_eq one rankedXs⟩
      rw [IdSet.size_eq same, IdSet.size_ofList (rankedXs.distinct one)]
      exact part.two
  · intro K L found inside two
    cases old : P.table.find? K with
    | some q =>
      have before := h.closed K L (by rw [old]; rfl) inside two
      exact reached.keeps.isSome before
    | none =>
      obtain ⟨plan, found⟩ := Option.isSome_iff_exists.mp found
      obtain ⟨xs, part, same, _⟩ := reached.fresh K plan old found
      -- The smaller set lists a part of the list as well, which was solved before the list.
      let ys := xs.filter fun r => L.contains (identity r)
      have sub : ys.Sublist xs := List.filter_sublist
      have sameL : L.identities = (IdSet.ofList ys).identities := by
        apply IdSet.identities_eq
        intro a
        rw [IdSet.mem_identities_ofList, List.mem_map]
        constructor
        · intro inL
          have inXs := inside inL
          rw [same, IdSet.mem_identities_ofList] at inXs
          obtain ⟨r, member, rfl⟩ := List.mem_map.mp inXs
          exact ⟨r, List.mem_filter.mpr ⟨member, IdSet.contains_iff.mpr inL⟩, rfl⟩
        · rintro ⟨r, member, rfl⟩
          exact IdSet.contains_iff.mp (List.mem_filter.mp member).2
      have twoYs : 2 ≤ ys.length := by
        rwa [IdSet.size_eq sameL,
          IdSet.size_ofList ((ranked.distinct one).sublist (sub.trans part.sublist))] at two
      have knows : m.knows xs = true := by
        rw [knows, ← find?_congr same, found]
        rfl
      have unknown : P.table.knows xs = false := by
        rw [Memo.knows, ← find?_congr same, old]
        rfl
      have := reached.closed xs ys part unknown knows sub twoYs
      rwa [find?_congr sameL]

end IsBest

end Memo

/-! ### Binding -/

theorem Value.same_configuration {d d' : Value} {order order' : Order}
    (h : (Optimizer.configurationOf d order).same (Optimizer.configurationOf d' order') = true) :
    d.same d' = true ∧ order = order' := by
  have parts : (d.same d' && (Value.text order.name).same (Value.text order'.name)) = true := by
    simpa [Optimizer.configurationOf, Value.same, Value.sameEntries, List.lookup] using h
  obtain ⟨description, name⟩ := Bool.and_eq_true_iff.mp parts
  refine ⟨description, ?_⟩
  cases order <;> cases order' <;> first | rfl | exact absurd name (by decide)

/-- A table that is bound has the best plans of its configuration, any other table has no plans. -/
def Memo.IsSound (met : Relation → Prop) (est : Value → Plan → Plan → Int) (m : Memo) : Prop :=
  (m.configuration.isNull = true ∧ ∀ K, m.find? K = none) ∨
    ∃ description order, m.configuration = Optimizer.configurationOf description order ∧
      m.IsBest met (est description) order

/-- Estimates that do not tell descriptions apart that count as the same. -/
def Described (est : Value → Plan → Plan → Int) : Prop :=
  ∀ d d' : Value, d.same d' = true → est d = est d'

theorem Memo.IsSound.bind {met : Relation → Prop} {est : Value → Plan → Plan → Int} {m m' : Memo}
    {d : Value} {order : Order} (h : m.IsSound met est) (described : Described est)
    (bound : m.bind (Optimizer.configurationOf d order) = .ok m') :
    m'.IsBest met (est d) order ∧
      ∃ d', est d' = est d ∧ m'.configuration = Optimizer.configurationOf d' order := by
  rcases Memo.bind_eq_ok.mp bound with ⟨free, rfl⟩ | ⟨taken, same, rfl⟩
  · rcases h with ⟨_, none⟩ | ⟨d', order', configuration, _⟩
    · exact ⟨Memo.isBest_of_none none, d, rfl, rfl⟩
    · rw [configuration] at free
      contradiction
  · rcases h with ⟨free, _⟩ | ⟨d', order', configuration, best⟩
    · rw [free] at taken
      contradiction
    · rw [configuration] at same
      obtain ⟨sameD, rfl⟩ := Value.same_configuration same
      rw [← described d' d sameD]
      exact ⟨best, d', rfl, configuration⟩

/-! ### Uses of a table -/

/-- What callers do with a table. -/
inductive Use where
  | reset
  | optimize (o : Optimizer) (schedules : Nat → List Nat) (clock : Clock) (readings : Nat)
      (collection : Item)

namespace Use

/-- The plan that a use returns, if it returns one, and the table that it leaves behind. A call ends
only if its schedules last until then. -/
def on (m : Memo) : Use → Option (Option Plan × Memo)
  | reset => some (none, m.reset)
  | optimize o schedules clock readings collection =>
    (o.optimizeBy schedules clock readings m collection).map fun out =>
      (out.result.toOption, out.memo)

/-- Uses of a table one after the other: the plans that they return, and the table in the end. -/
def history (m : Memo) : List Use → Option (List (Option Plan) × Memo)
  | [] => some ([], m)
  | u :: later => do
    let (plan, m) ← u.on m
    let (plans, m) ← history m later
    return (plan :: plans, m)

def relations : Use → List Relation
  | reset => []
  | optimize _ _ _ _ collection => (collection.elements?.getD []).filterMap Item.relation?

/-- Whenever the model of a call gives an estimate, it is the one that goes with its description. -/
def Estimates (est : Value → Plan → Plan → Int) : Use → Prop
  | reset => True
  | optimize o _ _ _ _ => ∀ d, o.model.describe = .ok d → o.model.Agrees (est d)

/-- The plan is the best one for the input of a call, and no call with an empty table returns any
other. -/
def Answers (est : Value → Plan → Plan → Int) (plan : Plan) : Use → Prop
  | reset => False
  | optimize o _ _ _ collection => ∃ relations sorted d,
      RelationSet.checkAll collection o.settings.maxRelations = .ok relations ∧
        Relation.sort relations = .ok sorted ∧ o.model.describe = .ok d ∧
        plan = best (est d) o.settings.order sorted ∧
        ∀ clock readings other, (o.optimize clock readings ∅ collection).result = .ok other →
          other = plan

variable {met : Relation → Prop} {est : Value → Plan → Plan → Int} {m m' : Memo} {u : Use}
  {plan : Plan} {returned : Option Plan}

theorem relations_of_checked {o : Optimizer} {schedules : Nat → List Nat} {clock : Clock}
    {readings : Nat} {collection : Item} {limit : Value} {relations : List Relation}
    (checked : RelationSet.checkAll collection limit = .ok relations) :
    (optimize o schedules clock readings collection).relations = relations := by
  obtain ⟨_, elements, _⟩ := RelationSet.checkAll_eq_ok.mp checked
  have items : collection.elements? = some (relations.map .relation) := by
    rw [Item.elements] at elements
    cases found : collection.elements? with
    | none =>
      rw [found] at elements
      exact nomatch elements
    | some items =>
      rw [found] at elements
      exact congrArg some (Except.ok.inj elements)
  rw [Use.relations, items, Option.getD_some, List.filterMap_map]
  exact List.filterMap_some

theorem answers_of_best {o : Optimizer} {schedules : Nat → List Nat} {clock : Clock}
    {readings : Nat} {collection : Item} {relations sorted : List Relation} {d : Value}
    (agrees : o.model.Agrees (est d)) (described : o.model.describe = .ok d)
    (checked : RelationSet.checkAll collection o.settings.maxRelations = .ok relations)
    (sort : Relation.sort relations = .ok sorted) :
    (optimize o schedules clock readings collection).Answers est
      (best (est d) o.settings.order sorted) := by
  refine ⟨relations, sorted, d, checked, sort, described, rfl, fun clock readings other ok => ?_⟩
  obtain ⟨table, fresh⟩ := Optimizer.accept_fresh ⟨d, described⟩ checked
  obtain ⟨again, sort', rfl⟩ := Optimizer.optimize_eq_best agrees fresh ok
  rw [sort] at sort'
  cases sort'
  rfl

theorem ranked_of_checked {limit : Value} {collection : Item} {relations sorted : List Relation}
    (known : ∀ r ∈ relations, met r)
    (checked : RelationSet.checkAll collection limit = .ok relations)
    (sort : Relation.sort relations = .ok sorted) : Memo.Ranked met sorted := by
  obtain ⟨_, _, _, valid, distinct, _⟩ := RelationSet.checkAll_eq_ok.mp checked
  have perm := Relation.perm_of_sort sort
  constructor
  · intro r member
    exact known r (perm.subset member)
  · intro r member
    exact (valid r (perm.subset member)).isCounted
  · exact Relation.ordered_of_sort distinct sort

/-- A call that is accepted leaves a sound table, and returns no plan but the best one. -/
theorem sound_accepted {o : Optimizer} {schedules : Nat → List Nat} {clock : Clock} {readings : Nat}
    {collection : Item} {relations : List Relation} {bound : Memo} {out : Optimizer.Outcome}
    (described : Described est) (one : Memo.OneEach met)
    (estimates : (optimize o schedules clock readings collection).Estimates est)
    (known : ∀ r ∈ relations, met r) (sound : m.IsSound met est)
    (accepted : o.accept m collection = .ok (relations, bound))
    (ran : o.optimizeBy schedules clock readings m collection = some out) :
    out.memo.IsSound met est ∧ ∀ plan, out.result = .ok plan →
      (optimize o schedules clock readings collection).Answers est plan := by
  obtain ⟨checked, d, describes, binding⟩ := Optimizer.accept_eq_ok.mp accepted
  obtain ⟨isBest, d', sameD, configuration⟩ := sound.bind described binding
  match prepared : o.prepare (clock readings) relations with
  | .error error =>
    rw [Optimizer.optimizeBy_unprepared accepted prepared] at ran
    cases ran
    refine ⟨.inr ⟨d', o.settings.order, configuration, ?_⟩, fun plan none => nomatch none⟩
    rw [sameD]
    exact isBest
  | .ok (deadline, warnings, sorted, opening) =>
    have sort := (Optimizer.prepare_eq_ok prepared).2.1
    have ranked := ranked_of_checked known checked sort
    let P := Optimizer.posed (est d) o.settings.order bound isBest.sound checked sort
    obtain ⟨reached, only⟩ := Optimizer.optimizeBy_reached P rfl accepted sort
      (Optimizer.sorted_ne_nil checked sort) (estimates d describes) ran
    constructor
    · refine .inr ⟨d', o.settings.order, reached.configuration.trans configuration, ?_⟩
      rw [sameD]
      exact Memo.IsBest.of_reached isBest one ranked reached
    · intro plan ok
      have found : P.plan P.root = best (est d) o.settings.order sorted :=
        Memo.IsBest.plan_eq (P := P) isBest one ranked
      rw [only plan ok, found]
      exact answers_of_best (estimates d describes) describes checked sort

theorem sound_on (described : Described est) (one : Memo.OneEach met)
    (estimates : u.Estimates est) (known : ∀ r ∈ u.relations, met r) (sound : m.IsSound met est)
    (h : u.on m = some (returned, m')) :
    m'.IsSound met est ∧ ∀ plan, returned = some plan → u.Answers est plan := by
  cases u with
  | reset =>
    cases h
    exact ⟨.inl ⟨rfl, Memo.find?_empty⟩, fun plan none => nomatch none⟩
  | optimize o schedules clock readings collection =>
    obtain ⟨out, ran, same⟩ := Option.map_eq_some_iff.mp h
    cases same
    match accepted : o.accept m collection with
    | .error error =>
      rw [Optimizer.optimizeBy_refused accepted] at ran
      cases ran
      exact ⟨sound, fun plan none => nomatch none⟩
    | .ok (relations, bound) =>
      have checked := (Optimizer.accept_eq_ok.mp accepted).1
      rw [relations_of_checked checked] at known
      obtain ⟨soundAfter, answers⟩ :=
        sound_accepted described one estimates known sound accepted ran
      refine ⟨soundAfter, fun plan returned => answers plan ?_⟩
      cases result : out.result with
      | error error => rw [result] at returned; exact nomatch returned
      | ok found => rw [result] at returned; exact congrArg Except.ok (Option.some.inj returned)

/-- What one use preserves, a whole history preserves. -/
theorem sound_history {uses : List Use} {plans : List (Option Plan)} (described : Described est)
    (one : Memo.OneEach met) (estimates : ∀ u ∈ uses, u.Estimates est)
    (known : ∀ u ∈ uses, ∀ r ∈ u.relations, met r) (sound : m.IsSound met est)
    (h : history m uses = some (plans, m')) :
    m'.IsSound met est ∧
      List.Forall₂ (fun u returned => ∀ plan, returned = some plan → u.Answers est plan)
        uses plans := by
  induction uses generalizing m plans with
  | nil =>
    cases h
    exact ⟨sound, .nil⟩
  | cons u later ih =>
    obtain ⟨⟨returned, next⟩, first, rest⟩ := Option.bind_eq_some_iff.mp h
    obtain ⟨⟨others, last⟩, following, same⟩ := Option.bind_eq_some_iff.mp rest
    cases same
    -- The table that the first use leaves behind is sound again.
    obtain ⟨soundNext, answered⟩ := sound_on described one (estimates u List.mem_cons_self)
      (known u List.mem_cons_self) sound first
    obtain ⟨soundLast, answers⟩ := ih (fun v member => estimates v (List.mem_cons_of_mem u member))
      (fun v member => known v (List.mem_cons_of_mem u member)) soundNext following
    exact ⟨soundLast, .cons answered answers⟩

/-- Calls under another configuration are refused, and leave the table as it is. -/
theorem on_foreign {o : Optimizer} {schedules : Nat → List Nat} {clock : Clock} {readings : Nat}
    {collection : Item} {d : Value} (taken : m.configuration.isNull = false)
    (describes : o.model.describe = .ok d)
    (foreign : m.configuration.same (Optimizer.configurationOf d o.settings.order) = false) :
    (optimize o schedules clock readings collection).on m = some (none, m) := by
  match accepted : o.accept m collection with
  | .error error =>
    rw [on, Optimizer.optimizeBy_refused accepted]
    rfl
  | .ok (relations, bound) =>
    obtain ⟨_, d', describes', binding⟩ := Optimizer.accept_eq_ok.mp accepted
    rw [describes] at describes'
    cases describes'
    rcases Memo.bind_eq_ok.mp binding with ⟨free, _⟩ | ⟨_, same, _⟩
    · rw [taken] at free
      contradiction
    · rw [foreign] at same
      contradiction

def Met (uses : List Use) (r : Relation) : Prop := ∃ u ∈ uses, r ∈ u.relations

/-- After any uses of a table that was empty at first, its entries are the best plans of the
configuration that it is bound to, with entries for all smaller sets. Every plan that was returned is
the best one for its input, which is what an empty table would have led to. Calls under another
configuration do nothing. -/
theorem history_best {uses : List Use} {plans : List (Option Plan)} (described : Described est)
    (estimates : ∀ u ∈ uses, u.Estimates est) (one : Memo.OneEach (Met uses))
    (h : history ∅ uses = some (plans, m)) :
    m.IsSound (Met uses) est ∧
      List.Forall₂ (fun u returned => ∀ plan, returned = some plan → u.Answers est plan) uses plans ∧
      ∀ o schedules clock readings collection d, m.configuration.isNull = false →
        o.model.describe = .ok d →
        m.configuration.same (Optimizer.configurationOf d o.settings.order) = false →
        (optimize o schedules clock readings collection).on m = some (none, m) := by
  have known : ∀ u ∈ uses, ∀ r ∈ u.relations, Met uses r := fun u member r inside =>
    ⟨u, member, inside⟩
  obtain ⟨sound, answers⟩ := sound_history described one estimates known
    (.inl ⟨rfl, Memo.find?_empty⟩) h
  exact ⟨sound, answers, fun o schedules clock readings collection d => on_foreign⟩

def plainCall (schedules : Nat → List Nat) (relations : List Relation) : Use :=
  .optimize Optimizer.plainOptimizer schedules (fun _ => 0) 0 (Optimizer.listOf relations)

def someRelations : List Relation := [Problem.plainRelation 2 "B", Problem.plainRelation 1 "A"]

def moreRelations : List Relation := Problem.plainRelation 3 "C" :: someRelations

theorem exists_on_plainCall (m : Memo) (relations : List Relation) :
    ∃ schedules returned m', (plainCall schedules relations).on m = some (returned, m') := by
  obtain ⟨schedules, ran⟩ := Optimizer.plainOptimizer.exists_optimizeBy (fun _ => 0) 0 m
    (Optimizer.listOf relations)
  have on_eq : (plainCall schedules relations).on m =
      (some (Optimizer.plainOptimizer.optimize (fun _ => 0) 0 m (Optimizer.listOf relations))).map
        fun out => (out.result.toOption, out.memo) := by
    rw [plainCall, on, ran]
  exact ⟨schedules, _, _, on_eq⟩

theorem relations_plainCall (schedules : Nat → List Nat) (relations : List Relation) :
    (plainCall schedules relations).relations = relations := by
  change ((Optimizer.listOf relations).elements?.getD []).filterMap Item.relation? = relations
  rw [Optimizer.listOf, Item.elements?, Option.getD_some, List.filterMap_map]
  exact List.filterMap_some

theorem history_best_plainCalls : ∃ schedules schedules' plans m,
    history ∅ [plainCall schedules someRelations, plainCall schedules' moreRelations] =
        some (plans, m) ∧
      m.IsSound (Met [plainCall schedules someRelations, plainCall schedules' moreRelations])
        fun _ => CostModel.sharedOf := by
  obtain ⟨schedules, returned, m, first⟩ := exists_on_plainCall ∅ someRelations
  obtain ⟨schedules', returned', m', second⟩ := exists_on_plainCall m moreRelations
  have ran : history ∅ [plainCall schedules someRelations, plainCall schedules' moreRelations] =
      some ([returned, returned'], m') := by
    simp only [history, first, second, Option.bind_eq_bind, Option.bind_some]
    rfl
  have estimates : ∀ u ∈ [plainCall schedules someRelations, plainCall schedules' moreRelations],
      u.Estimates fun _ => CostModel.sharedOf := by
    intro u member
    rcases List.mem_pair.mp member with rfl | rfl <;>
      exact fun _ _ => CostModel.estimates_sharedAttributes.agrees
  have one : Memo.OneEach
      (Met [plainCall schedules someRelations, plainCall schedules' moreRelations]) := by
    have all : ∀ r, Met [plainCall schedules someRelations, plainCall schedules' moreRelations] r →
        r ∈ moreRelations := by
      rintro r ⟨u, member, inside⟩
      rcases List.mem_pair.mp member with rfl | rfl
      · rw [relations_plainCall] at inside
        exact List.mem_cons_of_mem _ inside
      · rwa [relations_plainCall] at inside
    have distinct : Distinct moreRelations := by decide
    exact fun r s hr hs => distinct.eq_of_identity (all r hr) (all s hs)
  exact ⟨schedules, schedules', _, m', ran, (history_best (fun _ _ _ => rfl) estimates one ran).1⟩

end Use

end JoinOrder
