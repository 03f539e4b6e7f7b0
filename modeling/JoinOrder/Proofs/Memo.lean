import JoinOrder.Memo
import JoinOrder.Proofs.IdSet
/-!
Memo tables as maps from sets of relations to plans. A plan that is stored is found under its set,
however that set is put together, and under no other.
-/

namespace JoinOrder

/-- Relations that are handed in as items come out as they went in. -/
theorem Item.mapM_relation? (relations : List Relation) :
    (relations.map Item.relation).mapM Item.relation? = some relations := by
  induction relations with
  | nil => rfl
  | cons r relations ih => rw [List.map_cons, List.mapM_cons, ih]; rfl

namespace Memo

variable {m m' : Memo} {plan : Plan} {K L : RelationSet} {listed source : List Relation}

theorem find?_congr (same : K.identities = L.identities) : m.find? K = m.find? L := by
  rw [find?, find?, same]

theorem find?_empty (K : RelationSet) : (∅ : Memo).find? K = none :=
  congrArg (Option.map Entry.plan) (Trie.find?_leaf K.identities)

theorem find?_put (some : listed ≠ []) :
    (m.put listed plan).find? K =
      if K.identities = (IdSet.ofList listed).identities then .some plan else m.find? K := by
  unfold find? put
  rw [Trie.find?_alter (IdSet.identities_ofList_ne_nil some)]
  split
  · cases m.table.find? (IdSet.ofList listed).identities <;> rfl
  · rfl

/-- A table can be bound if it is free or bound to the same already, and keeps its plans. -/
theorem bind_eq_ok {configuration : Value} : m.bind configuration = .ok m' ↔
    m.configuration.isNull = true ∧ m' = { m with configuration } ∨
      m.configuration.isNull = false ∧ m.configuration.same configuration = true ∧ m' = m := by
  unfold bind
  cases m.configuration.isNull with
  | true => simp [@eq_comm _ m']
  | false => cases m.configuration.same configuration <;> simp [@eq_comm _ m']

theorem find?_bind {configuration : Value} (h : m.bind configuration = .ok m') :
    m'.find? = m.find? := by
  rcases bind_eq_ok.mp h with ⟨_, rfl⟩ | ⟨_, _, rfl⟩ <;> rfl

/-- The table with the plan of a set whose members came in this order. -/
def withPlan (m : Memo) (source : List Relation) (plan : Plan) : Memo :=
  m.put (SlotTable.ofList source).members plan

theorem identities_members (source : List Relation) :
    (IdSet.ofList (SlotTable.ofList source).members).identities = (IdSet.ofList source).identities :=
  IdSet.identities_ofList_congr fun _ => SlotTable.mem_identities_ofList source

theorem members_ne_nil (some : source ≠ []) : (SlotTable.ofList source).members ≠ [] := by
  obtain ⟨r, rest, rfl⟩ := List.exists_cons_of_ne_nil some
  intro none
  have listed := (SlotTable.mem_identities_ofList (r :: rest) (a := identity r)).mpr (by simp)
  rw [none] at listed
  contradiction

theorem find?_withPlan (some : source ≠ []) :
    (m.withPlan source plan).find? K =
      if K.identities = (IdSet.ofList source).identities then .some plan else m.find? K := by
  rw [withPlan, find?_put (members_ne_nil some), identities_members]

theorem store_eq_ok (covers : plan.relations.identities = (IdSet.ofList source).identities) :
    m.store (SlotTable.ofList source).members plan = .ok (m.withPlan source plan) := by
  have same : plan.relations.same (.ofList (SlotTable.ofList source).members) = true :=
    IdSet.same_iff.mpr (covers.trans (identities_members source).symm)
  rw [store, same]
  rfl

/-- No entry of the one table is missing or different in the other. -/
def Keeps (m m' : Memo) : Prop := ∀ K p, m.find? K = .some p → m'.find? K = .some p

theorem Keeps.refl (m : Memo) : Keeps m m := fun _ _ found => found

theorem Keeps.trans {m₁ m₂ m₃ : Memo} (h₁ : Keeps m₁ m₂) (h₂ : Keeps m₂ m₃) : Keeps m₁ m₃ :=
  fun K p found => h₂ K p (h₁ K p found)

theorem Keeps.isSome {m m' : Memo} (h : Keeps m m') (found : (m.find? K).isSome = true) :
    (m'.find? K).isSome = true := by
  obtain ⟨p, found⟩ := Option.isSome_iff_exists.mp found
  rw [h K p found]
  rfl

theorem keeps_withPlan (some : source ≠ [])
    (fresh : m.find? (.ofList source) = none) : Keeps m (m.withPlan source plan) := by
  intro K p found
  rw [find?_withPlan some, if_neg, found]
  intro same
  rw [find?_congr same, fresh] at found
  contradiction

end Memo

end JoinOrder
