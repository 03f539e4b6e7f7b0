import JoinOrder.Proofs.Calls
/-!
Every plan joins each of its relations once, whatever the model says: one that prefers left sides, one
that changes its mind, one that gives up. A table compares only the sets of relations, so no check of
its own would find a relation that a plan joins twice.
-/

namespace JoinOrder

namespace Plan

/-- The plan joins each of the relations once. -/
structure JoinsOnce (relations : List Relation) (p : Plan) : Prop where
  distinct : Distinct relations
  leaves : p.leaves.Perm relations
  apart : ∀ left right tuples, join left right tuples ∈ p.joins →
    left.relations.identities ≠ [] ∧ right.relations.identities ≠ [] ∧
      left.relations.identities.Disjoint right.relations.identities

variable {p left right : Plan} {tuples : Value} {met : Relation → Prop} {xs : List Relation}

theorem relations_ne_nil (p : Plan) : p.relations.identities ≠ [] := by
  obtain ⟨r, leaf⟩ := List.exists_mem_of_ne_nil _ p.leaves_ne_nil
  exact List.ne_nil_of_mem (mem_identities_relations.mpr (List.mem_map_of_mem leaf))

/-- If no relation occurs twice, the two sides of every join have none in common. -/
theorem disjoint_of_mem_joins (once : (p.leaves.map identity).Nodup)
    (member : join left right tuples ∈ p.joins) :
    left.relations.identities.Disjoint right.relations.identities := by
  induction p with
  | scan r tuples => contradiction
  | join l r v ihl ihr =>
    rw [leaves, List.map_append] at once
    obtain ⟨onceL, onceR, apart⟩ := List.nodup_append.mp once
    rcases List.mem_append.mp member with inside | last
    · rcases List.mem_append.mp inside with inLeft | inRight
      · exact ihl onceL inLeft
      · exact ihr onceR inRight
    · cases List.mem_singleton.mp last
      intro a inLeft inRight
      rw [mem_identities_relations] at inLeft inRight
      exact apart a inLeft a inRight rfl

theorem Covers.nodup (h : p.Covers met (keyOf xs)) (distinct : Distinct xs) :
    (p.leaves.map identity).Nodup :=
  h.leaves.nodup_iff.mpr ((perm_keyOf distinct).nodup_iff.mpr distinct)

/-- If one identity stands for one relation, a plan that covers a key joins its relations. -/
theorem Covers.joinsOnce (h : p.Covers met (keyOf xs)) (one : Memo.OneEach met)
    (distinct : Distinct xs) (known : ∀ r ∈ xs, met r) : p.JoinsOnce xs := by
  have once := h.nodup distinct
  have same : (p.leaves.map identity).Perm (xs.map identity) :=
    h.leaves.trans (perm_keyOf distinct)
  refine ⟨distinct, ?_, fun left right tuples member => ?_⟩
  · apply (List.perm_ext_iff_of_nodup (List.Nodup.of_map _ once) (List.Nodup.of_map _ distinct)).mpr
    intro r
    constructor
    · intro leaf
      obtain ⟨s, inside, equal⟩ := List.mem_map.mp (same.subset (List.mem_map_of_mem leaf))
      rwa [one r s (h.met r leaf) (known s inside) equal.symm]
    · intro member
      obtain ⟨s, leaf, equal⟩ := List.mem_map.mp (same.symm.subset (List.mem_map_of_mem member))
      rwa [one r s (known r member) (h.met s leaf) equal.symm]
  · exact ⟨relations_ne_nil left, relations_ne_nil right, disjoint_of_mem_joins once member⟩

/-- The leaves of a plan that covers a key are relations with that key. -/
theorem Covers.exists_joinsOnce {K : RelationSet} (h : p.Covers met K.identities)
    (one : Memo.OneEach met) :
    ∃ xs, K.identities = keyOf xs ∧ (∀ r ∈ xs, met r) ∧ p.JoinsOnce xs := by
  have same : K.identities = keyOf p.leaves := by
    apply IdSet.identities_eq
    intro a
    rw [IdSet.mem_identities_ofList]
    exact h.leaves.mem_iff.symm
  have distinct : Distinct p.leaves := h.leaves.nodup_iff.mpr K.nodup_identities
  exact ⟨p.leaves, same, h.met, (same ▸ h).joinsOnce one distinct h.met⟩

end Plan

namespace Call

variable {calls : List Call} {ws : List Optimizer.Watched} {m : Memo}

def Met (calls : List Call) (r : Relation) : Prop := ∃ c ∈ calls, r ∈ c.relations

/-- After any calls on a table that was empty at first, each plan in it and each plan that was returned
joins its relations once, and no search was refused a plan that it wanted to keep. -/
theorem history_joinsOnce (integer : ∀ c ∈ calls, c.optimizer.model.IsInteger)
    (one : Memo.OneEach (Met calls)) (h : history ∅ calls = some (ws, m)) :
    (∀ K p, m.find? K = some p → ∃ xs, K.identities = keyOf xs ∧ (∀ r ∈ xs, Met calls r) ∧
        p.JoinsOnce xs) ∧
      List.Forall₂ (fun c w =>
        (∀ p, w.outcome.result = .ok p → ∃ relations,
          RelationSet.checkAll c.collection c.optimizer.settings.maxRelations = .ok relations ∧
            p.JoinsOnce relations) ∧
        ∀ search, w.search = some search → ∀ event ∈ search.events, event.isRefusal = false)
        calls ws := by
  have known : ∀ c ∈ calls, ∀ r ∈ c.relations, Met calls r := fun c member r inside =>
    ⟨c, member, inside⟩
  have account := history_account integer known Memo.filled_empty h
  constructor
  · intro K p found
    exact (account.filled.entries K p found).2.exists_joinsOnce one
  · apply account.calls.imp
    rintro c w ⟨before, added, accounts, _⟩
    refine ⟨fun p ok => ?_, accounts.granted⟩
    obtain ⟨_, relations, checked, _, inside, covers, _⟩ := accounts.returned p ok
    have ⟨_, _, _, _, distinct, _⟩ := RelationSet.checkAll_eq_ok.mp checked
    exact ⟨relations, checked, covers.joinsOnce one distinct inside⟩

theorem met_of_relations {inputs : List (List Relation)} {r : Relation}
    (same : calls.map relations = inputs) (met : Met calls r) : ∃ input ∈ inputs, r ∈ input := by
  obtain ⟨c, member, inside⟩ := met
  exact ⟨c.relations, same ▸ List.mem_map_of_mem member, inside⟩

/-- A model that changes its mind with every call. -/
def fickle : CostModel where
  name := "FickleModel"
  describe := .ok (.object [("name", .text "fickle")])
  estimate asked _ _ := .ok (.int (7 - 3 * asked))

theorem history_joinsOnce_fickle : ∃ calls ws m,
    calls.map relations = [Use.someRelations, Use.moreRelations] ∧
      (∀ c ∈ calls, c.optimizer = ⟨.default, fickle, 0, none⟩) ∧ history ∅ calls = some (ws, m) ∧
      ∀ K p, m.find? K = some p → ∃ xs, K.identities = keyOf xs ∧ (∀ r ∈ xs, Met calls r) ∧
        p.JoinsOnce xs := by
  obtain ⟨calls, ws, m, same, all, ran, _⟩ :=
    exists_history ⟨.default, fickle, 0, none⟩ ∅ [Use.someRelations, Use.moreRelations]
  have integer : ∀ c ∈ calls, c.optimizer.model.IsInteger := by
    intro c member asked left right v _ _ ok
    rw [all c member] at ok
    cases ok
    exact ⟨_, rfl⟩
  have one : Memo.OneEach (Met calls) := by
    have within : ∀ r, Met calls r → r ∈ Use.moreRelations := by
      intro r met
      obtain ⟨input, member, inside⟩ := met_of_relations same met
      rcases List.mem_pair.mp member with rfl | rfl
      · exact List.mem_cons_of_mem _ inside
      · exact inside
    have distinct : Distinct Use.moreRelations := by decide
    exact fun r s hr hs => distinct.eq_of_identity (within r hr) (within s hs)
  exact ⟨calls, ws, m, same, all, ran, (history_joinsOnce integer one ran).1⟩

end Call

end JoinOrder
