import JoinOrder.Admission
import JoinOrder.Proofs.Estimate
import JoinOrder.Proofs.RelationOrder
/-!
Which collections are accepted: exactly those of valid relations with distinct identities that are
neither empty nor too large. Names and identities are not looked at beyond that.
-/

namespace JoinOrder

/-- What a computation returns, its first step has prepared. -/
theorem ok_of_bind {α β : Type} {first : Except Error α} {next : α → Except Error β} {made : β}
    (ok : first.bind next = .ok made) : ∃ a, first = .ok a ∧ next a = .ok made := by
  cases first with
  | error e => exact nomatch ok
  | ok a => exact ⟨a, rfl, ok⟩

namespace Relation

/-- The tuple count is an integer that is not negative, and all attributes are texts. -/
structure IsValid (r : Relation) : Prop where
  tuples : ∃ n, 0 ≤ n ∧ r.tuples = .int n
  attributes : ∀ s ∈ r.attributes.toList, s.isText = true

theorem IsValid.isCounted {r : Relation} (h : r.IsValid) : r.IsCounted := by
  obtain ⟨n, _, is⟩ := h.tuples
  exact ⟨n, is⟩

theorem checkTuples_iff {r : Relation} :
    r.checkTuples = .ok () ↔ ∃ n, 0 ≤ n ∧ r.tuples = .int n := by
  unfold checkTuples
  split
  case h_1 n is =>
    rw [is]
    by_cases negative : n < 0
    · simp only [negative, if_true]
      constructor
      · intro h
        exact nomatch h
      · rintro ⟨m, low, same⟩
        cases same
        omega
    · simp only [negative, if_false, true_iff]
      exact ⟨n, by omega, rfl⟩
  case h_2 other =>
    constructor
    · intro h
      exact nomatch h
    · rintro ⟨n, _, is⟩
      exact absurd is (other n)

theorem checkAttributes_iff {r : Relation} :
    r.checkAttributes = .ok () ↔ ∀ s ∈ r.attributes.toList, s.isText = true := by
  unfold checkAttributes
  cases texts : r.attributes.toList.all Scalar.isText with
  | true => simpa [pure, Except.pure] using List.all_eq_true.mp texts
  | false =>
    have wrong : ¬ ∀ s ∈ r.attributes.toList, s.isText = true := fun all => by
      rw [List.all_eq_true.mpr all] at texts
      contradiction
    refine iff_of_false (fun ok => ?_) wrong
    simp only [Bool.false_eq_true, if_false] at ok
    cases literal : (Item.group .list
      ((r.listed.filter (!·.isText)).map fun s => Item.scalar s)).literal with
    | error e => rw [literal] at ok; exact nomatch ok
    | ok text => rw [literal] at ok; exact nomatch ok

theorem check_eq_ok {item : Item} {r : Relation} :
    check item = .ok r ↔ item = .relation r ∧ r.IsValid := by
  by_cases given : ∃ s, item = .relation s
  · obtain ⟨s, rfl⟩ := given
    change (do s.checkTuples; s.checkAttributes; return s) = Except.ok r ↔ _
    cases tuples : s.checkTuples with
    | error e =>
      refine iff_of_false (fun ok => nomatch ok) fun ⟨same, valid⟩ => ?_
      cases same
      rw [checkTuples_iff.mpr valid.tuples] at tuples
      contradiction
    | ok =>
      cases attributes : s.checkAttributes with
      | error e =>
        refine iff_of_false (fun ok => nomatch ok) fun ⟨same, valid⟩ => ?_
        cases same
        rw [checkAttributes_iff.mpr valid.attributes] at attributes
        contradiction
      | ok =>
        have valid : s.IsValid := ⟨checkTuples_iff.mp tuples, checkAttributes_iff.mp attributes⟩
        constructor
        · rintro ⟨⟩
          exact ⟨rfl, valid⟩
        · rintro ⟨same, _⟩
          cases same
          rfl
  · refine iff_of_false (fun ok => ?_) fun ⟨same, _⟩ => given ⟨r, same⟩
    unfold check at ok
    split at ok
    case h_1 s => exact given ⟨s, rfl⟩
    case h_2 =>
      cases literal : item.literal with
      | error e => rw [literal] at ok; exact nomatch ok
      | ok text => rw [literal] at ok; exact nomatch ok

end Relation

namespace RelationSet

theorem repeatedIds_ne_nil {relations : List Relation} {found : List Scalar} (some : found ≠ []) :
    repeatedIds relations found ≠ [] := by
  induction relations generalizing found with
  | nil => simpa [repeatedIds] using some
  | cons r rest ih =>
    rw [repeatedIds]
    apply ih
    split
    · exact List.cons_ne_nil _ _
    · exact some

theorem repeatedIds_eq_nil {relations : List Relation} :
    repeatedIds relations [] = [] ↔ Distinct relations := by
  induction relations with
  | nil => exact iff_of_true rfl List.nodup_nil
  | cons r rest ih =>
    have again : (rest.any fun s => s.id.atom == r.id.atom) = true ↔
        identity r ∈ rest.map identity := by
      rw [List.any_eq_true, List.mem_map]
      simp only [beq_iff_eq]
      rfl
    rw [repeatedIds, Distinct, List.map_cons, List.nodup_cons, ← again]
    cases comesAgain : rest.any fun s => s.id.atom == r.id.atom with
    | true =>
      refine iff_of_false (repeatedIds_ne_nil (by simp)) (by simp)
    | false => simpa [Distinct] using ih

theorem checkIds_iff {relations : List Relation} :
    checkIds relations = .ok () ↔ Distinct relations := by
  rw [← repeatedIds_eq_nil, checkIds]
  cases repeated : repeatedIds relations [] with
  | nil => exact iff_of_true rfl rfl
  | cons id ids =>
    refine iff_of_false (fun ok => ?_) (by simp)
    dsimp only at ok
    cases sorted : fitting (SortKey.sortBy? (fun id : Scalar => .atom id.atom) (id :: ids)) with
    | error e => rw [sorted] at ok; exact nomatch ok
    | ok ids => rw [sorted] at ok; exact nomatch ok

theorem mapM_check_eq_ok {items : List Item} {relations : List Relation} :
    items.mapM Relation.check = .ok relations ↔
      items = relations.map .relation ∧ ∀ r ∈ relations, r.IsValid := by
  induction items generalizing relations with
  | nil =>
    rw [List.mapM_nil]
    constructor
    · rintro ⟨⟩
      exact ⟨rfl, by simp⟩
    · rintro ⟨none, _⟩
      rw [List.map_eq_nil_iff.mp none.symm]
      rfl
  | cons item items ih =>
    rw [List.mapM_cons]
    cases first : Relation.check item with
    | error e =>
      refine iff_of_false (fun ok => nomatch ok) fun ⟨same, valid⟩ => ?_
      cases relations with
      | nil => exact nomatch same
      | cons r rest =>
        have checked := Relation.check_eq_ok.mpr ⟨(List.cons.inj same).1, valid r List.mem_cons_self⟩
        rw [checked] at first
        contradiction
    | ok r =>
      obtain ⟨rfl, valid⟩ := Relation.check_eq_ok.mp first
      cases others : items.mapM Relation.check with
      | error e =>
        refine iff_of_false (fun ok => nomatch ok) fun ⟨same, valid⟩ => ?_
        cases relations with
        | nil => exact nomatch same
        | cons s rest =>
          have checked := ih.mpr ⟨(List.cons.inj same).2, fun r member =>
            valid r (List.mem_cons_of_mem s member)⟩
          rw [checked] at others
          contradiction
      | ok rest =>
        obtain ⟨rfl, validRest⟩ := ih.mp others
        constructor
        · rintro ⟨⟩
          exact ⟨rfl, by simpa using ⟨valid, validRest⟩⟩
        · rintro ⟨same, _⟩
          have same : (r :: rest).map Item.relation = relations.map .relation := same
          rw [← List.map_injective_iff.mpr (fun r s same => Item.relation.inj same) same]
          rfl

theorem checkAll_eq_ok {collection : Item} {limit : Value} {relations : List Relation} :
    checkAll collection limit = .ok relations ↔
      collection.isCollection = true ∧ collection.elements = .ok (relations.map .relation) ∧
        relations ≠ [] ∧ (∀ r ∈ relations, r.IsValid) ∧ Distinct relations ∧
          checkSize relations.length limit = .ok () := by
  unfold checkAll
  cases kind : collection.isCollection with
  | false =>
    refine iff_of_false (fun ok => ?_) fun h => nomatch h.1
    cases literal : collection.literal with
    | error e => rw [literal] at ok; exact nomatch ok
    | ok text => rw [literal] at ok; exact nomatch ok
  | true =>
    cases elements : collection.elements with
    | error e => exact iff_of_false (fun ok => nomatch ok) fun h => nomatch h.2.1
    | ok items =>
      change (do
        let checked ← items.mapM Relation.check
        if checked.isEmpty then throw .noRelations
        checkIds checked
        checkSize checked.length limit
        return checked) = Except.ok relations ↔ _
      cases checked : items.mapM Relation.check with
      | error e =>
        refine iff_of_false (fun ok => nomatch ok) fun ⟨_, same, _, valid, _⟩ => ?_
        rw [mapM_check_eq_ok.mpr ⟨Except.ok.inj same, valid⟩] at checked
        contradiction
      | ok found =>
        obtain ⟨rfl, valid⟩ := mapM_check_eq_ok.mp checked
        have only {relations : List Relation}
            (same : Except.ok (ε := Error) (found.map Item.relation) =
              .ok (relations.map .relation)) : found = relations :=
          List.map_injective_iff.mpr (fun r s same => Item.relation.inj same) (Except.ok.inj same)
        match found with
        | [] =>
          refine iff_of_false (fun ok => nomatch ok) fun ⟨_, same, nonempty, _⟩ =>
            nonempty (only same).symm
        | r :: rest =>
          change (do
            checkIds (r :: rest)
            checkSize (r :: rest).length limit
            return r :: rest) = Except.ok relations ↔ _
          cases ids : checkIds (r :: rest) with
          | error e =>
            refine iff_of_false (fun ok => nomatch ok) fun ⟨_, same, _, _, distinct, _⟩ => ?_
            rw [only same, checkIds_iff.mpr distinct] at ids
            contradiction
          | ok =>
            cases size : checkSize (r :: rest).length limit with
            | error e =>
              refine iff_of_false (fun ok => nomatch ok) fun ⟨_, same, _, _, _, small⟩ => ?_
              rw [only same, small] at size
              contradiction
            | ok =>
              constructor
              · rintro ⟨⟩
                exact ⟨rfl, rfl, by simp, valid, checkIds_iff.mp ids, size⟩
              · rintro ⟨_, same, _⟩
                rw [← only same]
                rfl

end RelationSet

end JoinOrder
