import JoinOrder.Proofs.Admission
import JoinOrder.Proofs.IdSet
import JoinOrder.Proofs.SortedParts
/-!
How collections are refused. What is looked at first decides: whether there is a collection at all, its
first element that is no well-formed relation, repeated identities, the limit. A refusal cites what it
finds fault with, and where that cannot be written down another error takes its place.
-/

namespace JoinOrder

/-! ### Computations that fail in few ways -/

/-- Whatever a computation fails with is one of some errors. -/
def FailsWith {α : Type} (errors : Error → Prop) (made : Except Error α) : Prop :=
  ∀ e, made = .error e → errors e

namespace FailsWith

variable {α β : Type} {errors : Error → Prop}

theorem ok (a : α) : FailsWith errors (.ok a : Except Error α) := nofun

theorem error {e : Error} (one : errors e) : FailsWith errors (.error e : Except Error α) := by
  intro e' same
  cases same
  exact one

theorem bind {first : Except Error α} {next : α → Except Error β} (early : FailsWith errors first)
    (late : ∀ a, FailsWith errors (next a)) : FailsWith errors (first >>= next) := by
  cases first with
  | error e => exact error (early e rfl)
  | ok a => exact late a

theorem mono {errors' : Error → Prop} {made : Except Error α} (fails : FailsWith errors made)
    (more : ∀ e, errors e → errors' e) : FailsWith errors' made :=
  fun e failed => more e (fails e failed)

theorem mapM {f : α → Except Error β} {xs : List α} (each : ∀ x ∈ xs, FailsWith errors (f x)) :
    FailsWith errors (xs.mapM f) := by
  induction xs with
  | nil => exact ok []
  | cons x xs ih =>
    rw [List.mapM_cons]
    have others := ih fun y member => each y (List.mem_cons_of_mem x member)
    exact bind (each x List.mem_cons_self) fun _ => bind others fun _ => ok _

theorem fitting (found : Option α) : FailsWith (· = .mismatch) (JoinOrder.fitting found) := by
  cases found with
  | none => exact error rfl
  | some a => exact ok a

end FailsWith

/-- A list of computations fails where the first of them does. -/
theorem mapM_eq_error {α β : Type} {f : α → Except Error β} {before after : List α} {x : α}
    {e : Error} (fine : ∀ y ∈ before, ∃ b, f y = .ok b) (fails : f x = .error e) :
    (before ++ x :: after).mapM f = .error e := by
  induction before with
  | nil =>
    rw [List.nil_append, List.mapM_cons, fails]
    rfl
  | cons y before ih =>
    cases fine y List.mem_cons_self with
    | intro b first =>
      have others := ih fun z member => fine z (List.mem_cons_of_mem y member)
      rw [List.cons_append, List.mapM_cons, first, others]
      rfl

/-! ### What cannot be written down -/

/-- Texts and their order ask for values of the right kinds, numbers for few enough digits. -/
def Error.IsOfWriting (e : Error) : Prop := e = .mismatch ∨ e = .unfit

theorem Value.fails_written (v : Value) : FailsWith (· = .unfit) v.written := by
  unfold written
  split
  · exact .ok _
  · exact .error rfl

theorem Value.fails_writtenLiteral (v : Value) : FailsWith (· = .unfit) v.writtenLiteral := by
  unfold writtenLiteral
  split
  · exact .ok _
  · exact .error rfl

theorem Relation.fails_shown (r : Relation) : FailsWith Error.IsOfWriting r.shown := by
  have attributes : FailsWith Error.IsOfWriting r.attributes.shown :=
    .bind ((FailsWith.fitting _).mono fun _ => .inl) fun _ =>
      .bind ((FailsWith.fitting _).mono fun _ => .inl) fun _ => .ok _
  exact .bind attributes fun _ => .bind ((Value.fails_written _).mono fun _ => .inr) fun _ => .ok _

theorem Relation.fails_literal (r : Relation) : FailsWith Error.IsOfWriting r.literal := by
  have written (v : Value) : FailsWith Error.IsOfWriting v.written :=
    v.fails_written.mono fun _ => .inr
  have writtenLiteral (v : Value) : FailsWith Error.IsOfWriting v.writtenLiteral :=
    v.fails_writtenLiteral.mono fun _ => .inr
  have sorted : FailsWith Error.IsOfWriting r.attributes.sorted :=
    (FailsWith.fitting _).mono fun _ => .inl
  exact .bind (written _) fun _ => .bind (writtenLiteral _) fun _ => .bind (written _) fun _ =>
    .bind sorted fun _ => .bind (.mapM fun _ _ => writtenLiteral _) fun _ => .ok _

theorem Plan.fails_shown (p : Plan) : FailsWith Error.IsOfWriting p.shown := by
  induction p with
  | scan r tuples => exact r.fails_shown
  | join left right tuples ihl ihr => exact .bind ihl fun _ => .bind ihr fun _ => .ok _

namespace Item

mutual

theorem fails_literal (item : Item) : FailsWith Error.IsOfWriting item.literal := by
  cases item with
  | scalar s => exact (Value.fails_writtenLiteral _).mono fun _ => .inr
  | group kind members =>
    rw [literal]
    exact .bind (fails_literals members) fun _ => .ok _
  | object entries =>
    rw [literal]
    exact .bind (fails_entryLiterals entries) fun _ => .ok _
  | relation r => exact r.fails_literal
  | plan p => exact p.fails_shown
  | order | path | settings | proxy | «sealed» | broken => exact .ok _

theorem fails_literals (items : List Item) : FailsWith Error.IsOfWriting (literals items) := by
  cases items with
  | nil => exact .ok []
  | cons item items =>
    rw [literals]
    exact .bind (fails_literal item) fun _ => .bind (fails_literals items) fun _ => .ok _

theorem fails_entryLiterals (entries : List (String × Item)) :
    FailsWith Error.IsOfWriting (entryLiterals entries) := by
  cases entries with
  | nil => exact .ok []
  | cons entry entries =>
    cases entry with
    | mk name item =>
      rw [entryLiterals]
      exact .bind (fails_literal item) fun _ => .bind (fails_entryLiterals entries) fun _ => .ok _

end

/-- Among scalars only numbers with too many digits stand in the way. -/
theorem fails_literals_scalars (scalars : List Scalar) :
    FailsWith (· = .unfit) (literals (scalars.map .scalar)) := by
  induction scalars with
  | nil => exact .ok []
  | cons s scalars ih =>
    rw [List.map_cons, literals]
    exact .bind (Value.fails_writtenLiteral _) fun _ => .bind ih fun _ => .ok _

/-- What it comes to that an item is refused for not being what was asked for. The refusal cites the
item, and should that take a number with too many digits it is the number that is complained about. -/
def complaint (item : Item) : Fault :=
  match item.literal with
  | .error .unfit => .value
  | _ => .kind

theorem exists_refusal {α : Type} {item : Item} {refusal : String → Error}
    (kind : ∀ text, (refusal text).fault = .kind) :
    ∃ e, (do throw (refusal (← item.literal)) : Except Error α) = .error e ∧
      e.fault = item.complaint := by
  unfold complaint
  cases literal : item.literal with
  | ok text => exact ⟨refusal text, rfl, kind text⟩
  | error e =>
    refine ⟨e, rfl, ?_⟩
    cases item.fails_literal e literal with
    | inl mismatch =>
      subst mismatch
      rfl
    | inr unfit =>
      subst unfit
      rfl

/-- A relation that passes every check that looks at nothing else. -/
def IsWellFormed (item : Item) : Prop := ∃ r, item = .relation r ∧ r.IsValid

/-- Some item of a list is no well-formed relation, and this one is the first. -/
def FirstIllFormed (items : List Item) (bad : Item) : Prop :=
  ∃ before after, items = before ++ bad :: after ∧ (∀ item ∈ before, item.IsWellFormed) ∧
    ¬ bad.IsWellFormed

/-- Texts are no collections here, nor is anything else that has no elements. -/
def Lists (collection : Item) (items : List Item) : Prop :=
  collection.text? = none ∧ collection.elements? = some items

/-- A collection of valid relations and nothing else. -/
def ListsRelations (collection : Item) (relations : List Relation) : Prop :=
  collection.Lists (relations.map .relation) ∧ ∀ r ∈ relations, r.IsValid

theorem isCollection_of_lists {collection : Item} {items : List Item}
    (lists : collection.Lists items) : collection.isCollection = true := by
  rw [isCollection, lists.1, lists.2]
  rfl

theorem lists_of_isCollection {collection : Item} (is : collection.isCollection = true) :
    ∃ items, collection.Lists items := by
  rw [isCollection, Bool.and_eq_true, Option.isNone_iff_eq_none, Option.isSome_iff_exists] at is
  cases is.2 with
  | intro items elements => exact ⟨items, is.1, elements⟩

theorem wellFormed_or_firstIllFormed (items : List Item) :
    (∃ relations : List Relation, items = relations.map .relation ∧ ∀ r ∈ relations, r.IsValid) ∨
      ∃ bad, FirstIllFormed items bad := by
  induction items with
  | nil => exact .inl ⟨[], rfl, fun r none => absurd none List.not_mem_nil⟩
  | cons item items ih =>
    by_cases fine : item.IsWellFormed
    · rcases ih with ⟨relations, rfl, valid⟩ | ⟨bad, before, after, rfl, fineBefore, illFormed⟩
      · obtain ⟨r, rfl, validFirst⟩ := fine
        exact .inl ⟨r :: relations, rfl, List.forall_mem_cons.mpr ⟨validFirst, valid⟩⟩
      · exact .inr ⟨bad, item :: before, after, rfl, List.forall_mem_cons.mpr ⟨fine, fineBefore⟩,
          illFormed⟩
    · exact .inr ⟨item, [], items, rfl, fun item none => absurd none List.not_mem_nil, fine⟩

end Item

namespace Relation

theorem exists_check_of_wellFormed {item : Item} (fine : item.IsWellFormed) :
    ∃ r, check item = .ok r := by
  cases fine with
  | intro r fine => exact ⟨r, check_eq_ok.mpr fine⟩

theorem fault_of_checkTuples {r : Relation} {e : Error} (failed : r.checkTuples = .error e) :
    e.fault = .value := by
  unfold checkTuples at failed
  split at failed
  · split at failed
    · cases failed
      rfl
    · exact nomatch failed
  · cases failed
    rfl

theorem fault_of_checkAttributes {r : Relation} {e : Error} (failed : r.checkAttributes = .error e) :
    e.fault = .value := by
  unfold checkAttributes at failed
  split at failed
  · exact nomatch failed
  · simp only [Item.literal] at failed
    have writing := Item.fails_literals_scalars (r.listed.filter (!·.isText))
    cases literals : Item.literals ((r.listed.filter (!·.isText)).map .scalar) with
    | ok texts =>
      rw [literals] at failed
      cases failed
      rfl
    | error e' =>
      rw [literals] at failed
      cases failed
      rw [writing e literals]
      rfl

/-- A relation that is not well formed is refused for its values, whatever the refusal has to cite. -/
theorem exists_check_malformed {r : Relation} (malformed : ¬ (Item.relation r).IsWellFormed) :
    ∃ e, check (.relation r) = .error e ∧ e.fault = .value := by
  change ∃ e, (do r.checkTuples; r.checkAttributes; return r) = Except.error e ∧ _
  cases tuples : r.checkTuples with
  | error e => exact ⟨e, rfl, fault_of_checkTuples tuples⟩
  | ok =>
    cases attributes : r.checkAttributes with
    | error e => exact ⟨e, rfl, fault_of_checkAttributes attributes⟩
    | ok =>
      have valid : r.IsValid := ⟨checkTuples_iff.mp tuples, checkAttributes_iff.mp attributes⟩
      exact absurd ⟨r, rfl, valid⟩ malformed

theorem exists_check_foreign {item : Item} (foreign : item.relation? = none) :
    ∃ e, check item = .error e ∧ e.fault = item.complaint := by
  unfold check
  split
  case h_1 r => exact nomatch foreign
  case h_2 => exact Item.exists_refusal fun text => rfl

end Relation

namespace RelationSet

/-! ### Repeated identities -/

/-- One step of the walk: an identity is noted if it comes again and was not noted before. -/
theorem mem_noted {found later : List Scalar} {id : Scalar} {a : Atom} :
    a ∈ (if (later.any fun s => s.atom == id.atom) && !(found.any fun s => s.atom == id.atom)
        then id :: found else found).map Scalar.atom ↔
      a ∈ found.map Scalar.atom ∨ id.atom = a ∧ a ∈ later.map Scalar.atom := by
  have isNew : ((later.any fun s => s.atom == id.atom) &&
      !(found.any fun s => s.atom == id.atom)) = true ↔
        id.atom ∈ later.map Scalar.atom ∧ id.atom ∉ found.map Scalar.atom := by
    simp only [Bool.and_eq_true, Bool.not_eq_true', ← Bool.not_eq_true, List.any_eq_true,
      List.mem_map, beq_iff_eq]
  split
  case isTrue new =>
    rw [List.map_cons, List.mem_cons]
    constructor
    · rintro (rfl | old)
      · exact .inr ⟨rfl, (isNew.mp new).1⟩
      · exact .inl old
    · rintro (old | ⟨rfl, _⟩)
      · exact .inr old
      · exact .inl rfl
  case isFalse notNew =>
    refine ⟨.inl, ?_⟩
    rintro (old | ⟨rfl, again⟩)
    · exact old
    · by_contra unknown
      exact notNew (isNew.mpr ⟨again, unknown⟩)

theorem mem_repeatedIds {relations : List Relation} {found : List Scalar} {a : Atom} :
    a ∈ (repeatedIds relations found).map Scalar.atom ↔
      a ∈ found.map Scalar.atom ∨ List.Duplicate a (relations.map identity) := by
  induction relations generalizing found with
  | nil => simp [repeatedIds]
  | cons r rest ih =>
    have step := @mem_noted found (rest.map (·.id)) r.id a
    rw [List.any_map, List.map_map] at step
    rw [repeatedIds, ih, List.map_cons, List.duplicate_cons_iff, ← or_assoc]
    exact or_congr_left step

theorem checkIds_of_repeated {relations : List Relation} (again : ¬ Distinct relations) :
    checkIds relations = (do
      let sorted ← fitting (SortKey.sortBy? (fun id : Scalar => .atom id.atom)
        (repeatedIds relations []))
      throw (.repeatedIds (Value.array (sorted.map .scalar)).literal)) := by
  unfold checkIds
  cases repeated : repeatedIds relations [] with
  | nil => exact absurd (repeatedIds_eq_nil.mp repeated) again
  | cons id ids => rfl

/-- Repeated identities are reported in their order if any two of them can be compared. -/
theorem exists_checkIds_sorted {relations : List Relation} (again : ¬ Distinct relations)
    (comparable : ∀ a b, List.Duplicate a (relations.map identity) →
      List.Duplicate b (relations.map identity) → a = b ∨ a.comparable b = true) :
    ∃ e, checkIds relations = .error e ∧ e.fault = .value := by
  have sorts : SortKey.sortBy? (fun id : Scalar => .atom id.atom) (repeatedIds relations []) =
      some (SortKey.arranged (fun id : Scalar => .atom id.atom) (repeatedIds relations [])) := by
    apply SortKey.sortBy?_of_comparable
    intro x hx y hy
    have duplicate {id : Scalar} (member : id ∈ repeatedIds relations []) :
        List.Duplicate id.atom (relations.map identity) :=
      (mem_repeatedIds.mp (List.mem_map_of_mem member)).resolve_left List.not_mem_nil
    have either := comparable x.atom y.atom (duplicate hx) (duplicate hy)
    simpa only [SortKey.comparable, Bool.or_eq_true, beq_iff_eq] using either
  rw [checkIds_of_repeated again, sorts]
  exact ⟨_, rfl, rfl⟩

/-- Two that cannot be compared stop the report from being put together. -/
theorem exists_checkIds_mixed {relations : List Relation} {a b : Atom}
    (again : List.Duplicate a (relations.map identity))
    (other : List.Duplicate b (relations.map identity)) (apart : a ≠ b)
    (incomparable : a.comparable b = false) :
    ∃ e, checkIds relations = .error e ∧ e.fault = .kind := by
  have unsorted : SortKey.sortBy? (fun id : Scalar => .atom id.atom) (repeatedIds relations []) =
      none := by
    cases sorts : SortKey.sortBy? (fun id : Scalar => .atom id.atom) (repeatedIds relations []) with
    | none => rfl
    | some sorted =>
      have perm : sorted.Perm (repeatedIds relations []) := by
        rw [(SortKey.eq_arranged_of_sortBy? sorts).1]
        exact SortKey.arranged_perm _ _
      have listed {c : Atom} (duplicate : List.Duplicate c (relations.map identity)) :
          ∃ id ∈ sorted, id.atom = c := by
        have member : c ∈ (repeatedIds relations []).map Scalar.atom :=
          mem_repeatedIds.mpr (.inr duplicate)
        exact List.mem_map.mp ((perm.map Scalar.atom).mem_iff.mpr member)
      obtain ⟨x, hx, rfl⟩ := listed again
      obtain ⟨y, hy, rfl⟩ := listed other
      have either := SortKey.comparable_of_sortBy? sorts x hx y hy
      simp only [SortKey.comparable, Bool.or_eq_true, beq_iff_eq] at either
      exact absurd (either.resolve_left apart) (by simp [incomparable])
  rw [checkIds_of_repeated again.not_nodup, unsorted]
  exact ⟨_, rfl, rfl⟩

/-! ### Refusals -/

/-- How a collection of too few, too many or the wrong members is refused. Its elements are looked at
one by one before they are taken together; repetitions are reported before the limit is looked at, with
the repeated identities in their order, and there may not be such an order. -/
inductive Refused (collection : Item) (limit : Nat) : Fault → Prop
  | noCollection (single : ∀ items, ¬ collection.Lists items) :
    Refused collection limit collection.complaint
  | foreign {items : List Item} {bad : Item} (elements : collection.Lists items)
    (first : Item.FirstIllFormed items bad) (foreign : bad.relation? = none) :
    Refused collection limit bad.complaint
  | malformed {items : List Item} {r : Relation} (elements : collection.Lists items)
    (first : Item.FirstIllFormed items (.relation r)) : Refused collection limit .value
  | empty (elements : collection.Lists []) : Refused collection limit .value
  | repeated {relations : List Relation} (elements : collection.ListsRelations relations)
    (again : ¬ Distinct relations)
    (comparable : ∀ a b, List.Duplicate a (relations.map identity) →
      List.Duplicate b (relations.map identity) → a = b ∨ a.comparable b = true) :
    Refused collection limit .value
  | mixed {relations : List Relation} {a b : Atom} (elements : collection.ListsRelations relations)
    (again : List.Duplicate a (relations.map identity))
    (other : List.Duplicate b (relations.map identity)) (apart : a ≠ b)
    (incomparable : a.comparable b = false) : Refused collection limit .kind
  | excess {relations : List Relation} (elements : collection.ListsRelations relations)
    (nonempty : relations ≠ []) (distinct : Distinct relations) (more : limit < relations.length) :
    Refused collection limit .excess

/-- A collection of valid relations that can be optimized together. -/
structure Admitted (collection : Item) (limit : Nat) (relations : List Relation) : Prop where
  elements : collection.ListsRelations relations
  nonempty : relations ≠ []
  distinct : Distinct relations
  few : relations.length ≤ limit

variable {collection : Item} {limit : Nat} {relations : List Relation}

theorem checkSize_of_le (few : relations.length ≤ limit) :
    checkSize relations.length (.int limit) = .ok () := by
  unfold checkSize
  rw [Value.less?_int, decide_eq_false (by omega)]
  rfl

theorem exists_checkSize_of_lt (more : limit < relations.length) :
    ∃ e, checkSize relations.length (.int limit) = .error e ∧ e.fault = .excess := by
  unfold checkSize
  rw [Value.less?_int, decide_eq_true (by omega)]
  exact ⟨_, rfl, rfl⟩

theorem checkAll_of_lists {items : List Item} (elements : collection.Lists items) (limit : Value) :
    checkAll collection limit = (do
      let relations ← items.mapM Relation.check
      if relations.isEmpty then throw .noRelations
      checkIds relations
      checkSize relations.length limit
      return relations) := by
  unfold checkAll
  rw [Item.isCollection_of_lists elements, Item.elements, elements.2]
  rfl

theorem checkAll_of_firstIllFormed {items : List Item} {bad : Item} {e : Error}
    (elements : collection.Lists items) (first : Item.FirstIllFormed items bad)
    (fails : Relation.check bad = .error e) (limit : Value) :
    checkAll collection limit = .error e := by
  obtain ⟨before, after, rfl, fine, _⟩ := first
  have stops : (before ++ bad :: after).mapM Relation.check = .error e :=
    mapM_eq_error (fun item member => Relation.exists_check_of_wellFormed (fine item member)) fails
  rw [checkAll_of_lists elements, stops]
  rfl

theorem checkAll_of_listsRelations (elements : collection.ListsRelations relations)
    (nonempty : relations ≠ []) (limit : Value) :
    checkAll collection limit = (do
      checkIds relations
      checkSize relations.length limit
      return relations) := by
  rw [checkAll_of_lists elements.1, mapM_check_eq_ok.mpr ⟨rfl, elements.2⟩]
  cases relations with
  | nil => exact absurd rfl nonempty
  | cons r rest => rfl

theorem exists_checkAll_of_checkIds {fault : Fault} (elements : collection.ListsRelations relations)
    (again : ¬ Distinct relations) (fails : ∃ e, checkIds relations = .error e ∧ e.fault = fault)
    (limit : Value) : ∃ e, checkAll collection limit = .error e ∧ e.fault = fault := by
  have nonempty : relations ≠ [] := by
    rintro rfl
    exact again List.nodup_nil
  obtain ⟨e, failed, fault⟩ := fails
  rw [checkAll_of_listsRelations elements nonempty, failed]
  exact ⟨e, rfl, fault⟩

theorem Refused.exists_error {fault : Fault} (refused : Refused collection limit fault) :
    ∃ e, checkAll collection (.int limit) = .error e ∧ e.fault = fault := by
  cases refused with
  | noCollection single =>
    have isNone : collection.isCollection = false := by
      rw [← Bool.not_eq_true]
      intro is
      cases Item.lists_of_isCollection is with
      | intro items elements => exact single items elements
    unfold checkAll
    rw [isNone]
    exact Item.exists_refusal fun text => rfl
  | foreign elements first foreign =>
    obtain ⟨e, fails, fault⟩ := Relation.exists_check_foreign foreign
    exact ⟨e, checkAll_of_firstIllFormed elements first fails _, fault⟩
  | malformed elements first =>
    have malformed := first.choose_spec.choose_spec.2.2
    obtain ⟨e, fails, fault⟩ := Relation.exists_check_malformed malformed
    exact ⟨e, checkAll_of_firstIllFormed elements first fails _, fault⟩
  | empty elements =>
    rw [checkAll_of_lists elements]
    exact ⟨.noRelations, rfl, rfl⟩
  | repeated elements again comparable =>
    exact exists_checkAll_of_checkIds elements again (exists_checkIds_sorted again comparable) _
  | mixed elements again other apart incomparable =>
    exact exists_checkAll_of_checkIds elements again.not_nodup
      (exists_checkIds_mixed again other apart incomparable) _
  | excess elements nonempty distinct more =>
    obtain ⟨e, failed, fault⟩ := exists_checkSize_of_lt more
    rw [checkAll_of_listsRelations elements nonempty, checkIds_iff.mpr distinct, failed]
    exact ⟨e, rfl, fault⟩

theorem Admitted.checkAll_eq (admitted : Admitted collection limit relations) :
    checkAll collection (.int limit) = .ok relations := by
  rw [checkAll_of_listsRelations admitted.elements admitted.nonempty,
    checkIds_iff.mpr admitted.distinct, checkSize_of_le admitted.few]
  rfl

/-- The checks leave no gap between what they refuse and what they admit. -/
theorem refused_or_admitted (collection : Item) (limit : Nat) :
    (∃ fault, Refused collection limit fault) ∨ ∃ relations, Admitted collection limit relations := by
  by_cases lists : ∃ items, collection.Lists items
  · obtain ⟨items, elements⟩ := lists
    rcases Item.wellFormed_or_firstIllFormed items with ⟨relations, rfl, valid⟩ | ⟨bad, first⟩
    · have elements : collection.ListsRelations relations := ⟨elements, valid⟩
      by_cases nonempty : relations = []
      · subst nonempty
        exact .inl ⟨.value, .empty elements.1⟩
      by_cases distinct : Distinct relations
      · by_cases few : relations.length ≤ limit
        · exact .inr ⟨relations, elements, nonempty, distinct, few⟩
        · exact .inl ⟨.excess, .excess elements nonempty distinct (Nat.lt_of_not_le few)⟩
      · by_cases comparable : ∀ a b, List.Duplicate a (relations.map identity) →
            List.Duplicate b (relations.map identity) → a = b ∨ a.comparable b = true
        · exact .inl ⟨.value, .repeated elements distinct comparable⟩
        · simp only [not_forall, not_or, Bool.not_eq_true] at comparable
          obtain ⟨a, b, again, other, apart, incomparable⟩ := comparable
          exact .inl ⟨.kind, .mixed elements again other apart incomparable⟩
    · cases foreign : bad.relation? with
      | none => exact .inl ⟨bad.complaint, .foreign elements first foreign⟩
      | some r =>
        have is : bad = .relation r := by
          unfold Item.relation? at foreign
          split at foreign
          · cases foreign
            rfl
          · contradiction
        subst is
        exact .inl ⟨.value, .malformed elements first⟩
  · exact .inl ⟨collection.complaint, .noCollection fun items elements => lists ⟨items, elements⟩⟩

theorem accept_eq_error {limit : Value} {e : Error} :
    accept collection limit = .error e ↔ checkAll collection limit = .error e := by
  unfold accept
  cases checkAll collection limit with
  | error e' =>
    constructor
    · rintro ⟨⟩
      rfl
    · rintro ⟨⟩
      rfl
  | ok relations => exact iff_of_false (fun failed => nomatch failed) fun failed => nomatch failed

theorem accept_eq_ok_iff {limit : Value} {accepted : RelationSet} :
    accept collection limit = .ok accepted ↔
      ∃ relations, checkAll collection limit = .ok relations ∧ IdSet.ofList relations = accepted := by
  unfold accept
  cases checkAll collection limit with
  | error e => exact iff_of_false (fun ok => nomatch ok) fun ⟨_, ok, _⟩ => nomatch ok
  | ok relations =>
    constructor
    · rintro ⟨⟩
      exact ⟨relations, rfl, rfl⟩
    · rintro ⟨_, ⟨⟩, rfl⟩
      rfl

theorem admitted_of_checkAll (ok : checkAll collection (.int limit) = .ok relations) :
    Admitted collection limit relations := by
  cases refused_or_admitted collection limit with
  | inl refused =>
    cases refused with
    | intro fault refused =>
      obtain ⟨e, failed, _⟩ := refused.exists_error
      rw [ok] at failed
      contradiction
  | inr admitted =>
    cases admitted with
    | intro others admitted =>
      have same := admitted.checkAll_eq
      rw [ok] at same
      cases same
      exact admitted

/-- Whatever is handed over and however many relations are allowed, a collection is refused with a
fault exactly for the reasons that lead to it, each of which comes to one kind of fault. It is accepted
exactly if it lists valid relations with distinct identities, at least one and not too many, and what
is returned then is the set of just these, as many as were listed. -/
theorem accept_iff (collection : Item) (limit : Nat) :
    (∀ fault, (∃ e, accept collection (.int limit) = .error e ∧ e.fault = fault) ↔
      Refused collection limit fault) ∧
    ∀ accepted, accept collection (.int limit) = .ok accepted ↔
      ∃ relations, Admitted collection limit relations ∧ accepted.toList.Perm relations ∧
        accepted.size = relations.length := by
  constructor
  · intro fault
    simp only [accept_eq_error]
    constructor
    · rintro ⟨e, failed, is⟩
      rcases refused_or_admitted collection limit with ⟨fault', refused⟩ | ⟨relations, admitted⟩
      · obtain ⟨e', failed', is'⟩ := refused.exists_error
        rw [failed] at failed'
        cases failed'
        exact is ▸ is'.symm ▸ refused
      · rw [admitted.checkAll_eq] at failed
        contradiction
    · exact Refused.exists_error
  · intro accepted
    rw [accept_eq_ok_iff]
    constructor
    · rintro ⟨relations, ok, rfl⟩
      have admitted := admitted_of_checkAll ok
      exact ⟨relations, admitted, IdSet.perm_ofList admitted.distinct,
        IdSet.size_ofList admitted.distinct⟩
    · rintro ⟨relations, admitted, perm, _⟩
      refine ⟨relations, admitted.checkAll_eq, IdSet.eq_of_members fun r => ?_⟩
      rw [IdSet.mem_ofList_iff admitted.distinct, perm.mem_iff]

section Examples

/-- Two identities that are repeated, one a number and one a text, do not let themselves be sorted for
the report: instead of the repetition another kind of thing is found fault with. -/
theorem accept_mixedIds :
    let relation (id : Scalar) (name : String) : Relation := ⟨id, .text name, .int 1, ∅, []⟩
    let relations := [relation (.int 1) "A", relation (.int 1) "B", relation (.text "x") "C",
      relation (.text "x") "D"]
    (∀ r ∈ relations, r.IsValid) ∧ ¬ Distinct relations ∧
      ∃ e, accept (.group .list (relations.map .relation)) (.int 16) = .error e ∧
        e.fault = .kind := by
  intro relation relations
  have each (id : Scalar) (name : String) : (relation id name).IsValid :=
    ⟨⟨1, by decide, rfl⟩, nofun⟩
  have valid : ∀ r ∈ relations, r.IsValid := by
    intro r member
    simp only [relations, List.mem_cons, List.not_mem_nil, or_false] at member
    rcases member with rfl | rfl | rfl | rfl <;> exact each _ _
  have numbers : List.Duplicate (Atom.number 1 0) (relations.map identity) :=
    List.duplicate_iff_two_le_count.mpr (by decide)
  have texts : List.Duplicate (Atom.text "x") (relations.map identity) :=
    List.duplicate_iff_two_le_count.mpr (by decide)
  have refused : Refused (.group .list (relations.map .relation)) 16 .kind :=
    .mixed ⟨⟨rfl, rfl⟩, valid⟩ numbers texts (by decide) rfl
  obtain ⟨e, failed, kind⟩ := refused.exists_error
  exact ⟨valid, numbers.not_nodup, e, accept_eq_error.mpr failed, kind⟩

end Examples

end RelationSet

end JoinOrder
