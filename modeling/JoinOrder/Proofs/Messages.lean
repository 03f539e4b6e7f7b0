import JoinOrder.Proofs.Admission
import JoinOrder.Proofs.Ends
/-!
What can be told. A message is written if each of its items is, and of a valid search only numbers
with too many digits stand in the way.
-/

namespace JoinOrder

namespace MessageLayout

variable {layout : MessageLayout} {items : List Item}

theorem run_ofExcept_bind {α : Type} (result : Except Error α) (f : α → Writing Unit) (s : String) :
    ((Writing.ofExcept result >>= f).run.run s) =
      match result with
      | .ok v => (f v).run.run s
      | .error e => (.error e, s) := by
  cases result <;> rfl

theorem writeOthers_ok_iff (s : String) : ((layout.writeOthers items).run.run s).1 = .ok () ↔
    ∀ item ∈ items, ∃ text, item.shown = .ok text := by
  induction items generalizing s with
  | nil => exact iff_of_true rfl (by simp)
  | cons item items ih =>
    change ((Writing.ofExcept item.shown >>= fun text => do
      Writing.text text
      layout.writeOthers items).run.run (s ++ layout.separator)).1 = _ ↔ _
    rw [run_ofExcept_bind]
    cases shown : item.shown with
    | error e => simp [shown]
    | ok text =>
      have rest : ((layout.writeOthers items).run.run (s ++ layout.separator ++ text)).1 = .ok () ↔
        ∀ item ∈ items, ∃ text, item.shown = .ok text := ih _
      exact rest.trans (by simp [shown])

theorem write_ok_iff : (layout.write items).output.2 = .ok () ↔
    ∀ item ∈ items, ∃ text, item.shown = .ok text := by
  cases items with
  | nil => exact iff_of_true rfl (by simp)
  | cons item items =>
    change ((Writing.ofExcept item.shown >>= fun text => do
      Writing.text text
      layout.writeOthers items).run.run "").1 = _ ↔ _
    rw [run_ofExcept_bind]
    cases shown : item.shown with
    | error e => simp [shown]
    | ok text =>
      have rest : ((layout.writeOthers items).run.run ("" ++ text)).1 = .ok () ↔
        ∀ item ∈ items, ∃ text, item.shown = .ok text := writeOthers_ok_iff _
      exact rest.trans (by simp [shown])

end MessageLayout

theorem mapM_isSome_iff {α β : Type} {f : α → Option β} {xs : List α} :
    (∃ ys, xs.mapM f = some ys) ↔ ∀ x ∈ xs, ∃ y, f x = some y := by
  induction xs with
  | nil => simp
  | cons x xs ih =>
    rw [List.mapM_cons, List.forall_mem_cons, ← ih]
    cases f x <;> cases xs.mapM f <;> simp

namespace RelationSet

theorem namesInOrder_isOk_iff {sorted : List Relation} :
    (∃ text, namesInOrder sorted = .ok text) ↔ ∀ r ∈ sorted, r.IsNamed := by
  have texts : (∀ r ∈ sorted, r.IsNamed) ↔ ∀ r ∈ sorted, ∃ s, r.name.text? = some s := by
    refine forall₂_congr fun r _ => ⟨fun ⟨s, is⟩ => ⟨s, by rw [is]; rfl⟩, fun ⟨s, is⟩ => ⟨s, ?_⟩⟩
    unfold Value.text? at is
    split at is
    case h_1 name => rw [name, ← Option.some.inj is]
    case h_2 => contradiction
  rw [texts, ← mapM_isSome_iff, namesInOrder]
  cases sorted.mapM fun r => r.name.text? with
  | none => exact iff_of_false (fun ⟨_, ok⟩ => nomatch ok) (by simp)
  | some names => exact iff_of_true ⟨_, rfl⟩ ⟨names, rfl⟩

end RelationSet

theorem Scalar.isText_iff {s : Scalar} : s.isText = true ↔ ∃ t, s = .text t := by
  cases s <;> simp [isText]

theorem Attributes.shown_isOk {attributes : Attributes}
    (texts : ∀ s ∈ attributes.toList, s.isText = true) : ∃ text, attributes.shown = .ok text := by
  have comparable : ∀ s ∈ attributes.toList, ∀ t ∈ attributes.toList,
      (Natural.ofScalar s).comparable (Natural.ofScalar t) = true := by
    intro s hs t ht
    obtain ⟨s, rfl⟩ := Scalar.isText_iff.mp (texts s hs)
    obtain ⟨t, rfl⟩ := Scalar.isText_iff.mp (texts t ht)
    exact Natural.comparable_ofText s t
  have sorted := SortKey.sortBy?_of_comparable comparable
  obtain ⟨names, named⟩ : ∃ names, (SortKey.arranged Natural.ofScalar attributes.toList).mapM
      (fun s => (Value.scalar s).text?) = some names := by
    refine mapM_isSome_iff.mpr fun s member => ?_
    obtain ⟨t, rfl⟩ := Scalar.isText_iff.mp (texts s ((SortKey.arranged_perm _ _).subset member))
    exact ⟨t, rfl⟩
  refine ⟨", ".intercalate names, ?_⟩
  rw [Attributes.shown, sorted]
  change (do return ", ".intercalate (← fitting _)) = _
  rw [named]
  rfl

theorem Value.written_isOk_iff {v : Value} :
    (∃ text, v.written = .ok text) ↔ v.isWritable = true := by
  unfold written
  split
  case isTrue writable => exact iff_of_true ⟨_, rfl⟩ writable
  case isFalse unwritable => exact iff_of_false (fun ⟨_, ok⟩ => nomatch ok) unwritable

theorem Value.eq_shown_of_written {v : Value} {text : String} (ok : v.written = .ok text) :
    text = v.shown := by
  unfold written at ok
  split at ok
  case isTrue => exact (Except.ok.inj ok).symm
  case isFalse => exact nomatch ok

/-- Of a relation whose attributes are texts, only the tuples may be too many to be shown. -/
theorem Relation.shown_isOk_iff {r : Relation}
    (texts : ∀ s ∈ r.attributes.toList, s.isText = true) :
    (∃ text, r.shown = .ok text) ↔ r.tuples.isWritable = true := by
  obtain ⟨attributes, shown⟩ := Attributes.shown_isOk texts
  rw [← Value.written_isOk_iff, Relation.shown, shown]
  change (∃ text, (do return r.name.shown ++ "[" ++ attributes ++ "]: " ++ (← r.tuples.written)) =
    Except.ok text) ↔ _
  cases r.tuples.written with
  | error e => exact iff_of_false (fun ⟨_, ok⟩ => nomatch ok) (fun ⟨_, ok⟩ => nomatch ok)
  | ok tuples => exact iff_of_true ⟨_, rfl⟩ ⟨tuples, rfl⟩

theorem Relation.bracket_mem_shown {r : Relation} {text : String} (shown : r.shown = .ok text) :
    '[' ∈ text.toList := by
  obtain ⟨attributes, -, shown⟩ := ok_of_bind shown
  obtain ⟨tuples, -, same⟩ := ok_of_bind shown
  cases same
  simp [String.toList_append]

theorem Plan.shown_isOk_iff {p : Plan}
    (texts : ∀ r ∈ p.leaves, ∀ s ∈ r.attributes.toList, s.isText = true) :
    (∃ text, p.shown = .ok text) ↔ ∀ r ∈ p.leaves, r.tuples.isWritable = true := by
  induction p with
  | scan r tuples =>
    rw [Plan.shown, Relation.shown_isOk_iff (texts r (by simp [leaves]))]
    simp [leaves]
  | join left right tuples ihl ihr =>
    have ihl := ihl fun r member => texts r (by simp [leaves, member])
    have ihr := ihr fun r member => texts r (by simp [leaves, member])
    rw [leaves, List.forall_mem_append, ← ihl, ← ihr, Plan.shown]
    cases left.shown with
    | error e => exact iff_of_false (by rintro ⟨_, ⟨⟩⟩) (by rintro ⟨⟨_, ⟨⟩⟩, _⟩)
    | ok l =>
      cases right.shown with
      | error e => exact iff_of_false (by rintro ⟨_, ⟨⟩⟩) (by rintro ⟨_, _, ⟨⟩⟩)
      | ok r => exact iff_of_true ⟨_, rfl⟩ ⟨⟨l, rfl⟩, r, rfl⟩

theorem Item.shown_scalar_iff {s : Scalar} :
    (∃ text, (Item.scalar s).shown = .ok text) ↔ (Value.scalar s).isWritable = true :=
  Value.written_isOk_iff

theorem Item.shown_text (s : String) : ∃ text, (Item.text s).shown = .ok text := ⟨s, rfl⟩

namespace Search.Answerer

variable {a : Answerer}

/-- Of a plan for relations with names, only the numbers of tuples may be too large to be told. -/
theorem tells_solved_iff {relations : List Relation} {plan : Plan} {s : Scalar}
    (named : ∀ r ∈ relations, r.IsNamed) (tuples : plan.tuples = .scalar s)
    (texts : ∀ r ∈ plan.leaves, ∀ s ∈ r.attributes.toList, s.isText = true) :
    a.Tells (.solved relations plan) ↔ (a.verbose = true →
      (∀ r ∈ plan.leaves, r.tuples.isWritable = true) ∧ plan.tuples.isWritable = true) := by
  refine forall_congr' fun _ => ?_
  obtain ⟨names, ok⟩ := RelationSet.namesInOrder_isOk_iff.mpr named
  have message : (Progress.solved relations plan).message = .ok [.text "Best plan for",
      .text names, .text "is", .plan plan, .text "with", .ofValue plan.tuples, .text "tuples"] := by
    rw [Progress.message, ok]
    rfl
  have joins : (∃ text, (Item.plan plan).shown = .ok text) ↔
      ∀ r ∈ plan.leaves, r.tuples.isWritable = true := Plan.shown_isOk_iff texts
  have number : (∃ text, (Item.ofValue plan.tuples).shown = .ok text) ↔
      plan.tuples.isWritable = true := by
    rw [tuples]
    exact Item.shown_scalar_iff
  simp only [message, Except.ok.injEq, exists_eq_left', MessageLayout.write_ok_iff,
    List.forall_mem_cons, Item.shown_text, joins, number, true_and, List.not_mem_nil, false_imp_iff,
    implies_true, and_true]

theorem tells_layer_iff {count size : Nat} {s : Scalar} :
    a.Tells (.layer count size (.scalar s)) ↔ (a.verbose = true →
      (Value.int count).isWritable = true ∧ (Value.int size).isWritable = true ∧
        (Value.scalar s).isWritable = true) := by
  refine forall_congr' fun _ => ?_
  have number (n : Nat) : (∃ text, (Item.natural n).shown = .ok text) ↔
      (Value.int n).isWritable = true := Item.shown_scalar_iff
  have workers : (∃ text, (Item.ofValue (.scalar s)).shown = .ok text) ↔
      (Value.scalar s).isWritable = true := Item.shown_scalar_iff
  simp only [Progress.message, Except.ok.injEq, exists_eq_left', MessageLayout.write_ok_iff,
    List.forall_mem_cons, Item.shown_text, number, workers, true_and, List.not_mem_nil,
    false_imp_iff, implies_true, and_true]

end Search.Answerer

end JoinOrder
