import JoinOrder.Proofs.Identities
import JoinOrder.Proofs.SettingsExport
import JoinOrder.Proofs.TextOrder
/-!
Relations in JSON. What is written for a relation that was built at any time is read as the same relation
later on, and the counter stays where it is.
-/

namespace JoinOrder

section Members

variable {α : Type} [Identified α]

theorem Increasing.insert_of_mem {x : α} {ys : List α} (sorted : Increasing ys)
    (there : identity x ∈ ys.map identity) : insert x ys = ys := by
  induction ys with
  | nil => cases there
  | cons y ys ih =>
    obtain ⟨above, rest⟩ := List.pairwise_cons.mp sorted
    unfold insert
    split
    case h_1 lt =>
      obtain ⟨z, member, same⟩ := List.mem_map.mp there
      have below : precedes x z := by
        rcases List.mem_cons.mp member with rfl | member
        · exact lt
        · exact precedes_trans lt (above z member)
      rw [precedes, same, Atom.order_self] at below
      cases below
    case h_2 => rfl
    case h_3 gt =>
      rcases List.mem_cons.mp there with same | there
      · rw [same, Atom.order_self] at gt
        cases gt
      · rw [ih rest there]

theorem Increasing.perm_insert {x : α} {ys : List α} (fresh : identity x ∉ ys.map identity) :
    (insert x ys).Perm (x :: ys) := by
  induction ys with
  | nil => exact .refl _
  | cons y ys ih =>
    rw [List.map_cons, List.mem_cons, not_or] at fresh
    unfold insert
    split
    case h_1 => exact .refl _
    case h_2 eq => exact absurd (Atom.order_eq_iff.mp eq) fresh.1
    case h_3 => exact ((ih fresh.2).cons y).trans (.swap x y ys)

/-- A table and a set that are made of the same things have the same members. -/
theorem SlotTable.members_perm (xs : List α) :
    (SlotTable.ofList xs).members.Perm (IdSet.ofList xs).toList := by
  have all (table : SlotTable α) (s : IdSet α) (same : table.members.Perm s.toList) :
      (table.insertAll xs).members.Perm (xs.foldl IdSet.insert s).toList := by
    induction xs generalizing table s with
    | nil => exact same
    | cons x xs ih =>
      refine ih _ _ ?_
      -- Both leave out what they know already, and they know the same identities.
      cases known : table.contains x with
      | true =>
        obtain ⟨y, inside, equal⟩ := List.any_eq_true.mp known
        have there : identity x ∈ s.toList.map identity :=
          List.mem_map.mpr ⟨y, same.mem_iff.mp inside, (beq_iff_eq.mp equal).symm⟩
        rw [insert, known, if_pos rfl]
        show table.members.Perm (Increasing.insert x s.toList)
        rwa [Increasing.insert_of_mem s.increasing there]
      | false =>
        have fresh : identity x ∉ s.toList.map identity := fun there => by
          obtain ⟨y, inside, equal⟩ := List.mem_map.mp there
          have found : table.contains x = true :=
            List.any_eq_true.mpr ⟨y, same.mem_iff.mpr inside, beq_iff_eq.mpr equal.symm⟩
          rw [known] at found
          cases found
        exact (perm_insert known).trans ((same.cons x).trans (Increasing.perm_insert fresh).symm)
  exact all (empty leastSize) ∅ (.refl _)

/-- A set is made again of its members, in whatever order. -/
theorem IdSet.ofList_perm {s : IdSet α} {xs : List α} (same : xs.Perm s.toList) : ofList xs = s := by
  have distinct : Distinct xs := Distinct.perm s.nodup_identities same
  exact eq_of_members fun x => (mem_ofList_iff distinct).trans same.mem_iff

end Members

/-- Among scalars only integers can be too long. -/
theorem Value.fits_scalar (n : Nat) (s : Scalar) : fits n (.scalar s) = (Value.scalar s).isWritable := by
  cases s with
  | bool b =>
    have small : (if b then 1 else 0 : Int).natAbs < digitEnd :=
      Nat.lt_of_lt_of_le (by cases b <;> decide) ten_le_digitEnd
    have writable : (Value.bool b).isWritable = true := by
      simpa only [isWritable, int?, Scalar.int?, Option.all_some, decide_eq_true_eq] using small
    rw [writable]
    rfl
  | _ => rfl

namespace Relation

variable {r s : Relation} {counter : IdCounter} {machine : Machine}

/-- The attributes in the order of their texts. -/
def arranged (r : Relation) : List Scalar := byText (r.listed.map fun s => (s.shown, s))

theorem exported_eq (r : Relation) : r.exported =
    .object [("id", .scalar r.id), ("name", r.name), ("tuples", r.tuples),
      ("attributes", .array (r.arranged.map .scalar))] := by
  have same : byText (r.listed.map fun s => (s.shown, Value.scalar s)) = r.arranged.map .scalar := by
    rw [arranged, ← byText_map, List.map_map]
    rfl
  rw [exported, same]

theorem arranged_perm (r : Relation) : r.arranged.Perm r.listed := by
  have perm := byText_perm (r.listed.map fun s => (s.shown, s))
  rw [List.map_map] at perm
  exact perm.trans (List.map_id _ ▸ .refl _)

/-- What is known of every relation that was built. -/
structure IsBuilt (r : Relation) : Prop where
  listed : r.listed.Perm r.attributes.toList
  name : r.name.truthy = true

theorem isBuilt_of_built {a : Attempt} (built : a.built = some r) : r.IsBuilt := by
  have built := Attempt.built_eq_some.mp built
  obtain ⟨scalars, _, built⟩ := ok_of_bind built
  -- The two branches differ in where the name comes from, and go on alike.
  have ends : ∀ name : Except Error Value, (∀ v, name = .ok v → v.truthy = true) →
      (name.bind fun name => (fitting a.identity.scalar?).bind fun scalar => .ok
        (⟨scalar, name, a.tuples, IdSet.ofList scalars, (SlotTable.ofList scalars).members⟩ :
          Relation)) = .ok r → r.IsBuilt := by
    intro name truthy built
    obtain ⟨v, named, built⟩ := ok_of_bind built
    obtain ⟨id, _, made⟩ := ok_of_bind built
    cases made
    exact ⟨SlotTable.members_perm scalars, truthy v named⟩
  cases given : a.name.truthy with
  | true =>
    rw [given] at built
    exact ends (.ok a.name) (fun v same => Except.ok.inj same ▸ given) built
  | false =>
    rw [given] at built
    refine ends (Relation.defaultName a.identity) (fun v named => ?_) built
    obtain ⟨text, _, same⟩ := ok_of_bind named
    cases same
    show decide ("T" ++ text ≠ "") = true
    refine decide_eq_true fun empty => ?_
    have := congrArg String.toList empty
    rw [String.toList_append] at this
    cases this

/-- The identity is an integer or a text, the name a text and the tuple count an integer. -/
structure IsProper (r : Relation) : Prop where
  id : (∃ n, r.id = .int n) ∨ ∃ t, r.id = .text t
  name : ∃ t, r.name = .text t
  tuples : ∃ n, r.tuples = .int n

/-- JSON can carry everything that the relation consists of. -/
structure IsCarried (r : Relation) : Prop where
  id : r.id.isCarried = true
  name : r.name.isCarried = true
  attributes : ∀ s ∈ r.attributes.toList, s.isCarried = true

/-- No integer in the relation is too long to be written. -/
structure IsWritable (r : Relation) : Prop where
  id : (Value.scalar r.id).isWritable = true
  tuples : r.tuples.isWritable = true
  attributes : ∀ s ∈ r.attributes.toList, (Value.scalar s).isWritable = true

theorem isCarried_exported (built : r.IsBuilt) (proper : r.IsProper) (carried : r.IsCarried) :
    r.exported.isCarried = true := by
  have attributes : Value.areCarried (r.arranged.map .scalar) = true :=
    (Value.areCarried_iff _).mpr (List.forall_mem_map.mpr fun s member =>
      carried.attributes s (built.listed.mem_iff.mp (r.arranged_perm.mem_iff.mp member)))
  obtain ⟨n, tuples⟩ := proper.tuples
  have names : ∀ name ∈ ["id", "name", "tuples", "attributes"], Text.isCarried name = true := by decide
  simp only [List.forall_mem_cons] at names
  obtain ⟨nameId, nameName, nameTuples, nameAttributes, -⟩ := names
  have count : (Scalar.int n).isCarried = true := rfl
  rw [exported_eq, tuples]
  simp [Value.isCarried, Value.entriesCarried, attributes, carried.name, carried.id, count, nameId,
    nameName, nameTuples, nameAttributes]

theorem fits_exported (built : r.IsBuilt) (proper : r.IsProper) :
    r.exported.fits machine.textLevels = true ↔ r.IsWritable := by
  have scalars (n : Nat) (ss : List Scalar) : Value.allFit n (ss.map .scalar) = true ↔
      ∀ s ∈ ss, (Value.scalar s).isWritable = true := by
    rw [Value.allFit_iff, List.forall_mem_map]
    simp only [Value.fits_scalar]
  obtain ⟨n, tuples⟩ := proper.tuples
  obtain ⟨name, named⟩ := proper.name
  have same (s : Scalar) : s ∈ r.arranged ↔ s ∈ r.attributes.toList :=
    r.arranged_perm.mem_iff.trans built.listed.mem_iff
  -- The object and the list of attributes take the two levels that every machine has.
  obtain ⟨levels, deep⟩ := Nat.exists_eq_add_of_le' machine.two_le_textLevels
  rw [exported_eq, deep]
  show (Value.fits (levels + 1) (.scalar r.id) && (Value.fits (levels + 1) r.name &&
    (Value.fits (levels + 1) r.tuples &&
      (Value.allFit levels (r.arranged.map .scalar) && true)))) = true ↔ _
  have plain : Value.fits (levels + 1) (.text name) = true := rfl
  rw [named, plain, tuples, Value.fits_scalar, Value.fits_scalar]
  simp only [Bool.and_eq_true, scalars, same, and_true, true_and]
  exact ⟨fun ⟨id, count, each⟩ => ⟨id, by rwa [tuples], each⟩,
    fun ⟨id, count, each⟩ => ⟨id, by rwa [tuples] at count, each⟩⟩

/-- An identity that the counter has taken note of leaves it where it is. -/
theorem reserve_of_known (known : ∀ n, r.id.int? = some n → n ≤ counter.largest) :
    counter.reserve (.scalar r.id) = counter := by
  unfold IdCounter.reserve
  split
  · next n int => rw [Int.max_eq_left (known n int)]
  · rfl

theorem ofValue_exported (built : r.IsBuilt) (proper : r.IsProper)
    (known : ∀ n, r.id.int? = some n → n ≤ counter.largest) :
    ∃ s, ofValue counter r.exported = (.ok s, counter) ∧ s.id = r.id ∧ s.name = r.name ∧
      s.tuples = r.tuples ∧ s.attributes = r.attributes := by
  have given : (Value.scalar r.id).isNull = false := by
    rcases proper.id with ⟨n, id⟩ | ⟨t, id⟩ <;> rw [id] <;> rfl
  have elements : (r.arranged.map Value.scalar).mapM Value.scalar? = some r.arranged := by
    induction r.arranged with
    | nil => rfl
    | cons s ss ih =>
      rw [List.map_cons, List.mapM_cons, ih]
      rfl
  rw [exported_eq]
  show ∃ s, build counter r.tuples (.array (r.arranged.map .scalar)) (.scalar r.id) r.name =
    (.ok s, counter) ∧ _
  unfold build
  rw [IdCounter.take_of_given given, reserve_of_known known]
  refine ⟨⟨r.id, r.name, r.tuples, IdSet.ofList r.arranged, (SlotTable.ofList r.arranged).members⟩,
    Prod.ext ?_ rfl, rfl, rfl, rfl, IdSet.ofList_perm (r.arranged_perm.trans built.listed)⟩
  show (Attributes.scalarsOf (.array (r.arranged.map .scalar)) >>= _) = _
  rw [show Attributes.scalarsOf (.array (r.arranged.map .scalar)) = .ok r.arranged by
    show fitting ((r.arranged.map Value.scalar).mapM Value.scalar?) = _
    rw [elements]
    rfl]
  rw [built.name]
  rfl

theorem render_relation (r : Relation) (text : String) :
    Json.render machine [] (.relation r) = .ok (some text) ↔
      Json.write (.plain machine) r.exported = .ok text :=
  Json.render_iff rfl rfl rfl text

end Relation

namespace Making

variable {counter : IdCounter} {makings : List Making} {r : Relation}

/-- The counter at the end of a history is beyond every integer identity in it. -/
theorem le_finish {a : Attempt} (member : a ∈ history counter makings) (built : a.built = some r) {n : Int}
    (int : r.id.int? = some n) : n ≤ (finish counter makings).largest := by
  rw [← last_history]
  refine history_chained.le_last member ?_
  rw [Attempt.identity_of_built built]
  exact int

/-- A relation that was built at any time of a history is written exactly if none of its integers is too
long. What is written is read as the same relation, with everything that it had, and the counter at the
end of the history stays where it is. -/
theorem export_restores (machine : Machine)
    (built : ∃ a ∈ history counter makings, a.built = some r) (proper : r.IsProper)
    (carried : r.IsCarried) :
    ((∃ text, Json.render machine [] (.relation r) = .ok (some text)) ↔ r.IsWritable) ∧
    ∀ text, Json.render machine [] (.relation r) = .ok (some text) →
      ∃ v s, Json.read machine text = .ok v ∧
        Relation.ofValue (finish counter makings) v = (.ok s, finish counter makings) ∧
        identity s = identity r ∧ s.id = r.id ∧ s.name = r.name ∧ s.tuples = r.tuples ∧
        s.attributes = r.attributes := by
  obtain ⟨a, member, built⟩ := built
  have isBuilt := Relation.isBuilt_of_built built
  constructor
  · simp only [Relation.render_relation]
    rw [Json.write_iff, Relation.fits_exported isBuilt proper]
  · intro text wrote
    have read := Json.read_write (Relation.isCarried_exported isBuilt proper carried)
      ((Relation.render_relation r text).mp wrote)
    obtain ⟨s, made, id, name, tuples, attributes⟩ :=
      Relation.ofValue_exported isBuilt proper fun n int => le_finish member built int
    exact ⟨r.exported, s, read, made, congrArg Scalar.atom id, id, name, tuples, attributes⟩

/-- Two relations, the second of which draws the identity behind that of the first. -/
def inTurn (first : Int) : List Making :=
  [.fields (.int 1) (.array []) (.int first) (.text "A"),
    .fields (.int 1) (.array []) .null (.text "B")]

/-- A relation with no attributes. -/
def bare (id : Int) (name : String) : Relation := ⟨.int id, .text name, .int 1, ∅, []⟩

theorem drawn_inTurn {first : Int} (nonneg : 0 ≤ first) :
    ∃ a ∈ history .start (inTurn first), a.built = some (bare (first + 1) "B") := by
  refine ⟨_, List.mem_cons_of_mem _ List.mem_cons_self, ?_⟩
  show some (bare (max 0 first + 1) "B") = _
  rw [Int.max_eq_right nonneg]

theorem isProper_bare (id : Int) (name : String) : (bare id name).IsProper :=
  ⟨.inl ⟨id, rfl⟩, ⟨name, rfl⟩, ⟨1, rfl⟩⟩

theorem exported_bare (id : Int) (name : String) : (bare id name).exported =
    .object [("id", .int id), ("name", .text name), ("tuples", .int 1), ("attributes", .array [])] := by
  have nothing : (bare id name).arranged = [] := by simp [Relation.arranged, byText, bare]
  rw [Relation.exported_eq, nothing]
  rfl

theorem isWritable_bare (id : Int) (name : String) :
    (bare id name).IsWritable ↔ id.natAbs < Value.digitEnd := by
  refine ⟨fun short => (Value.isWritable_int id).mp short.id, fun small => ?_⟩
  have one : (1 : Int).natAbs < Value.digitEnd := Nat.lt_of_lt_of_le (by decide) Value.ten_le_digitEnd
  exact ⟨(Value.isWritable_int id).mpr small, (Value.isWritable_int 1).mpr one, nofun⟩

/-- A drawn identity is read as one that was given, and the next one is drawn behind it all the same. -/
theorem drawn_restored :
    (∃ a ∈ history .start (inTurn 4), a.built = some (bare 5 "B")) ∧ (bare 5 "B").IsProper ∧
    (bare 5 "B").IsCarried ∧ (bare 5 "B").IsWritable ∧ ∃ text v s,
      Json.render .small [] (.relation (bare 5 "B")) = .ok (some text) ∧ Json.read .small text = .ok v ∧
      Relation.ofValue ⟨5⟩ v = (.ok s, ⟨5⟩) ∧ s.attributes = (bare 5 "B").attributes := by
  have built := drawn_inTurn (show 0 ≤ 4 by decide)
  have carried : (bare 5 "B").IsCarried := ⟨rfl, by decide, nofun⟩
  have short : (bare 5 "B").IsWritable :=
    (isWritable_bare 5 "B").mpr (Nat.lt_of_lt_of_le (by decide) Value.ten_le_digitEnd)
  have restores := export_restores .small built (isProper_bare 5 "B") carried
  obtain ⟨text, wrote⟩ := restores.1.mpr short
  obtain ⟨v, s, read, made, -, -, -, -, attributes⟩ := restores.2 text wrote
  exact ⟨built, isProper_bare 5 "B", carried, short, text, v, s, wrote, read, made, attributes⟩

/-- A drawn identity may be too long to be written, and halves do not stay apart. -/
theorem export_not_always :
    (∃ a ∈ history .start (inTurn (Value.digitEnd - 1)), ∃ r, a.built = some r ∧ r.IsProper ∧
      r.IsCarried ∧ ¬ ∃ text, Json.render .small [] (.relation r) = .ok (some text)) ∧
    ∃ a ∈ history .start [.fields (.int 1) (.array []) (.int 1) (.text Text.halves)], ∃ r text v s,
      a.built = some r ∧ r.IsProper ∧ Json.render .small [] (.relation r) = .ok (some text) ∧
      Json.read .small text = .ok v ∧ Relation.ofValue a.after v = (.ok s, a.after) ∧ s.name ≠ r.name := by
  constructor
  · have edge : (Value.digitEnd : Int) - 1 + 1 = Value.digitEnd := Int.sub_add_cancel _ _
    have nonneg : (0 : Int) ≤ Value.digitEnd - 1 := by
      have := Value.ten_le_digitEnd
      omega
    have nameCarried : (Scalar.text "B").isCarried = true := by decide
    generalize (Value.digitEnd : Int) - 1 = first at edge nonneg ⊢
    obtain ⟨a, member, built⟩ := drawn_inTurn nonneg
    refine ⟨a, member, _, built, isProper_bare _ _, ⟨rfl, nameCarried, nofun⟩, ?_⟩
    simp only [Relation.render_relation]
    rw [Json.write_iff, Relation.fits_exported (Relation.isBuilt_of_built built) (isProper_bare _ _)]
    intro short
    have short := (isWritable_bare _ _).mp short
    rw [edge, Int.natAbs_natCast] at short
    exact Nat.lt_irrefl _ short
  · refine ⟨_, List.mem_cons_self, bare 1 Text.halves,
      "\x7b\"id\": 1, \"name\": \"\\ud800\\udc00\", \"tuples\": 1, \"attributes\": []\x7d",
      (bare 1 Text.joined).exported, bare 1 Text.joined, rfl, isProper_bare _ _, ?_, ?_, ?_, ?_⟩
    · rw [Relation.render_relation, exported_bare]
      decide +kernel
    · refine Json.read_write ?_ ?_
      · rw [exported_bare]
        decide +kernel
      · rw [exported_bare]
        decide +kernel
    · rw [exported_bare]
      rfl
    · intro same
      exact absurd (Value.scalar.inj same) (by decide)

end Making

end JoinOrder
