import JoinOrder.Proofs.Admission
/-!
Identities over a whole history of relations: those that are drawn never meet one that was there
before.

Relations come from their fields, from an object or from a list of pairs. All three build them one
after another, each from the counter that the one before left, also where that one came to nothing.
So a history is a single log of attempts, whatever calls they belong to.
-/

namespace JoinOrder

namespace IdCounter

theorem take_of_null {counter : IdCounter} {given : Value} (none : given.isNull = true) :
    counter.take given = (.int (counter.largest + 1), ⟨counter.largest + 1⟩) := by
  simp [take, none, draw]

theorem take_of_given {counter : IdCounter} {given : Value} (some : given.isNull = false) :
    counter.take given = (given, counter.reserve given) := by
  simp [take, some]

theorem largest_le_reserve {counter : IdCounter} {given : Value} :
    counter.largest ≤ (counter.reserve given).largest := by
  unfold reserve
  split
  · exact Int.le_max_left ..
  · exact Int.le_refl _

theorem le_reserve {counter : IdCounter} {given : Value} {n : Int} (int : given.int? = some n) :
    n ≤ (counter.reserve given).largest := by
  simp only [reserve, int]
  exact Int.le_max_right ..

theorem largest_le_take {counter : IdCounter} {given : Value} :
    counter.largest ≤ (counter.take given).2.largest := by
  cases null : given.isNull with
  | true => simp [take_of_null null]
  | false => simpa [take_of_given null] using largest_le_reserve

theorem le_take {counter : IdCounter} {given : Value} {n : Int}
    (int : (counter.take given).1.int? = some n) : n ≤ (counter.take given).2.largest := by
  cases null : given.isNull with
  | true =>
    rw [take_of_null null] at int ⊢
    exact Int.le_of_eq (Option.some.inj int).symm
  | false =>
    rw [take_of_given null] at int ⊢
    exact le_reserve int

end IdCounter

/-- One attempt to build a relation, and the counter that it meets. -/
structure Attempt where
  counter : IdCounter
  tuples : Value
  attributes : Value
  /-- the identity that is given, nothing if one is to be drawn -/
  given : Value
  name : Value

namespace Attempt

def isAutomatic (a : Attempt) : Bool := a.given.isNull

def identity (a : Attempt) : Value := (a.counter.take a.given).1

def result (a : Attempt) : Except Error Relation :=
  (Relation.build a.counter a.tuples a.attributes a.given a.name).1

def built (a : Attempt) : Option Relation := a.result.toOption

/-- What the counter is afterwards, whether there is a relation or not. -/
def after (a : Attempt) : IdCounter :=
  (Relation.build a.counter a.tuples a.attributes a.given a.name).2

variable {a b : Attempt} {r s : Relation} {n : Int}

theorem built_eq_some : a.built = some r ↔ a.result = .ok r := by
  unfold built
  cases a.result with
  | error e => simp [Except.toOption]
  | ok s => simp [Except.toOption]

theorem largest_le_after : a.counter.largest ≤ a.after.largest := IdCounter.largest_le_take

theorem le_after (int : a.identity.int? = some n) : n ≤ a.after.largest := IdCounter.le_take int

theorem identity_of_automatic (automatic : a.isAutomatic = true) :
    a.identity = .int (a.counter.largest + 1) := by
  rw [identity, IdCounter.take_of_null automatic]

theorem identity_of_given (given : a.isAutomatic = false) : a.identity = a.given := by
  rw [identity, IdCounter.take_of_given given]

theorem identity_of_built (built : a.built = some r) : a.identity = .scalar r.id := by
  have built := built_eq_some.mp built
  obtain ⟨scalars, _, built⟩ := ok_of_bind built
  have fits : ∀ name : Except Error Value,
      (name.bind fun name => (fitting a.identity.scalar?).bind fun scalar => .ok
        (⟨scalar, name, a.tuples, IdSet.ofList scalars, (SlotTable.ofList scalars).members⟩ :
          Relation)) = .ok r → fitting a.identity.scalar? = .ok r.id := by
    intro name built
    obtain ⟨_, _, built⟩ := ok_of_bind built
    obtain ⟨id, fits, made⟩ := ok_of_bind built
    cases made
    exact fits
  have fits : fitting a.identity.scalar? = .ok r.id := by
    cases truthy : a.name.truthy with
    | true => rw [truthy] at built; exact fits (.ok a.name) built
    | false => rw [truthy] at built; exact fits (Relation.defaultName a.identity) built
  cases identity : a.identity with
  | scalar id => rw [identity] at fits; cases fits; rfl
  | array items => rw [identity] at fits; exact nomatch fits
  | object entries => rw [identity] at fits; exact nomatch fits

/-- The counter at the end of a log that starts with a given one. -/
def last (counter : IdCounter) : List Attempt → IdCounter
  | [] => counter
  | a :: log => last a.after log

/-- Each attempt of a log meets the counter that the one before left. -/
def Chained (counter : IdCounter) : List Attempt → Prop
  | [] => True
  | a :: log => a.counter = counter ∧ Chained a.after log

section Log

variable {counter : IdCounter} {log rest : List Attempt}

theorem last_append : last counter (log ++ rest) = last (last counter log) rest := by
  induction log generalizing counter with
  | nil => rfl
  | cons a log ih => exact ih

theorem chained_append :
    Chained counter (log ++ rest) ↔ Chained counter log ∧ Chained (last counter log) rest := by
  induction log generalizing counter with
  | nil => simp [Chained, last]
  | cons a log ih => simp [Chained, last, ih, and_assoc]

/-- What one attempt does, a whole log does: the counter does not go down. -/
theorem Chained.largest_le_last (chained : Chained counter log) :
    counter.largest ≤ (last counter log).largest := by
  induction log generalizing counter with
  | nil => exact Int.le_refl _
  | cons a log ih =>
    calc counter.largest = a.counter.largest := by rw [chained.1]
      _ ≤ a.after.largest := largest_le_after
      _ ≤ (last a.after log).largest := ih chained.2

/-- Every integer that was taken is within the counter from then on. -/
theorem Chained.le_last (chained : Chained counter log) (member : b ∈ log)
    (int : b.identity.int? = some n) : n ≤ (last counter log).largest := by
  induction log generalizing counter with
  | nil => exact nomatch member
  | cons a log ih =>
    cases member with
    | head => exact Int.le_trans (le_after int) chained.2.largest_le_last
    | tail _ member => exact ih chained.2 member

end Log

/-- An integer behind the counter is met by nothing that is no fraction: texts are no numbers. -/
theorem atom_ne_of_lt {id : Scalar} (whole : ∀ x, id ≠ .real x)
    (less : ∀ m, id.int? = some m → m < n) : id.atom ≠ Atom.ofInt n := by
  cases id with
  | null => simp [Scalar.atom, Atom.ofInt]
  | text s => simp [Scalar.atom, Atom.ofInt]
  | real x => exact absurd rfl (whole x)
  | int m =>
    have less := less m rfl
    simp only [Scalar.atom, Atom.ofInt, ne_eq, Atom.number.injEq, and_true]
    omega
  | bool b =>
    have less := less _ rfl
    simp only [Scalar.atom, Atom.ofInt, ne_eq, Atom.number.injEq, and_true]
    omega

theorem identity_ne_of_lt (automatic : a.isAutomatic = true) (builtRight : a.built = some r)
    (builtLeft : b.built = some s) (whole : ∀ x, b.given ≠ .real x)
    (less : ∀ m, b.identity.int? = some m → m ≤ a.counter.largest) :
    JoinOrder.identity r ≠ JoinOrder.identity s := by
  have drawn : r.id = .int (a.counter.largest + 1) := by
    have taken := identity_of_built builtRight
    rw [identity_of_automatic automatic] at taken
    exact (Value.scalar.inj taken).symm
  have taken := identity_of_built builtLeft
  have notReal : ∀ x, s.id ≠ .real x := by
    intro x real
    rw [real] at taken
    cases automatic : b.isAutomatic with
    | true => rw [identity_of_automatic automatic] at taken; exact nomatch taken
    | false => exact whole x ((identity_of_given automatic).symm.trans taken)
  have apart : s.id.atom ≠ Atom.ofInt (a.counter.largest + 1) := by
    apply atom_ne_of_lt notReal
    intro m int
    have small := less m (by rw [taken]; exact int)
    omega
  intro same
  have same : r.id.atom = s.id.atom := same
  rw [drawn] at same
  exact apart same.symm

/-- The relations among the attempts of a log that drew their identities. -/
def automatic (log : List Attempt) : List Relation := (log.filter isAutomatic).filterMap built

theorem Chained.automatic_distinct {counter : IdCounter} {log : List Attempt}
    (chained : Chained counter log) : Distinct (automatic log) := by
  induction log using List.reverseRecOn with
  | nil => exact List.nodup_nil
  | append_singleton log a ih =>
    obtain ⟨before, meets, _⟩ := chained_append.mp chained
    have earlier := ih before
    rw [automatic, List.filter_append, List.filterMap_append, ← automatic]
    cases isAutomatic : a.isAutomatic with
    | false => simpa [isAutomatic] using earlier
    | true =>
      cases built : a.built with
      | none => simpa [isAutomatic, built] using earlier
      | some r =>
        simp only [List.filter_cons, isAutomatic, if_true, List.filter_nil, List.filterMap_cons,
          built, List.filterMap_nil]
        rw [Distinct, List.map_append, List.nodup_append]
        refine ⟨earlier, List.nodup_singleton _, ?_⟩
        intro i known j new same
        obtain ⟨s, member, rfl⟩ := List.mem_map.mp known
        obtain ⟨b, inLog, builtLeft⟩ := List.mem_filterMap.mp member
        obtain ⟨inLog, drawn⟩ := List.mem_filter.mp inLog
        have whole : ∀ x, b.given ≠ .real x := by
          intro x real
          rw [Attempt.isAutomatic, real] at drawn
          cases drawn
        have less : ∀ m, b.identity.int? = some m → m ≤ a.counter.largest := by
          intro m int
          rw [meets]
          exact before.le_last inLog int
        cases List.mem_singleton.mp new
        exact identity_ne_of_lt isAutomatic built builtLeft whole less same.symm

/-- The attempts to read a list of pairs, up to the first one that fails. -/
def ofSpecs (counter : IdCounter) : List Value → List Attempt
  | [] => []
  | spec :: specs =>
    match spec.elements? with
    | some [tuples, attributes] =>
      let a : Attempt := ⟨counter, tuples, attributes, .null, .null⟩
      match a.result with
      | .ok _ => a :: ofSpecs a.after specs
      | .error _ => [a]
    | _ => []

end Attempt

/-- A way to make relations: one from its fields, one from an object, or several from pairs of
tuples and attributes. -/
inductive Making where
  | fields (tuples attributes given name : Value)
  | data (v : Value)
  | specs (pairs : List Value)

namespace Making

def run (counter : IdCounter) : Making → Except Error (List Relation) × IdCounter
  | .fields tuples attributes given name =>
    let (relation, counter) := Relation.build counter tuples attributes given name
    (relation.map ([·]), counter)
  | .data v =>
    let (relation, counter) := Relation.ofValue counter v
    (relation.map ([·]), counter)
  | .specs pairs => Relation.ofSpecs counter pairs

def attempts (counter : IdCounter) : Making → List Attempt
  | .fields tuples attributes given name => [⟨counter, tuples, attributes, given, name⟩]
  | .data (.object entries) =>
    match entries.lookup "tuples", entries.lookup "attributes" with
    | some tuples, some attributes =>
      [⟨counter, tuples, attributes, (entries.lookup "id").getD .null,
        (entries.lookup "name").getD .null⟩]
    | _, _ => []
  | .data _ => []
  | .specs pairs => Attempt.ofSpecs counter pairs

/-- The counter after a history. -/
def finish (counter : IdCounter) : List Making → IdCounter
  | [] => counter
  | m :: makings => finish (m.run counter).2 makings

/-- The attempts of a history, each making from the counter that the one before left. -/
def history (counter : IdCounter) : List Making → List Attempt
  | [] => []
  | m :: makings => m.attempts counter ++ history (m.run counter).2 makings

/-- The relations that the makings of a history return. -/
def returned (counter : IdCounter) : List Making → List Relation
  | [] => []
  | m :: makings =>
    (m.run counter).1.toOption.getD [] ++ returned (m.run counter).2 makings

/-- What a making does is what its attempts do: they follow on one another, end where it ends, and
have built what it returns. -/
structure Agrees (counter : IdCounter) (made : Except Error (List Relation) × IdCounter)
    (log : List Attempt) : Prop where
  chained : Attempt.Chained counter log
  ends : Attempt.last counter log = made.2
  relations : ∀ relations, made.1 = .ok relations → log.filterMap Attempt.built = relations

theorem agrees_nil {counter : IdCounter} {e : Error} : Agrees counter (.error e, counter) [] where
  chained := trivial
  ends := rfl
  relations _ ok := nomatch ok

theorem agrees_build {counter : IdCounter} {tuples attributes given name : Value} :
    Agrees counter
      ((Relation.build counter tuples attributes given name).1.map ([·]),
        (Relation.build counter tuples attributes given name).2)
      [⟨counter, tuples, attributes, given, name⟩] where
  chained := ⟨rfl, trivial⟩
  ends := rfl
  relations relations ok := by
    dsimp only at ok
    cases built : (Relation.build counter tuples attributes given name).1 with
    | error e => rw [built] at ok; exact nomatch ok
    | ok r =>
      rw [built] at ok
      cases ok
      simp [Attempt.built, Attempt.result, built, Except.toOption]

theorem agrees_ofSpecs {counter : IdCounter} {pairs : List Value} :
    Agrees counter (Relation.ofSpecs counter pairs) (Attempt.ofSpecs counter pairs) := by
  induction pairs generalizing counter with
  | nil => exact ⟨trivial, rfl, fun _ ok => Except.ok.inj ok⟩
  | cons spec pairs ih =>
    unfold Relation.ofSpecs Attempt.ofSpecs
    split
    case h_1 none => simpa [none] using agrees_nil
    case h_2 tuples attributes pair =>
      simp only [pair, Attempt.result]
      cases built : Relation.build counter tuples attributes .null .null with
      | mk result after =>
        have afterwards : (⟨counter, tuples, attributes, .null, .null⟩ : Attempt).after = after := by
          simp [Attempt.after, built]
        cases result with
        | error e =>
          exact ⟨⟨rfl, trivial⟩, afterwards, fun _ ok => nomatch ok⟩
        | ok r =>
          rw [← afterwards] at *
          refine ⟨⟨rfl, ih.chained⟩, ih.ends, fun relations ok => ?_⟩
          have made : (⟨counter, tuples, attributes, .null, .null⟩ : Attempt).built = some r := by
            simp [Attempt.built, Attempt.result, built, Except.toOption]
          cases others : (Relation.ofSpecs
              (⟨counter, tuples, attributes, .null, .null⟩ : Attempt).after pairs).1 with
          | error e => simp [others, Except.map] at ok
          | ok rest =>
            simp only [others, Except.map, Except.ok.injEq] at ok
            simp [made, ih.relations rest others, ok]
    case h_3 elements notPair other =>
      rw [other]
      split
      case h_1 tuples attributes same =>
        exact absurd (Option.some.inj same) (notPair tuples attributes)
      case h_2 => exact agrees_nil

theorem agrees_run {counter : IdCounter} {m : Making} :
    Agrees counter (m.run counter) (m.attempts counter) := by
  cases m with
  | fields tuples attributes given name => exact agrees_build
  | specs pairs => exact agrees_ofSpecs
  | data v =>
    cases v with
    | scalar s => exact agrees_nil
    | array items => exact agrees_nil
    | object entries =>
      simp only [run, attempts, Relation.ofValue]
      cases tuples : entries.lookup "tuples" with
      | none => exact agrees_nil
      | some tuples =>
        cases attributes : entries.lookup "attributes" with
        | none => exact agrees_nil
        | some attributes => exact agrees_build

section History

variable {counter : IdCounter} {makings : List Making}

theorem last_history : Attempt.last counter (history counter makings) = finish counter makings := by
  induction makings generalizing counter with
  | nil => rfl
  | cons m makings ih => rw [history, Attempt.last_append, agrees_run.ends, ih, finish]

theorem history_chained : Attempt.Chained counter (history counter makings) := by
  induction makings generalizing counter with
  | nil => trivial
  | cons m makings ih =>
    rw [history, Attempt.chained_append, agrees_run.ends]
    exact ⟨agrees_run.chained, ih⟩

theorem returned_sublist :
    (returned counter makings).Sublist ((history counter makings).filterMap Attempt.built) := by
  induction makings generalizing counter with
  | nil => exact .slnil
  | cons m makings ih =>
    rw [history, returned, List.filterMap_append]
    refine List.Sublist.append ?_ ih
    cases made : (m.run counter).1 with
    | error e => exact List.nil_sublist _
    | ok relations =>
      rw [agrees_run.relations relations made]
      exact List.Sublist.refl _

end History

/-- Identities that are drawn never meet an earlier one. The log of a history ends with the counter
of the program, and every relation that the program returned was built in it. At any time of it the
counter is as large as it ever was, and as every integer identity that was taken by then, by an
attempt that failed as well. An attempt without an identity draws an integer above all those, so its
relation is none of the earlier ones unless that was given a fraction. Any selection of relations
that drew their identities, in any order, has no repeated ones. -/
theorem history_fresh (counter : IdCounter) (makings : List Making) :
    Attempt.Chained counter (history counter makings) ∧
    Attempt.last counter (history counter makings) = finish counter makings ∧
    (returned counter makings).Sublist ((history counter makings).filterMap Attempt.built) ∧
    (∀ earlier later rest, history counter makings = earlier ++ later ++ rest →
      (Attempt.last counter earlier).largest ≤ (Attempt.last counter (earlier ++ later)).largest ∧
      ∀ a ∈ earlier, ∀ n, a.identity.int? = some n → n ≤ (Attempt.last counter earlier).largest) ∧
    (∀ earlier a rest, history counter makings = earlier ++ a :: rest → a.isAutomatic = true →
      ∃ n, a.identity = .int n ∧
        (∀ b ∈ earlier, ∀ m, b.identity.int? = some m → m < n) ∧
        ∀ r, a.built = some r → r.id = .int n ∧
          ∀ b ∈ earlier, (∀ x, b.given ≠ .real x) → ∀ s, b.built = some s →
            identity r ≠ identity s) ∧
    ∀ relations, relations.Subperm (Attempt.automatic (history counter makings)) →
      RelationSet.checkIds relations = .ok () := by
  have chained : Attempt.Chained counter (history counter makings) := history_chained
  refine ⟨chained, last_history, returned_sublist, ?_, ?_, ?_⟩
  · intro earlier later rest log
    rw [log, Attempt.chained_append, Attempt.chained_append] at chained
    constructor
    · rw [Attempt.last_append]
      exact chained.1.2.largest_le_last
    · intro a member n int
      exact chained.1.1.le_last member int
  · intro earlier a rest log automatic
    rw [log, Attempt.chained_append] at chained
    have meets : a.counter = Attempt.last counter earlier := chained.2.1
    have behind : ∀ b ∈ earlier, ∀ m, b.identity.int? = some m → m ≤ a.counter.largest := by
      intro b member m int
      rw [meets]
      exact chained.1.le_last member int
    refine ⟨a.counter.largest + 1, Attempt.identity_of_automatic automatic, ?_, ?_⟩
    · intro b member m int
      have small := behind b member m int
      omega
    · intro r built
      constructor
      · have taken := Attempt.identity_of_built built
        rw [Attempt.identity_of_automatic automatic] at taken
        exact (Value.scalar.inj taken).symm
      · intro b member whole s builtLeft
        exact Attempt.identity_ne_of_lt automatic built builtLeft whole (behind b member)
  · intro relations chosen
    rw [RelationSet.checkIds_iff, Distinct]
    obtain ⟨inOrder, perm, sublist⟩ := chosen
    have distinct := (sublist.map identity).nodup chained.automatic_distinct
    exact (perm.map identity).nodup_iff.mp distinct

/-- A truth value, an integer whose attributes cannot be read, a text, and two pairs. -/
def mixed : List Making :=
  [.fields (.int 10) (.array [.text "A"]) (.bool true) .null,
    .fields (.int 20) (.int 3) (.int 7) .null,
    .data (.object [("tuples", .int 30), ("attributes", .array []), ("id", .text "x")]),
    .specs [.array [.int 40, .array []], .array [.int 50, .array []]]]

/-- The first pair of the mixed history draws 8, above the 7 that was given in vain. -/
theorem history_fresh_mixed :
    (∃ a r, (history .start mixed)[3]? = some a ∧ a.built = some r ∧ r.id = .int 8 ∧
      ∀ b ∈ (history .start mixed).take 3, ∀ s, b.built = some s → identity r ≠ identity s) ∧
    (Attempt.automatic (history .start mixed)).map (·.id) = [.int 8, .int 9] ∧
    RelationSet.checkIds (Attempt.automatic (history .start mixed)) = .ok () := by
  obtain ⟨_, _, _, _, drawn, distinct⟩ := history_fresh .start mixed
  have fourth : ((history .start mixed)[3]?.map fun a =>
      (a.isAutomatic, a.built.map (·.id))) = some (true, some (.int 8)) := by decide +kernel
  have givens : ((history .start mixed).take 3).map (·.given) =
      [.bool true, .int 7, .text "x"] := rfl
  refine ⟨?_, by decide +kernel, distinct _ (List.Subperm.refl _)⟩
  obtain ⟨a, here, is⟩ := Option.map_eq_some_iff.mp fourth
  obtain ⟨automatic, is⟩ := Prod.mk.inj is
  obtain ⟨r, built, id⟩ := Option.map_eq_some_iff.mp is
  refine ⟨a, r, here, built, id, ?_⟩
  obtain ⟨within, same⟩ := List.getElem?_eq_some_iff.mp here
  have log : history .start mixed =
      (history .start mixed).take 3 ++ a :: (history .start mixed).drop 4 := by
    rw [← same, List.getElem_cons_drop, List.take_append_drop]
  obtain ⟨n, _, _, fresh⟩ := drawn _ a _ log automatic
  intro b member
  refine (fresh r built).2 b member ?_
  intro x real
  have given := List.mem_map_of_mem (f := Attempt.given) member
  rw [givens, real] at given
  simp at given

end Making

end JoinOrder
