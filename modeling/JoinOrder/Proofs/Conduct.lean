import JoinOrder.Proofs.Entries
import JoinOrder.Proofs.Events
import JoinOrder.Proofs.Split
/-!
How a search conducts itself, whoever answers its requests and whatever the model says.

While a search goes on it takes notes: which keys have plans, which ones it found without a plan that
only itself may keep, how many candidates it has tried for plans that are still to come, and what it
has to count next. A search conducts itself well if it keeps a plan only under a key it has found
open, after all smaller keys, and for the price of all candidates of that key, and if it counts every
candidate and every plan right away.
-/

namespace JoinOrder

/-- How many candidates are tried for so many relations. -/
def Order.tries (order : Order) (size : Nat) : Nat := if size = 2 then 1 else Split.count order size

theorem perm_keyOf {xs : List Relation} (distinct : Distinct xs) :
    (keyOf xs).Perm (xs.map identity) :=
  (List.perm_ext_iff_of_nodup (IdSet.ofList xs).nodup_identities distinct).mpr fun _ => mem_keyOf

namespace Plan

/-- The plan joins relations that were met, those with the identities of the key, each of them once. -/
structure Covers (met : Relation → Prop) (key : List Atom) (p : Plan) : Prop where
  leaves : (p.leaves.map identity).Perm key
  met : ∀ r ∈ p.leaves, met r
  counted : p.IsCounted

variable {met : Relation → Prop} {p left right : Plan} {xs ys zs : List Relation}

theorem covers_ofRelation {r : Relation} (known : met r) (counted : r.IsCounted) :
    (ofRelation r).Covers met (keyOf [r]) where
  leaves := .refl _
  met := by simpa [ofRelation, leaves] using known
  counted := isCounted_ofRelation counted

theorem covers_join (hl : left.Covers met (keyOf xs)) (hr : right.Covers met (keyOf ys))
    (same : (xs ++ ys).Perm zs) (distinct : Distinct zs) (v : Int) :
    (Plan.join left right (.int v)).Covers met (keyOf zs) where
  leaves := by
    have apart : Distinct (xs ++ ys) := distinct.perm same
    have distinctL : Distinct xs := apart.sublist (List.sublist_append_left ..)
    have distinctR : Distinct ys := apart.sublist (List.sublist_append_right ..)
    have sides := (hl.leaves.trans (perm_keyOf distinctL)).append
      (hr.leaves.trans (perm_keyOf distinctR))
    rw [leaves, List.map_append]
    apply sides.trans
    rw [← List.map_append]
    exact (same.map identity).trans (perm_keyOf distinct).symm
  met := by
    intro r member
    rcases List.mem_append.mp member with inLeft | inRight
    · exact hl.met r inLeft
    · exact hr.met r inRight
  counted := @isCounted_joined (fun _ _ => v) left right hl.counted hr.counted

theorem mem_identities_relations {a : Atom} :
    a ∈ p.relations.identities ↔ a ∈ p.leaves.map identity := by
  induction p with
  | scan r tuples => rfl
  | join left right tuples ihl ihr =>
    change a ∈ (left.relations.union right.relations).identities ↔ _
    rw [IdSet.mem_identities_union, ihl, ihr, leaves, List.map_append, List.mem_append]

theorem Covers.relations {K : RelationSet} (h : p.Covers met K.identities) :
    p.relations.identities = K.identities := by
  apply IdSet.identities_eq
  intro a
  rw [mem_identities_relations]
  exact h.leaves.mem_iff

end Plan

namespace Search

structure Notes where
  /-- keys that have plans -/
  known : Set (List Atom)
  /-- keys without a plan that nobody else keeps one for -/
  opened : Set (List Atom)
  /-- candidates that were tried for plans still to come -/
  tried : Nat
  /-- what has to be counted next -/
  due : Option Work

namespace Notes

def found (n : Notes) (key : List Atom) : Notes := { n with known := insert key n.known }

/-- There is no plan for the key. That stays so only if the key is one of ours. -/
def missed (n : Notes) (mine : Set (List Atom)) (key : List Atom) : Notes :=
  { n with opened := { k | k ∈ n.opened ∨ k = key ∧ key ∈ mine } }

def asked (n : Notes) : Notes := { n with tried := n.tried + 1, due := some .candidate }

def kept (n : Notes) (order : Order) (key : List Atom) : Notes where
  known := insert key n.known
  opened := n.opened \ {key}
  tried := n.tried - order.tries key.length
  due := some .subproblem

def settled (n : Notes) : Notes := { n with due := none }

/-- The plan may be kept under the key of these relations. -/
structure Allows (n : Notes) (met : Relation → Prop) (order : Order) (source : List Relation)
    (plan : Plan) : Prop where
  covers : plan.Covers met (keyOf source)
  opened : keyOf source ∈ n.opened
  two : 2 ≤ (keyOf source).length
  below : ∀ K : RelationSet, K.identities ⊆ keyOf source → 2 ≤ K.size →
    K.identities ≠ keyOf source → K.identities ∈ n.known
  tried : order.tries (keyOf source).length ≤ n.tried

/-- What may change while a list of relations is searched: no key with more relations is kept, and so
many more candidates were tried. -/
structure Onward (size tried : Nat) (n n' : Notes) : Prop where
  known : n.known ⊆ n'.known
  opened : ∀ k ∈ n.opened, size < k.length → k ∈ n'.opened
  tried : n'.tried = n.tried + tried
  due : n'.due = none

/-- Each part of the list that can have an entry has one, or it is ours to solve. -/
def Spans (n : Notes) (mine : Set (List Atom)) (xs : List Relation) : Prop :=
  ∀ ys, ys.Sublist xs → 2 ≤ ys.length → keyOf ys ∈ n.known ∨ keyOf ys ∈ mine

variable {n n' n'' : Notes} {size size' tried tried' : Nat} {mine : Set (List Atom)}
  {xs ys : List Relation}

theorem Onward.refl (free : n.due = none) : n.Onward size 0 n where
  known := fun _ member => member
  opened := fun _ member _ => member
  tried := rfl
  due := free

theorem Onward.trans (h : n.Onward size tried n') (h' : n'.Onward size tried' n'') :
    n.Onward size (tried + tried') n'' where
  known := h.known.trans h'.known
  opened := fun k member large => h'.opened k (h.opened k member large) large
  tried := by rw [h'.tried, h.tried, Nat.add_assoc]
  due := h'.due

theorem Onward.mono (h : n.Onward size tried n') (le : size ≤ size') : n.Onward size' tried n' :=
  { h with opened := fun k member large => h.opened k member (Nat.lt_of_le_of_lt le large) }

theorem onward_asked : n.Onward size 1 n.asked.settled where
  known := fun _ member => member
  opened := fun _ member _ => member
  tried := rfl
  due := rfl

theorem Spans.mono (h : n.Spans mine xs) (sub : ys.Sublist xs) (known : n.known ⊆ n'.known) :
    n'.Spans mine ys := by
  intro zs inside two
  exact (h zs (inside.trans sub) two).imp_left fun member => known member

end Notes

section

variable (met : Relation → Prop) (order : Order) (mine : Set (List Atom))

/-- The search conducts itself well from these notes on, and ends in a result and notes that go
together. An answer may be any plan that covers its key, and any estimate. -/
def Conduct {α : Type} : Search α → Notes → (α → Notes → Prop) → Prop
  | done v, n, ok => n.due = none ∧ ok v n
  | fail _, n, _ => n.due = none
  | consult K next, n, ok => n.due = none ∧
      (∀ p, p.Covers met K.identities → Conduct (next (some p)) (n.found K.identities) ok) ∧
      (K.identities ∉ n.known → Conduct (next none) (n.missed mine K.identities) ok)
  | record source plan next, n, ok => n.due = none ∧ n.Allows met order source plan ∧
      Conduct next (n.kept order (keyOf source)) ok
  | join left right next, n, ok => n.due = none ∧ left.IsCounted ∧ right.IsCounted ∧
      ∀ v : Int, Conduct (next (.join left right (.int v))) n.asked ok
  | checkTime next, n, ok => n.due = none ∧ Conduct next n ok
  | count work next, n, ok => (n.due = some work ∨ n.due = none ∧ work = .memoHit) ∧
      Conduct next n.settled ok
  | report _ next, n, ok => n.due = none ∧ Conduct next n ok

end

variable {met : Relation → Prop} {order : Order} {mine : Set (List Atom)} {α β : Type}
  {x : Search α} {n : Notes}

theorem Conduct.mono {ok ok' : α → Notes → Prop} (h : Conduct met order mine x n ok)
    (weaker : ∀ v n, ok v n → ok' v n) : Conduct met order mine x n ok' := by
  induction x generalizing n with
  | done v => exact ⟨h.1, weaker v n h.2⟩
  | fail e => exact h
  | consult K next ih =>
    exact ⟨h.1, fun p covers => ih _ (h.2.1 p covers), fun unknown => ih _ (h.2.2 unknown)⟩
  | record source plan next ih => exact ⟨h.1, h.2.1, ih h.2.2⟩
  | join left right next ih => exact ⟨h.1, h.2.1, h.2.2.1, fun v => ih _ (h.2.2.2 v)⟩
  | checkTime next ih => exact ⟨h.1, ih h.2⟩
  | count work next ih => exact ⟨h.1, ih h.2⟩
  | report progress next ih => exact ⟨h.1, ih h.2⟩

theorem conduct_bind {f : α → Search β} {ok : β → Notes → Prop}
    (h : Conduct met order mine x n fun v n => Conduct met order mine (f v) n ok) :
    Conduct met order mine (x.bind f) n ok := by
  induction x generalizing n with
  | done v => exact h.2
  | fail e => exact h
  | consult K next ih =>
    exact ⟨h.1, fun p covers => ih _ (h.2.1 p covers), fun unknown => ih _ (h.2.2 unknown)⟩
  | record source plan next ih => exact ⟨h.1, h.2.1, ih h.2.2⟩
  | join left right next ih => exact ⟨h.1, h.2.1, h.2.2.1, fun v => ih _ (h.2.2.2 v)⟩
  | checkTime next ih => exact ⟨h.1, ih h.2⟩
  | count work next ih => exact ⟨h.1, ih h.2⟩
  | report progress next ih => exact ⟨h.1, ih h.2⟩

/-! ### The recursive search -/

theorem conduct_candidate {left right : Plan} {ok : Plan → Notes → Prop} (free : n.due = none)
    (hl : left.IsCounted) (hr : right.IsCounted)
    (h : ∀ v : Int, ok (.join left right (.int v)) n.asked.settled) :
    Conduct met order mine (candidate left right) n ok :=
  ⟨free, hl, hr, fun v => ⟨.inl rfl, rfl, h v⟩⟩

theorem conduct_better {best : Option Plan} {plan : Plan} {ok : Option Plan → Notes → Prop}
    (free : n.due = none) (h : ∀ p, p = plan ∨ best = some p → ok (some p) n) :
    Conduct met order mine (better best plan) n ok := by
  cases best with
  | none => exact ⟨free, h plan (.inl rfl)⟩
  | some known =>
    apply conduct_bind
    cases fitting (plan.tuples.less? known.tuples) with
    | error e => exact free
    | ok less =>
      refine ⟨free, ?_⟩
      cases less with
      | true => exact ⟨free, h plan (.inl rfl)⟩
      | false => exact ⟨free, h known (.inr rfl)⟩

/-- What a search for relations comes to. -/
structure Delivers (met : Relation → Prop) (xs : List Relation) (n : Notes) (p : Plan) (n' : Notes) :
    Prop where
  covers : p.Covers met (keyOf xs)
  onward : n.Onward xs.length 0 n'
  known : 2 ≤ xs.length → keyOf xs ∈ n'.known

/-- The sides of the first splits have plans, as far as they can have entries. -/
def SidesKnown (order : Order) (xs : List Relation) (i : Nat) (n : Notes) : Prop :=
  ∀ j < i, ∀ side, side = (Split.nth order xs j).1 ∨ side = (Split.nth order xs j).2 →
    2 ≤ side.length → keyOf side ∈ n.known

variable {xs source : List Relation}

theorem SidesKnown.succ {i : Nat} {n n' : Notes} (h : SidesKnown order xs i n)
    (known : n.known ⊆ n'.known)
    (left : 2 ≤ (Split.nth order xs i).1.length → keyOf (Split.nth order xs i).1 ∈ n'.known)
    (right : 2 ≤ (Split.nth order xs i).2.length → keyOf (Split.nth order xs i).2 ∈ n'.known) :
    SidesKnown order xs (i + 1) n' := by
  intro j before side is two
  rcases Nat.lt_succ_iff_lt_or_eq.mp before with before | rfl
  · exact known (h j before side is two)
  · rcases is with rfl | rfl
    · exact left two
    · exact right two

/-- Once all sides are known, every smaller key is. -/
theorem SidesKnown.below (h : SidesKnown order xs (Split.count order xs.length) n)
    (distinct : Distinct xs) {K : RelationSet} (inside : K.identities ⊆ keyOf xs) (two : 2 ≤ K.size)
    (proper : K.identities ≠ keyOf xs) : K.identities ∈ n.known := by
  obtain ⟨ys, sub, same⟩ := exists_part_of_subset inside
  have length : 2 ≤ ys.length := by
    rwa [← length_keyOf (distinct.sublist sub), ← same, length_identities]
  have some : ys ≠ [] := List.ne_nil_of_length_pos (by omega)
  have different : ys ≠ xs := fun equal => proper (equal ▸ same)
  obtain ⟨sides, met, is⟩ := Split.exists_side order distinct sub some different
  obtain ⟨j, before, rfl⟩ := Split.mem_all.mp met
  rw [same]
  exact h j before ys (is.imp Eq.symm Eq.symm) length

theorem conduct_bestFrom {solve : List Relation → Search Plan} (distinct : Distinct xs)
    (solves : ∀ side n, side.Sublist xs → side.length < xs.length → n.due = none →
      n.Spans mine side → Conduct met order mine (solve side) n (Delivers met side n))
    {start : Notes} (spans : start.Spans mine xs) (splits i : Nat)
    (all : i + splits = Split.count order xs.length) (best : Option Plan)
    (covers : ∀ p, best = some p → p.Covers met (keyOf xs))
    (onward : start.Onward (xs.length - 1) i n) (known : SidesKnown order xs i n) :
    Conduct met order mine (bestFrom solve order xs i splits best) n fun best n' =>
      (∀ p, best = some p → p.Covers met (keyOf xs)) ∧
        start.Onward (xs.length - 1) (i + splits) n' ∧ SidesKnown order xs (i + splits) n' := by
  -- Each split is paid with one candidate, and leaves both of its sides known.
  induction splits generalizing i n best with
  | zero => exact ⟨onward.due, covers, onward, known⟩
  | succ splits ih =>
    have split : Split.IsSplit (Split.nth order xs i) xs := Split.isSplit_nth (by omega)
    have lessL := split.length_left_lt
    have lessR := split.length_right_lt
    rw [bestFrom]
    apply conduct_bind
    apply (solves _ n split.sublist_left lessL onward.due
      (spans.mono split.sublist_left onward.known)).mono
    intro left n₁ first
    apply conduct_bind
    apply (solves _ n₁ split.sublist_right lessR first.onward.due
      (spans.mono split.sublist_right (onward.known.trans first.onward.known))).mono
    intro right n₂ second
    apply conduct_bind
    apply conduct_candidate second.onward.due first.covers.counted second.covers.counted
    intro v
    apply conduct_bind
    apply conduct_better rfl
    intro p is
    have both : start.Onward (xs.length - 1) (i + 1) n₂.asked.settled :=
      ((onward.trans (first.onward.mono (Nat.le_sub_one_of_lt lessL))).trans
        (second.onward.mono (Nat.le_sub_one_of_lt lessR))).trans Notes.onward_asked
    rw [← Nat.add_assoc, Nat.add_right_comm]
    apply ih (i + 1) (by omega) (some p) ?_ both
    · apply known.succ
      · exact first.onward.known.trans second.onward.known
      · exact fun two => second.onward.known (first.known two)
      · exact second.known
    · rintro q ⟨⟩
      rcases is with rfl | before
      · exact Plan.covers_join first.covers second.covers split.perm distinct v
      · exact covers p before

theorem conduct_bestOf {solve : List Relation → Search Plan} (distinct : Distinct xs)
    (solves : ∀ side n, side.Sublist xs → side.length < xs.length → n.due = none →
      n.Spans mine side → Conduct met order mine (solve side) n (Delivers met side n))
    (spans : n.Spans mine xs) (free : n.due = none) :
    Conduct met order mine (bestOf solve order xs) n fun p n' =>
      p.Covers met (keyOf xs) ∧ n.Onward (xs.length - 1) (Split.count order xs.length) n' ∧
        SidesKnown order xs (Split.count order xs.length) n' := by
  have loop := conduct_bestFrom distinct solves spans (Split.count order xs.length) 0
    (Nat.zero_add _) none (fun p none => nomatch none) (.refl free)
    (fun j before => absurd before (Nat.not_lt_zero j))
  rw [Nat.zero_add] at loop
  apply conduct_bind
  apply loop.mono
  rintro best n' ⟨covers, onward, known⟩
  cases best with
  | none => exact onward.due
  | some p => exact ⟨onward.due, covers p rfl, onward, known⟩

/-- A plan is kept after all its candidates were tried, which started with finding its key open. -/
theorem conduct_keep {start n : Notes} {plan : Plan} (distinct : Distinct xs) (two : 2 ≤ xs.length)
    (same : keyOf source = keyOf xs) (ours : keyOf xs ∈ mine)
    (onward : (start.missed mine (keyOf xs)).Onward (xs.length - 1) (order.tries xs.length) n)
    (covers : plan.Covers met (keyOf xs))
    (below : ∀ K : RelationSet, K.identities ⊆ keyOf xs → 2 ≤ K.size → K.identities ≠ keyOf xs →
      K.identities ∈ n.known) :
    Conduct met order mine (keep source xs plan) n (Delivers met xs start) := by
  have length := length_keyOf distinct
  have allows : n.Allows met order source plan := by
    constructor
    · rwa [same]
    · rw [same]
      exact onward.opened _ (.inr ⟨rfl, ours⟩) (by omega)
    · rwa [same, length]
    · rwa [same]
    · rw [same, length, onward.tried]
      exact Nat.le_add_left ..
  refine ⟨onward.due, allows, .inl rfl, rfl, rfl, covers, ?_, ?_⟩
  · constructor
    · exact fun k member => .inr (onward.known member)
    · intro k member large
      refine ⟨onward.opened k (.inl member) (by omega), ?_⟩
      rintro rfl
      rw [same, length] at large
      omega
    · change n.tried - order.tries (keyOf source).length = start.tried
      rw [same, length, onward.tried, Nat.add_sub_cancel]
      rfl
    · rfl
  · intro _
    exact .inl same.symm

theorem conduct_two {start : Notes} {x y : Relation} (distinct : Distinct [x, y])
    (relations : ∀ r ∈ [x, y], met r ∧ r.IsCounted) (same : keyOf source = keyOf [x, y])
    (ours : keyOf [x, y] ∈ mine) (free : start.due = none) :
    Conduct met order mine
      (checkTime ((candidate (.ofRelation x) (.ofRelation y)).bind (keep source [x, y])))
      (start.missed mine (keyOf [x, y])) (Delivers met [x, y] start) := by
  have known (r : Relation) (member : r ∈ [x, y]) : (Plan.ofRelation r).Covers met (keyOf [r]) :=
    Plan.covers_ofRelation (relations r member).1 (relations r member).2
  have left := known x (by simp)
  have right := known y (by simp)
  refine ⟨free, ?_⟩
  apply conduct_bind
  apply conduct_candidate (n := start.missed mine (keyOf [x, y])) free left.counted right.counted
  intro v
  apply conduct_keep distinct le_rfl same ours Notes.onward_asked
  · exact Plan.covers_join left right (.refl _) distinct v
  -- Two relations have no smaller key.
  · intro K inside two proper
    obtain ⟨ys, sub, equal⟩ := exists_part_of_subset inside
    have length : 2 ≤ ys.length := by
      rwa [← length_keyOf (distinct.sublist sub), ← equal, length_identities]
    rw [sub.eq_of_length_le length] at equal
    exact absurd equal proper

theorem conduct_many {solve : List Relation → Search Plan} {start : Notes} (many : 3 ≤ xs.length)
    (distinct : Distinct xs)
    (solves : ∀ side n, side.Sublist xs → side.length < xs.length → n.due = none →
      n.Spans mine side → Conduct met order mine (solve side) n (Delivers met side n))
    (same : keyOf source = keyOf xs) (ours : keyOf xs ∈ mine) (spans : start.Spans mine xs)
    (free : start.due = none) :
    Conduct met order mine (checkTime ((bestOf solve order xs).bind (keep source xs)))
      (start.missed mine (keyOf xs)) (Delivers met xs start) := by
  have tries : order.tries xs.length = Split.count order xs.length := if_neg (by omega)
  refine ⟨free, ?_⟩
  apply conduct_bind
  apply (conduct_bestOf (n := start.missed mine (keyOf xs)) distinct solves spans free).mono
  rintro p n' ⟨covers, onward, sides⟩
  rw [← tries] at onward
  apply conduct_keep distinct (by omega) same ours onward covers
  intro K inside two proper
  exact sides.below distinct inside two proper

/-- The recursive search conducts itself well, whatever it starts from. -/
theorem conduct_solveWithin (bound : Nat) (distinct : Distinct xs)
    (relations : ∀ r ∈ xs, met r ∧ r.IsCounted) (same : keyOf source = keyOf xs)
    (spans : n.Spans mine xs) (free : n.due = none) :
    Conduct met order mine (solveWithin order bound source xs) n (Delivers met xs n) := by
  induction bound generalizing source xs n with
  | zero => exact free
  | succ bound ih =>
    refine ⟨free, fun p covers => ?_, fun unknown => ?_⟩
    · refine ⟨.inr ⟨free, rfl⟩, rfl, covers, ?_, fun _ => .inl rfl⟩
      exact ⟨fun k member => .inr member, fun k member _ => member, rfl, rfl⟩
    · have ours (two : 2 ≤ xs.length) : keyOf xs ∈ mine :=
        (spans xs (.refl xs) two).resolve_left unknown
      rcases xs with _ | ⟨x, _ | ⟨y, _ | ⟨z, rest⟩⟩⟩
      · exact free
      · have member : x ∈ [x] := List.mem_cons_self
        refine ⟨free, Plan.covers_ofRelation (relations x member).1 (relations x member).2, ?_, ?_⟩
        · exact ⟨fun k member => member, fun k member _ => .inl member, rfl, free⟩
        · intro two
          exact absurd two (by simp)
      · exact conduct_two distinct relations same (ours le_rfl) free
      · apply conduct_many (by simp) distinct ?_ same (ours (by simp)) spans free
        intro side n' sub less free spans
        exact ih (distinct.sublist sub) (fun r member => relations r (sub.subset member)) rfl spans
          free

/-! ### The layered search -/

/-- Every set of the layer has a plan, or it is to be solved. -/
theorem conduct_missing (layer : List (List Relation)) (free : n.due = none) :
    Conduct met order mine (missing layer) n fun opened n' =>
      opened.Sublist layer ∧ (∀ xs ∈ layer, keyOf xs ∈ n'.known ∨ xs ∈ opened) ∧
        n.Onward 0 0 n' := by
  induction layer generalizing n with
  | nil => exact ⟨free, .slnil, fun xs none => by contradiction, .refl free⟩
  | cons ys layer ih =>
    refine ⟨free, fun p _ => ?_, fun _ => ?_⟩
    · apply conduct_bind
      apply (ih (n := n.found (keyOf ys)) free).mono
      rintro others n' ⟨sub, split, onward⟩
      refine ⟨onward.due, sub.cons ys, ?_, ?_⟩
      · intro xs member
        rcases List.mem_cons.mp member with rfl | member
        · exact .inl (onward.known (.inl rfl))
        · exact split xs member
      · exact { onward with known := fun k member => onward.known (.inr member) }
    · apply conduct_bind
      apply (ih (n := n.missed mine (keyOf ys)) free).mono
      rintro others n' ⟨sub, split, onward⟩
      refine ⟨onward.due, sub.cons_cons ys, ?_, ?_⟩
      · intro xs member
        rcases List.mem_cons.mp member with rfl | member
        · exact .inr List.mem_cons_self
        · exact (split xs member).imp_right (List.mem_cons_of_mem ys)
      · exact { onward with opened := fun k member => onward.opened k (.inl member) }

theorem conduct_openLayer {workers : Value} {size : Nat} (free : n.due = none) :
    Conduct met order mine (openLayer workers xs size) n fun opened n' =>
      opened.Sublist (Subset.ofSize size xs) ∧
        (∀ ys ∈ Subset.ofSize size xs, keyOf ys ∈ n'.known ∨ ys ∈ opened) ∧ n.Onward 0 0 n' := by
  apply conduct_bind
  apply (conduct_missing (Subset.ofSize size xs) free).mono
  intro opened n' post
  exact ⟨post.2.2.due, post.2.2.due, post⟩

theorem conduct_readOut (free : n.due = none) :
    Conduct met order mine (readOut xs) n fun p n' => p.Covers met (keyOf xs) ∧ n.Onward 0 0 n' ∧
      keyOf xs ∈ n'.known := by
  refine ⟨free, fun p covers => ⟨free, covers, ?_, .inl rfl⟩, fun _ => free⟩
  exact ⟨fun k member => .inr member, fun k member _ => member, rfl, free⟩

end Search

end JoinOrder
