import JoinOrder.Proofs.Conduct
/-!
What the account of a search says about the table. Searches that conduct themselves well, alone or in
turns, add entries and change none; every plan that is kept and every estimate that is given has been
counted, or it is the last thing that one of them did and still has to count.
-/

namespace JoinOrder

/-- For plans with integer estimates the model returns an integer, if it returns anything. -/
def CostModel.IsInteger (model : CostModel) : Prop :=
  ∀ asked left right v, left.IsCounted → right.IsCounted → model.estimate asked left right = .ok v →
    ∃ n, v = .int n

theorem CostModel.Agrees.isInteger {model : CostModel} {est : Plan → Plan → Int}
    (agrees : model.Agrees est) : model.IsInteger := by
  intro asked left right v hl hr ok
  exact ⟨_, agrees asked left right v hl hr ok⟩

namespace Memo

/-- Every plan covers its key, and all smaller keys have plans. -/
structure Filled (met : Relation → Prop) (m : Memo) : Prop where
  entries : ∀ K p, m.find? K = some p → 2 ≤ K.size ∧ p.Covers met K.identities
  closed : ∀ K L : RelationSet, m.Has K.identities → L.identities ⊆ K.identities → 2 ≤ L.size →
    m.Has L.identities

variable {met : Relation → Prop} {m m' : Memo}

theorem filled_empty : (∅ : Memo).Filled met where
  entries := fun K p found => by
    rw [find?_empty] at found
    contradiction
  closed := fun K _ has => absurd has (not_has_empty K.identities)

theorem Filled.congr (h : m.Filled met) (same : m'.table = m.table) : m'.Filled met := by
  obtain ⟨table, configuration⟩ := m
  obtain ⟨table', configuration'⟩ := m'
  cases same
  exact ⟨h.entries, h.closed⟩

end Memo

namespace Search

variable {met : Relation → Prop} {order : Order} {mine : Set (List Atom)} {α : Type} {a : Answerer}
  {x : Search α} {n n' : Notes} {ok : α → Notes → Prop} {m m' : Memo}

/-- The notes are right about the table. -/
structure Notes.Fits (n : Notes) (mine : Set (List Atom)) (m : Memo) : Prop where
  known : ∀ k ∈ n.known, m.Has k
  opened : ∀ k ∈ n.opened, k ∈ mine ∧ ¬ m.Has k

/-- What is still to be counted, and the candidates of plans that are still to come. -/
structure Debt where
  subproblems : Nat
  candidates : Nat
  tried : Nat

def Debt.zero : Debt := ⟨0, 0, 0⟩

def Notes.debt (n : Notes) : Debt where
  subproblems := if n.due = some .subproblem then 1 else 0
  candidates := if n.due = some .candidate then 1 else 0
  tried := n.tried

/-- What has happened between two states: entries were added, and the account was kept but for some
debt at the beginning and at the end. -/
structure Account (order : Order) (s : State) (debt : Debt) (events : List Event)
    (added : List Memo.Entry) (s' : State) (debt' : Debt) : Prop where
  configuration : s'.memo.configuration = s.memo.configuration
  values : s'.memo.table.values.Perm (added ++ s.memo.table.values)
  has : ∀ k, s'.memo.Has k ↔ s.memo.Has k ∨ ∃ entry ∈ added, entry.key = k
  new : ∀ entry ∈ added, ¬ s.memo.Has entry.key ∧ s'.memo.find? entry.relations = some entry.plan
  keeps : s.memo.Keeps s'.memo
  granted : ∀ event ∈ events, event.isRefusal = false
  subproblems : s'.effort.subproblems + debt'.subproblems =
    s.effort.subproblems + debt.subproblems + added.length
  candidates : s'.effort.candidates + debt'.candidates =
    s.effort.candidates + debt.candidates + events.countP Event.isEstimate
  tried : debt'.tried + (added.map fun entry => order.tries entry.key.length).sum =
    debt.tried + events.countP Event.isEstimate

variable {s s' s'' : State} {d d' d'' : Debt} {events later : List Event}
  {added others : List Memo.Entry}

theorem account_idle (memo : s'.memo = s.memo)
    (granted : ∀ event ∈ events, event.isRefusal = false)
    (subproblems : s'.effort.subproblems + d'.subproblems = s.effort.subproblems + d.subproblems)
    (candidates : s'.effort.candidates + d'.candidates =
      s.effort.candidates + d.candidates + events.countP Event.isEstimate)
    (tried : d'.tried = d.tried + events.countP Event.isEstimate) :
    Account order s d events [] s' d' := by
  constructor
  · rw [memo]
  · rw [memo]
    rfl
  · simp [memo]
  · simp
  · rw [memo]
    exact .refl _
  · exact granted
  · exact subproblems
  · exact candidates
  · exact tried

theorem Account.refl : Account order s d [] [] s d :=
  account_idle rfl (by simp) rfl rfl rfl

theorem Account.trans (h : Account order s d events added s' d')
    (h' : Account order s' d' later others s'' d'') :
    Account order s d (events ++ later) (others ++ added) s'' d'' := by
  constructor
  · exact h'.configuration.trans h.configuration
  · rw [List.append_assoc]
    exact h'.values.trans (h.values.append_left others)
  · intro k
    rw [h'.has, h.has]
    simp only [List.mem_append, or_and_right, exists_or, or_assoc, or_comm]
  · intro entry member
    rcases List.mem_append.mp member with later | before
    · have is := h'.new entry later
      exact ⟨fun had => is.1 ((h.has _).mpr (.inl had)), is.2⟩
    · have is := h.new entry before
      exact ⟨is.1, h'.keeps _ _ is.2⟩
  · exact h.keeps.trans h'.keeps
  · intro event member
    rcases List.mem_append.mp member with before | later
    · exact h.granted event before
    · exact h'.granted event later
  · have first := h.subproblems
    have second := h'.subproblems
    rw [List.length_append]
    omega
  · have first := h.candidates
    have second := h'.candidates
    rw [List.countP_append]
    omega
  · have first := h.tried
    have second := h'.tried
    rw [List.countP_append, List.map_append, List.sum_append]
    omega

/-- A part of a debt may stand for the whole if the rest stays. -/
theorem Account.whole {e e' : Debt} (h : Account order s d events added s' d')
    (subproblems : e'.subproblems + d.subproblems = e.subproblems + d'.subproblems)
    (candidates : e'.candidates + d.candidates = e.candidates + d'.candidates)
    (tried : e'.tried + d.tried = e.tried + d'.tried) : Account order s e events added s' e' := by
  have first := h.subproblems
  have second := h.candidates
  have third := h.tried
  refine { h with subproblems := ?_, candidates := ?_, tried := ?_ } <;> omega

/-! ### One request -/

/-- What one search comes to when it goes on. -/
structure Goes (met : Relation → Prop) (order : Order) (mine : Set (List Atom))
    (ok : α → Notes → Prop) (n : Notes) (s : State) (events : List Event) (x' : Search α)
    (s' : State) (n' : Notes) (added : List Memo.Entry) : Prop where
  conduct : Conduct met order mine x' n' ok
  fits : n'.Fits mine s'.memo
  filled : s'.memo.Filled met
  account : Account order s n.debt events added s' n'.debt
  ours : ∀ entry ∈ added, entry.key ∈ mine

theorem Goes.trans {x' : Search α} (h : Goes met order mine ok n s events x s' n' added)
    {n'' : Notes} (h' : Goes met order mine ok n' s' later x' s'' n'' others) :
    Goes met order mine ok n s (events ++ later) x' s'' n'' (others ++ added) := by
  constructor
  · exact h'.conduct
  · exact h'.fits
  · exact h'.filled
  · exact h.account.trans h'.account
  · intro entry member
    rcases List.mem_append.mp member with later | before
    · exact h'.ours entry later
    · exact h.ours entry before

theorem goes_idle (conduct : Conduct met order mine x n' ok) (fits : n'.Fits mine s.memo)
    (filled : s.memo.Filled met) (memo : s'.memo = s.memo) (effort : s'.effort = s.effort)
    (debt : n'.debt = n.debt) : Goes met order mine ok n s [] x s' n' [] := by
  constructor
  · exact conduct
  · rwa [memo]
  · rwa [memo]
  · rw [debt]
    exact account_idle memo (by simp) (by rw [effort]) (by rw [effort]; rfl) rfl
  · simp

theorem Notes.Fits.found {K : RelationSet} {p : Plan} (fits : n.Fits mine m)
    (found : m.find? K = some p) : (n.found K.identities).Fits mine m := by
  constructor
  · rintro k (rfl | member)
    · exact Memo.has_of_find? found
    · exact fits.known k member
  · exact fits.opened

theorem Notes.Fits.missed {K : RelationSet} (fits : n.Fits mine m) (none : m.find? K = none) :
    (n.missed mine K.identities).Fits mine m := by
  constructor
  · exact fits.known
  · rintro k (member | ⟨rfl, ours⟩)
    · exact fits.opened k member
    · exact ⟨ours, Memo.find?_eq_none.mp none⟩

/-- What was due is counted in the account, and not in the debt any more. -/
theorem debt_settled {work : Work} (due : n.due = some work ∨ n.due = none ∧ work = .memoHit)
    (e : Effort) :
    (e.add work).subproblems + n.settled.debt.subproblems = e.subproblems + n.debt.subproblems ∧
      (e.add work).candidates + n.settled.debt.candidates = e.candidates + n.debt.candidates := by
  rcases due with due | ⟨due, rfl⟩
  · cases work <;> simp [Notes.debt, Notes.settled, due, Effort.add]
  · simp [Notes.debt, Notes.settled, due, Effort.add]

theorem goes_count {work : Work} (due : n.due = some work ∨ n.due = none ∧ work = .memoHit)
    (conduct : Conduct met order mine x n.settled ok) (fits : n.Fits mine s.memo)
    (filled : s.memo.Filled met) :
    Goes met order mine ok n s [] x { s with effort := s.effort.add work } n.settled [] := by
  obtain ⟨subproblems, candidates⟩ := debt_settled due s.effort
  refine ⟨conduct, ⟨fits.known, fits.opened⟩, filled, ?_, by simp⟩
  apply account_idle
  · rfl
  · simp
  · exact subproblems
  · exact candidates
  · rfl

variable {source : List Relation} {plan : Plan}

theorem Notes.Allows.ne_nil (allows : n.Allows met order source plan) : source ≠ [] := by
  have two := allows.two
  rintro rfl
  exact absurd two (by decide)

theorem Notes.Allows.filled (allows : n.Allows met order source plan) (fits : n.Fits mine m)
    (filled : m.Filled met) : (m.withPlan source plan).Filled met := by
  have has (k : List Atom) := @Memo.has_withPlan m k source plan allows.ne_nil
  constructor
  · intro K p found
    rw [Memo.find?_withPlan allows.ne_nil] at found
    split at found
    case isTrue same =>
      cases found
      have same : K.identities = keyOf source := same
      rw [← length_identities, same]
      exact ⟨allows.two, allows.covers⟩
    case isFalse => exact filled.entries K p found
  · intro K L found inside two
    rw [has] at found ⊢
    rcases found with same | old
    · by_cases equal : L.identities = keyOf source
      · exact .inl equal
      · exact .inr (fits.known _ (allows.below L (same ▸ inside) two equal))
    · exact .inr (filled.closed K L old inside two)

theorem goes_record {next : Search α} (free : n.due = none)
    (allows : n.Allows met order source plan)
    (conduct : Conduct met order mine next (n.kept order (keyOf source)) ok)
    (fits : n.Fits mine s.memo) (filled : s.memo.Filled met) :
    Goes met order mine ok n s (event a (record source plan next) s)
      (step a (record source plan next) s).1 (step a (record source plan next) s).2
      (n.kept order (keyOf source)) [Memo.entryOf source plan] := by
  have covers : plan.relations.identities = (IdSet.ofList source).identities :=
    Plan.Covers.relations (K := .ofList source) allows.covers
  have has (k : List Atom) := @Memo.has_withPlan s.memo k source plan allows.ne_nil
  have ⟨ours, new⟩ := fits.opened _ allows.opened
  have fresh : s.memo.find? (.ofList source) = none := Memo.find?_eq_none.mpr new
  rw [step, event, Memo.store_eq_ok covers]
  constructor
  · exact conduct
  · constructor
    · rintro k (rfl | member)
      · exact (has _).mpr (.inl rfl)
      · exact (has k).mpr (.inr (fits.known k member))
    · rintro k ⟨member, other⟩
      obtain ⟨inside, unknown⟩ := fits.opened k member
      exact ⟨inside, fun known => ((has k).mp known).elim other unknown⟩
  · exact allows.filled fits filled
  · constructor
    · rfl
    · exact Memo.values_withPlan allows.ne_nil new
    · intro k
      rw [has, or_comm]
      simp [Memo.key_entryOf, eq_comm]
    · intro entry member
      obtain rfl := List.mem_singleton.mp member
      rw [Memo.key_entryOf]
      refine ⟨new, ?_⟩
      have same := Memo.key_entryOf source plan
      rw [Memo.find?_withPlan allows.ne_nil]
      exact if_pos same
    · exact Memo.keeps_withPlan allows.ne_nil fresh
    · simp [Event.isRefusal]
    · simp [Notes.debt, Notes.kept, free]
    · simp [Notes.debt, Notes.kept, free, Event.isEstimate]
    · have tried := allows.tried
      change n.tried - order.tries _ + (order.tries (Memo.entryOf source plan).key.length + 0) =
        n.tried
      rw [Memo.key_entryOf]
      omega
  · simpa [Memo.key_entryOf] using ours

theorem goes_join {left right : Plan} {next : Plan → Search α} (integer : a.model.IsInteger)
    (free : n.due = none) (hl : left.IsCounted) (hr : right.IsCounted)
    (conduct : ∀ v : Int, Conduct met order mine (next (.join left right (.int v))) n.asked ok)
    (fits : n.Fits mine s.memo) (filled : s.memo.Filled met) :
    ∃ n', Goes met order mine ok n s (event a (join left right next) s)
      (step a (join left right next) s).1 (step a (join left right next) s).2 n' [] := by
  rw [step, event]
  cases estimate : a.model.estimate s.asked left right with
  | error e =>
    rw [Plan.joinWith_eq_error estimate]
    refine ⟨n, free, fits, filled, ?_, by simp⟩
    apply account_idle <;> simp [Event.isRefusal, Event.isEstimate]
  | ok v =>
    obtain ⟨v, rfl⟩ := integer _ _ _ _ hl hr estimate
    rw [@Plan.joinWith_eq_ok (fun _ _ => v) a.model s.asked left right hl hr estimate]
    refine ⟨n.asked, conduct v, ⟨fits.known, fits.opened⟩, filled, ?_, by simp⟩
    apply account_idle <;>
      simp [Event.isRefusal, Event.isEstimate, Notes.debt, Notes.asked, free]

/-- A search that conducts itself well still does after its next request. -/
theorem Conduct.step (h : Conduct met order mine x n ok) (integer : a.model.IsInteger)
    (fits : n.Fits mine s.memo) (filled : s.memo.Filled met) :
    ∃ n' added, Goes met order mine ok n s (event a x s) (step a x s).1 (step a x s).2 n' added := by
  cases x with
  | done v => exact ⟨n, [], goes_idle h fits filled rfl rfl rfl⟩
  | fail e => exact ⟨n, [], goes_idle h fits filled rfl rfl rfl⟩
  | consult K next =>
    cases found : s.memo.find? K with
    | some p =>
      have covers := (filled.entries K p found).2
      refine ⟨n.found K.identities, [], ?_⟩
      rw [Search.step, found]
      exact goes_idle (h.2.1 p covers) (fits.found found) filled rfl rfl rfl
    | none =>
      have unknown : K.identities ∉ n.known := fun member =>
        Memo.find?_eq_none.mp found (fits.known _ member)
      refine ⟨n.missed mine K.identities, [], ?_⟩
      rw [Search.step, found]
      exact goes_idle (h.2.2 unknown) (fits.missed found) filled rfl rfl rfl
  | record source plan next => exact ⟨_, _, goes_record h.1 h.2.1 h.2.2 fits filled⟩
  | join left right next =>
    obtain ⟨n', goes⟩ := goes_join integer h.1 h.2.1 h.2.2.1 h.2.2.2 fits filled
    exact ⟨n', [], goes⟩
  | count work next => exact ⟨n.settled, [], goes_count h.1 h.2 fits filled⟩
  | checkTime next =>
    refine ⟨n, [], ?_⟩
    rw [Search.step]
    cases a.deadline with
    | none => exact goes_idle h.2 fits filled rfl rfl rfl
    | some deadline =>
      by_cases late : deadline.isOver (a.clock s.readings) = true
      · simp only [late, if_true]
        exact goes_idle (x := fail _) h.1 fits filled rfl rfl rfl
      · simp only [late]
        exact goes_idle h.2 fits filled rfl rfl rfl
  | report progress next =>
    refine ⟨n, [], ?_⟩
    rw [Search.step]
    by_cases told : a.verbose = true
    · simp only [told, if_true]
      cases progress.message with
      | error e => exact goes_idle (x := fail _) h.1 fits filled rfl rfl rfl
      | ok items =>
        dsimp only
        cases (MessageLayout.default.write items).output.2 with
        | error e => exact goes_idle (x := fail _) h.1 fits filled rfl rfl rfl
        | ok => exact goes_idle h.2 fits filled rfl rfl rfl
    · simp only [told]
      exact goes_idle h.2 fits filled rfl rfl rfl

/-! ### A run -/

theorem Conduct.run (h : Conduct met order mine x n ok) (integer : a.model.IsInteger)
    (fits : n.Fits mine s.memo) (filled : s.memo.Filled met) :
    ∃ n' added,
      Goes met order mine ok n s (trace a x s) (ended (run a x s).1) (run a x s).2 n' added := by
  induction x, s using step_induction (a := a) generalizing n with
  | done v s => exact ⟨n, [], goes_idle h fits filled rfl rfl rfl⟩
  | fail e s => exact ⟨n, [], goes_idle h fits filled rfl rfl rfl⟩
  | turn x s ih =>
    obtain ⟨n', added, first⟩ := h.step integer fits filled
    obtain ⟨n'', others, rest⟩ := ih first.conduct first.fits first.filled
    rw [run_step] at rest
    rw [trace_step]
    exact ⟨n'', others ++ added, first.trans rest⟩

/-! ### Taking turns -/

/-- Searches in a pool that all conduct themselves well, each with notes and keys of its own. -/
structure Crowd (met : Relation → Prop) (order : Order) (mine : Nat → Set (List Atom))
    (ok : Nat → α → Notes → Prop) (notes : Nat → Notes) (pool : List (Search α)) (m : Memo) :
    Prop where
  conduct : ∀ i x, pool[i]? = some x → Conduct met order (mine i) x (notes i) (ok i)
  fits : ∀ i, (notes i).Fits (mine i) m

/-- The debts of the first `n` searches together. -/
def debtOf (notes : Nat → Notes) (n : Nat) : Debt where
  subproblems := ∑ i ∈ Finset.range n, (notes i).debt.subproblems
  candidates := ∑ i ∈ Finset.range n, (notes i).debt.candidates
  tried := ∑ i ∈ Finset.range n, (notes i).debt.tried

theorem sum_update {count i : Nat} (inside : i < count) (notes : Nat → Notes) (n' : Notes)
    (f : Notes → Nat) :
    ∑ j ∈ Finset.range count, f (Function.update notes i n' j) + f (notes i) =
      ∑ j ∈ Finset.range count, f (notes j) + f n' := by
  have member : i ∈ Finset.range count := Finset.mem_range.mpr inside
  have others : ∑ j ∈ (Finset.range count).erase i, f (Function.update notes i n' j) =
      ∑ j ∈ (Finset.range count).erase i, f (notes j) := by
    apply Finset.sum_congr rfl
    intro j other
    rw [Function.update_of_ne (Finset.ne_of_mem_erase other)]
  rw [← Finset.add_sum_erase _ _ member, ← Finset.add_sum_erase _ (fun j => f (notes j)) member,
    others, Function.update_self]
  omega

variable {owned : Nat → Set (List Atom)} {goal : Nat → α → Notes → Prop} {notes : Nat → Notes}
  {pool : List (Search α)} {i : Nat}

/-- One turn of one search leaves the others where they are. -/
theorem Crowd.turn (crowd : Crowd met order owned goal notes pool s.memo)
    (apart : Pairwise fun i j => Disjoint (owned i) (owned j)) (whose : pool[i]? = some x)
    (goes : Goes met order (owned i) (goal i) (notes i) s (event a x s) (step a x s).1
      (step a x s).2 n' added) :
    Crowd met order owned goal (Function.update notes i n') (pool.set i (step a x s).1)
        (step a x s).2.memo ∧
      Account order s (debtOf notes pool.length) (event a x s) added (step a x s).2
        (debtOf (Function.update notes i n') pool.length) := by
  have inside : i < pool.length := (List.getElem?_eq_some_iff.mp whose).1
  constructor
  · constructor
    · intro j y whose'
      by_cases same : j = i
      · subst same
        rw [List.getElem?_set_self inside] at whose'
        cases whose'
        rw [Function.update_self]
        exact goes.conduct
      · rw [List.getElem?_set_ne (Ne.symm same)] at whose'
        rw [Function.update_of_ne same]
        exact crowd.conduct j y whose'
    · intro j
      by_cases same : j = i
      · subst same
        rw [Function.update_self]
        exact goes.fits
      · rw [Function.update_of_ne same]
        constructor
        · intro k member
          exact (goes.account.has k).mpr (.inl ((crowd.fits j).known k member))
        -- A key that this search has opened is none of the other's.
        · intro k member
          obtain ⟨ours, unknown⟩ := (crowd.fits j).opened k member
          refine ⟨ours, fun known => ?_⟩
          rcases (goes.account.has k).mp known with old | ⟨entry, new, rfl⟩
          · exact unknown old
          · exact Set.disjoint_left.mp (apart same) ours (goes.ours entry new)
  · apply goes.account.whole
    · exact sum_update inside notes n' fun n => n.debt.subproblems
    · exact sum_update inside notes n' fun n => n.debt.candidates
    · exact sum_update inside notes n' fun n => n.debt.tried

theorem Crowd.takeTurns (crowd : Crowd met order owned goal notes pool s.memo)
    (apart : Pairwise fun i j => Disjoint (owned i) (owned j)) (integer : a.model.IsInteger)
    (filled : s.memo.Filled met) (schedule : List Nat) :
    ∃ notes' added,
      Crowd met order owned goal notes' (takeTurns a schedule pool s).1
          (takeTurns a schedule pool s).2.memo ∧
        (takeTurns a schedule pool s).2.memo.Filled met ∧
        Account order s (debtOf notes pool.length) (turnsTrace a schedule pool s) added
          (takeTurns a schedule pool s).2 (debtOf notes' pool.length) ∧
        ∀ i, i ∉ schedule → notes' i = notes i := by
  induction schedule generalizing pool s notes with
  | nil => exact ⟨notes, [], crowd, filled, .refl, fun _ _ => rfl⟩
  | cons i schedule ih =>
    rw [Search.takeTurns, turnsTrace]
    cases whose : pool[i]? with
    | none =>
      obtain ⟨notes', added, crowd', filled', account, others⟩ := ih crowd filled
      exact ⟨notes', added, crowd', filled', account, fun j outside =>
        others j fun member => outside (List.mem_cons_of_mem i member)⟩
    | some x =>
      obtain ⟨n', added, goes⟩ := (crowd.conduct i x whose).step integer (crowd.fits i) filled
      obtain ⟨crowd₁, first⟩ := crowd.turn apart whose goes
      obtain ⟨notes', later, crowd', filled', rest, others⟩ := ih crowd₁ goes.filled
      rw [List.length_set] at rest
      refine ⟨notes', later ++ added, crowd', filled', first.trans rest, fun j outside => ?_⟩
      rw [others j fun member => outside (List.mem_cons_of_mem i member)]
      apply Function.update_of_ne
      rintro rfl
      exact outside List.mem_cons_self

end Search

end JoinOrder
