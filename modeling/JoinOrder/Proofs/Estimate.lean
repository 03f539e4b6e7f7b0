import JoinOrder.CostModel
import JoinOrder.Proofs.IdSet
/-!
Joins under estimates. An estimate that depends on the two inputs alone makes one plan of them, and
what a plan covers depends on its leaves alone.
-/

namespace JoinOrder

namespace Value

theorem mul_int (machine : Machine) (m n : Int) :
    mul machine (.int m) (.int n) = .ok (.int (m * n)) := rfl

theorem halve_int (n : Int) (k : Nat) : halve (.int n) k = .ok (.int (n >>> k)) := rfl

theorem less?_int (m n : Int) : less? (.int m) (.int n) = some (decide (m < n)) := by
  have one : ((Atom.parts 0 : Nat) : Int) = 1 := rfl
  simp only [less?, Scalar.less?, Scalar.atom, Atom.ofInt, Atom.comparable, Atom.order, Atom.rank,
    Atom.orderWithin, one, Int.mul_one]
  by_cases below : m < n
  · simp [below, Int.compare_eq_lt.mpr below]
  · have : compare m n ≠ .lt := fun lt => below (Int.compare_eq_lt.mp lt)
    simp [below, this]

end Value

def Relation.IsCounted (r : Relation) : Prop := ∃ n, r.tuples = .int n

namespace Plan

/-- The join of two plans, given how many tuples a join of plans has. -/
def joined (est : Plan → Plan → Int) (left right : Plan) : Plan :=
  .join left right (.int (est left right))

/-- The number of tuples. Plans that have no integer there count as empty. -/
def estimate (p : Plan) : Int := p.tuples.int?.getD 0

/-- The number of tuples of a plan is an integer, and so is the sum of all its estimates. -/
structure IsCounted (p : Plan) : Prop where
  tuples : ∃ n, p.tuples = .int n
  cost : ∃ c, p.cost = .ok (.int c)

theorem IsCounted.tuples_eq {p : Plan} (h : p.IsCounted) : p.tuples = .int p.estimate := by
  obtain ⟨n, is⟩ := h.tuples
  rw [estimate, is]
  rfl

theorem isCounted_ofRelation {r : Relation} (h : r.IsCounted) : (ofRelation r).IsCounted :=
  ⟨h, 0, rfl⟩

theorem isCounted_joined {est : Plan → Plan → Int} {left right : Plan} (hl : left.IsCounted)
    (hr : right.IsCounted) : (joined est left right).IsCounted := by
  obtain ⟨c, hc⟩ := hl.cost
  obtain ⟨d, hd⟩ := hr.cost
  refine ⟨⟨_, rfl⟩, c + d + est left right, ?_⟩
  change (do let children ← (← left.cost).add (← right.cost); children.add (.int _)) = _
  rw [hc, hd]
  rfl

theorem leaves_ne_nil (p : Plan) : p.leaves ≠ [] := by
  induction p with
  | scan r tuples => simp [leaves]
  | join left right tuples ihl ihr => simp [leaves, ihl]

theorem tuples_joined (est : Plan → Plan → Int) (left right : Plan) :
    (joined est left right).tuples = .int (joined est left right).estimate := rfl

theorem estimate_joined (est : Plan → Plan → Int) (left right : Plan) :
    (joined est left right).estimate = est left right := rfl

theorem relations_joined (est : Plan → Plan → Int) (left right : Plan) :
    (joined est left right).relations = left.relations.union right.relations := rfl

theorem joinWith_eq_ok {est : Plan → Plan → Int} {model : CostModel} {asked : Nat}
    {left right : Plan} (hl : left.IsCounted) (hr : right.IsCounted)
    (h : model.estimate asked left right = .ok (.int (est left right))) :
    joinWith model asked left right = .ok (joined est left right) := by
  obtain ⟨c, hc⟩ := (@isCounted_joined est _ _ hl hr).cost
  unfold joinWith build
  rw [h]
  change (do let _ ← (joined est left right).cost; return joined est left right) = _
  rw [hc]
  rfl

theorem eq_join_of_joinWith {model : CostModel} {asked : Nat} {left right plan : Plan}
    (h : joinWith model asked left right = .ok plan) :
    ∃ v, model.estimate asked left right = .ok v ∧ plan = .join left right v := by
  unfold joinWith at h
  cases estimate : model.estimate asked left right with
  | error e =>
    rw [estimate] at h
    exact nomatch h
  | ok v =>
    rw [estimate] at h
    change (do let _ ← (Plan.join left right v).cost; return Plan.join left right v) = _ at h
    cases cost : (Plan.join left right v).cost with
    | error e =>
      rw [cost] at h
      exact nomatch h
    | ok c =>
      rw [cost] at h
      exact ⟨v, rfl, (Except.ok.inj h).symm⟩

theorem joinWith_eq_error {model : CostModel} {asked : Nat} {left right : Plan} {e : Error}
    (h : model.estimate asked left right = .error e) :
    joinWith model asked left right = .error e := by
  unfold joinWith
  rw [h]
  rfl

end Plan

namespace CostModel

/-- Whenever the model gives an estimate of two counted plans at all, it is this one. -/
def Agrees (model : CostModel) (est : Plan → Plan → Int) : Prop :=
  ∀ asked left right v, left.IsCounted → right.IsCounted →
    model.estimate asked left right = .ok v → v = .int (est left right)

/-- The model always gives this estimate of two counted plans. -/
def Estimates (model : CostModel) (est : Plan → Plan → Int) : Prop :=
  ∀ asked left right, left.IsCounted → right.IsCounted →
    model.estimate asked left right = .ok (.int (est left right))

theorem Estimates.agrees {model : CostModel} {est : Plan → Plan → Int} (h : model.Estimates est) :
    model.Agrees est := by
  intro asked left right v hl hr found
  rw [h asked left right hl hr] at found
  cases found
  rfl

/-! ### Known models -/

variable {machine : Machine}

def productOf (left right : Plan) : Int := left.estimate * right.estimate

/-- Cross products, halved for each attribute in common. -/
def sharedOf (left right : Plan) : Int :=
  productOf left right >>> left.attributes.shared right.attributes

theorem product_eq {left right : Plan} (hl : left.IsCounted) (hr : right.IsCounted) :
    product machine left right = .ok (.int (productOf left right)) := by
  rw [product, hl.tuples_eq, hr.tuples_eq, Value.mul_int]
  rfl

theorem estimates_crossProduct : (crossProduct machine).Estimates productOf :=
  fun _ _ _ hl hr => product_eq hl hr

theorem estimates_sharedAttributes : (sharedAttributes machine).Estimates sharedOf := by
  intro asked left right hl hr
  change (do (← product machine left right).halve _) = _
  rw [product_eq hl hr]
  exact Value.halve_int _ _

def Known.estimateOf : Known → Plan → Plan → Int
  | .sharedAttributes => sharedOf
  | .crossProduct => productOf

theorem estimates_known (known : Known) : (known.model machine).Estimates known.estimateOf := by
  cases known with
  | sharedAttributes => exact estimates_sharedAttributes
  | crossProduct => exact estimates_crossProduct

end CostModel

end JoinOrder
