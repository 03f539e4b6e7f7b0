/-!
Atoms are the identities of indivisible values. Two numbers have one atom exactly if they are the
same quantity, whether they were written as a truth value, an integer or a fraction.

`Atom.order` is a linear order: nothing, then numbers by size, then texts by code point.
-/

namespace JoinOrder

inductive Atom where
  | null
  /-- `numerator / 2 ^ halvings` -/
  | number (numerator : Int) (halvings : Nat)
  | lowest
  | highest
  | undefined
  | text (s : String)
deriving DecidableEq, Repr, Inhabited

namespace Atom

/-- Halves the numerator as often as the denominator allows. -/
def reduce : Int → Nat → Atom
  | n, 0 => .number n 0
  | n, k + 1 => if n % 2 = 0 then reduce (n / 2) k else .number n (k + 1)

def ofInt (n : Int) : Atom := .number n 0

/-- Whether values with these atoms are equal when they are compared. What is no number at all is not
even equal to itself. -/
def equal (a b : Atom) : Bool := a ≠ .undefined && a = b

def rank : Atom → Nat
  | .null => 0
  | .lowest => 1
  | .number .. => 2
  | .highest => 3
  | .undefined => 4
  | .text _ => 5

/-- How many parts of size `1 / 2 ^ k` make one. -/
def parts (k : Nat) : Nat := Nat.pow 2 k

def orderWithin : Atom → Atom → Ordering
  | .number n k, .number m l => (compare (n * parts l) (m * parts k)).then (compare k l)
  | .text s, .text t => compare s t
  | _, _ => .eq

def order (a b : Atom) : Ordering := (compare a.rank b.rank).then (orderWithin a b)

/-- Numbers compare with numbers and texts with texts; nothing else is comparable. -/
def comparable : Atom → Atom → Bool
  | .null, _ | _, .null => false
  | .text _, .text _ => true
  | .text _, _ | _, .text _ => false
  | _, _ => true

theorem equal_iff {a b : Atom} : a.equal b = true ↔ a ≠ .undefined ∧ a = b := by
  simp [equal]

theorem rank_reduce (n : Int) (k : Nat) : (reduce n k).rank = 2 := by
  induction k generalizing n with
  | zero => rfl
  | succ k ih =>
    unfold reduce
    split
    · exact ih (n / 2)
    · rfl

theorem parts_pos (k : Nat) : (0 : Int) < parts k := Int.natCast_pos.mpr (Nat.two_pow_pos k)

theorem parts_le_trans {a b c : Int} {i j k : Nat} (hab : a * parts j ≤ b * parts i)
    (hbc : b * parts k ≤ c * parts j) : a * parts k ≤ c * parts i := by
  refine Int.le_of_mul_le_mul_right ?_ (parts_pos j)
  calc a * parts k * parts j = a * parts j * parts k := Int.mul_right_comm ..
    _ ≤ b * parts i * parts k := Int.mul_le_mul_of_nonneg_right hab (Int.le_of_lt (parts_pos k))
    _ = b * parts k * parts i := Int.mul_right_comm ..
    _ ≤ c * parts j * parts i := Int.mul_le_mul_of_nonneg_right hbc (Int.le_of_lt (parts_pos i))
    _ = c * parts i * parts j := Int.mul_right_comm ..

theorem orderWithin_number_isLE {n m : Int} {k l : Nat} :
    (orderWithin (.number n k) (.number m l)).isLE = true ↔
      n * parts l < m * parts k ∨ n * parts l = m * parts k ∧ k ≤ l := by
  simp only [orderWithin, Ordering.isLE_then_iff_or, Int.compare_eq_lt, Int.compare_eq_eq,
    Nat.isLE_compare]

theorem orderWithin_swap (a b : Atom) : orderWithin a b = (orderWithin b a).swap := by
  cases a <;> cases b <;> simp only [orderWithin, Ordering.swap_then, Ordering.swap_eq]
  case number.number => rw [← Std.OrientedCmp.eq_swap, ← Std.OrientedCmp.eq_swap]
  case text.text => exact Std.OrientedCmp.eq_swap

theorem orderWithin_trans {a b c : Atom} (ab : a.rank = b.rank) (bc : b.rank = c.rank)
    (hab : (orderWithin a b).isLE = true) (hbc : (orderWithin b c).isLE = true) :
    (orderWithin a c).isLE = true := by
  cases a <;> cases b <;> cases c <;> simp only [rank, reduceCtorEq, Nat.reduceEqDiff] at ab bc
  case number.number.number n i m j p k =>
    rw [orderWithin_number_isLE] at hab hbc ⊢
    have le := parts_le_trans (a := n) (b := m) (c := p) (i := i) (j := j) (k := k) (by omega) (by omega)
    by_cases eq : n * parts k = p * parts i
    · have back₁ := parts_le_trans (a := m) (b := p) (c := n) (i := j) (j := k) (k := i)
      have back₂ := parts_le_trans (a := p) (b := n) (c := m) (i := k) (j := i) (k := j)
      omega
    · omega
  case text.text.text s t u =>
    have hac : (compare s u).isLE = true := Std.TransCmp.isLE_trans (b := t) hab hbc
    exact hac
  all_goals rfl

theorem eq_of_orderWithin {a b : Atom} (ranks : a.rank = b.rank) (h : orderWithin a b = .eq) :
    a = b := by
  cases a <;> cases b <;> simp only [rank, reduceCtorEq, Nat.reduceEqDiff] at ranks
  case number.number n k m l =>
    simp only [orderWithin, Ordering.then_eq_eq, Int.compare_eq_eq, Nat.compare_eq_eq] at h
    obtain ⟨same, rfl⟩ := h
    rw [Int.eq_of_mul_eq_mul_right (Int.ne_of_gt (parts_pos k)) same]
  case text.text s t =>
    have h : compare s t = .eq := h
    rw [Std.LawfulEqCmp.eq_of_compare h]
  all_goals rfl

instance : Std.OrientedCmp order where
  eq_swap {a b} := by
    rw [order, order, Ordering.swap_then, ← orderWithin_swap, ← Std.OrientedCmp.eq_swap]

instance : Std.TransCmp order where
  isLE_trans {a b c} hab hbc := by
    simp only [order, Ordering.isLE_then_iff_or, Nat.compare_eq_lt, Nat.compare_eq_eq] at *
    rcases hab with hab | ⟨ab, hab⟩ <;> rcases hbc with hbc | ⟨bc, hbc⟩
    · exact .inl (Nat.lt_trans hab hbc)
    · exact .inl (bc ▸ hab)
    · exact .inl (ab ▸ hbc)
    · exact .inr ⟨ab.trans bc, orderWithin_trans ab bc hab hbc⟩

instance : Std.LawfulEqCmp order where
  compare_self {a} := Std.ReflCmp.compare_self
  eq_of_compare {a b} h := by
    simp only [order, Ordering.then_eq_eq, Nat.compare_eq_eq] at h
    exact eq_of_orderWithin h.1 h.2

theorem order_self (a : Atom) : a.order a = .eq := Std.ReflCmp.compare_self

theorem order_swap (a b : Atom) : a.order b = (b.order a).swap := Std.OrientedCmp.eq_swap

theorem order_eq_iff {a b : Atom} : a.order b = .eq ↔ a = b := Std.LawfulEqCmp.compare_eq_iff_eq

theorem order_trans {a b c : Atom} (ab : (a.order b).isLE = true) (bc : (b.order c).isLE = true) :
    (a.order c).isLE = true := Std.TransCmp.isLE_trans ab bc

end Atom

end JoinOrder
