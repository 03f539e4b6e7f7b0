import JoinOrder.Decimal
import Mathlib
/-!
Rounding to floats. A float keeps a quantity `m * 2 ^ q` with as many bits as there is room for. What
lies nearest to it, reaching halfway to its neighbours, is rounded to it, provided that no more than the
last places of the exact value were cut off.
-/

open Float.Model Float.Model.UnpackedFloat

namespace JoinOrder.Binary

/-- A quantity `m * 2 ^ q` in the form in which floats keep it. Only the least exponent goes with
fractions that are not full. -/
structure IsKept (m : Nat) (q : Int) : Prop where
  pos : 0 < m
  lt : m < 2 ^ 53
  least_le : -1074 ≤ q
  le_largest : q ≤ 971
  full : -1074 < q → 2 ^ 52 ≤ m

/-- Halfway to the number below, in units of the last place. -/
def lowEnd (m : Nat) (q : Int) : ℚ := if narrowBelow m q then m - 1 / 4 else m - 1 / 2

/-- What is rounded to `m * 2 ^ q`. The points halfway between two numbers go to the even one. -/
structure Nearest (v : ℚ) (m : Nat) (q : Int) : Prop where
  below : lowEnd m q * 2 ^ q ≤ v
  above : v ≤ (m + 1 / 2) * 2 ^ q
  even : v = lowEnd m q * 2 ^ q ∨ v = (m + 1 / 2) * 2 ^ q → m % 2 = 0

section Powers

theorem two_zpow_pos (e : Int) : (0 : ℚ) < 2 ^ e := zpow_pos two_pos e

theorem two_zpow_add (i j : Int) : (2 : ℚ) ^ (i + j) = 2 ^ i * 2 ^ j := zpow_add₀ two_ne_zero i j

theorem two_zpow_succ (e : Int) : (2 : ℚ) ^ (e + 1) = 2 * 2 ^ e := by
  rw [two_zpow_add, zpow_one, mul_comm]

theorem lt_of_two_zpow_lt {i j : Int} (h : (2 : ℚ) ^ i < 2 ^ j) : i < j :=
  (zpow_lt_zpow_iff_right₀ one_lt_two).mp h

theorem two_zpow_le {i j : Int} (h : i ≤ j) : (2 : ℚ) ^ i ≤ 2 ^ j :=
  zpow_le_zpow_right₀ one_le_two h

/-- The leading bit of a natural number says between which powers of two it lies. -/
theorem two_pow_log2_le {n : Nat} (pos : 0 < n) : (2 : ℚ) ^ (n.log2 : Int) ≤ n := by
  rw [zpow_natCast]
  exact_mod_cast Nat.log2_self_le pos.ne'

theorem succ_le_two_pow_log2 (n : Nat) : (n : ℚ) + 1 ≤ 2 ^ (n.log2 + 1 : Int) := by
  have bound : n + 1 ≤ 2 ^ (n.log2 + 1) := Nat.lt_log2_self
  have same : (2 : ℚ) ^ (n.log2 + 1 : Int) = ((2 ^ (n.log2 + 1) : Nat) : ℚ) := by
    push_cast
    exact_mod_cast zpow_natCast (2 : ℚ) (n.log2 + 1)
  rw [same]
  exact_mod_cast bound

end Powers

namespace IsKept

variable {m : Nat} {q : Int} {v : ℚ}

theorem log2_eq (kept : IsKept m q) (full : 2 ^ 52 ≤ m) : m.log2 = 52 := by
  have low := (Nat.le_log2 kept.pos.ne').mpr full
  have high := (Nat.log2_lt kept.pos.ne').mpr kept.lt
  omega

theorem log2_le (kept : IsKept m q) : m.log2 ≤ 52 := by
  have high := (Nat.log2_lt kept.pos.ne').mpr kept.lt
  omega

theorem two_pow_le (full : 2 ^ 52 ≤ m) : (2 : ℚ) ^ 52 ≤ m := by exact_mod_cast full

theorem le_two_pow (kept : IsKept m q) : (m : ℚ) + 1 ≤ 2 ^ 53 := by exact_mod_cast kept.lt

theorem lowEnd_ge (m : Nat) (q : Int) : (m : ℚ) - 1 / 2 ≤ lowEnd m q := by
  unfold lowEnd
  split <;> linarith

theorem lowEnd_pos (kept : IsKept m q) : 0 < lowEnd m q := by
  have one : (1 : ℚ) ≤ m := by exact_mod_cast kept.pos
  have := lowEnd_ge m q
  linarith

theorem pos_of_nearest (kept : IsKept m q) (near : Nearest v m q) : 0 < v :=
  lt_of_lt_of_le (mul_pos kept.lowEnd_pos (two_zpow_pos q)) near.below

/-- What is rounded to a number lies below the next power of two. -/
theorem lt_of_nearest (kept : IsKept m q) (near : Nearest v m q) : v < 2 ^ (53 + q) := by
  rw [two_zpow_add]
  refine lt_of_le_of_lt near.above (mul_lt_mul_of_pos_right ?_ (two_zpow_pos q))
  have := kept.le_two_pow
  norm_num at this ⊢
  linarith

end IsKept

/-! ### Digits that are cut off -/

/-- What the two bits that a fraction leaves behind say about it. -/
def Cut (f : ℚ) : Bool → Bool → Prop
  | false, false => f = 0
  | false, true => 0 < f ∧ f < 1 / 2
  | true, false => f = 1 / 2
  | true, true => 1 / 2 < f ∧ f < 1

theorem Cut.bounds {f : ℚ} {round sticky : Bool} (cut : Cut f round sticky) : 0 ≤ f ∧ f < 1 := by
  cases round <;> cases sticky <;> simp only [Cut] at cut <;> constructor <;> linarith

/-- A quantity that is cut off after the place for `2 ^ e`. -/
def StandsAt (v : ℚ) (e : Int) (em : ExtendedMantissa) : Prop :=
  ∃ f, Cut f em.roundBit em.stickyBit ∧ v = (em.mantissa + f) * 2 ^ e

namespace StandsAt

variable {v : ℚ} {e : Int} {em : ExtendedMantissa}

theorem shiftRightOne (stands : StandsAt v e em) : StandsAt v (e + 1) em.shiftRightOne := by
  obtain ⟨f, cut, rfl⟩ := stands
  obtain ⟨n, round, sticky⟩ := em
  have parts : (n : ℚ) = 2 * (n / 2 : Nat) + (n % 2 : Nat) := by
    exact_mod_cast (Nat.div_add_mod n 2).symm
  refine ⟨((n % 2 : Nat) + f) / 2, ?_, ?_⟩
  · -- The bit that goes becomes the first of the two, and both that were there make the second.
    rcases Nat.mod_two_eq_zero_or_one n with bit | bit <;> cases round <;> cases sticky <;>
      simp only [ExtendedMantissa.shiftRightOne, bit, Cut, bne_self_eq_false,
        show (1 != 0) = true from rfl, Bool.or_false, Bool.or_true, Nat.cast_zero,
        Nat.cast_one] at cut ⊢
    all_goals first | linarith | constructor <;> linarith
  · rw [two_zpow_succ]
    simp only [ExtendedMantissa.shiftRightOne]
    linear_combination 2 ^ e * parts

theorem shiftRight (stands : StandsAt v e em) (k : Nat) : StandsAt v (e + k) (em >>> k) := by
  induction k with
  | zero =>
    rw [Nat.cast_zero, add_zero]
    exact stands
  | succ k ih =>
    have once := ih.shiftRightOne
    rw [add_assoc] at once
    exact_mod_cast once

/-- Rounding takes what is at most half a unit away, and of two such numbers the even one. -/
theorem roundedMantissa_eq (stands : StandsAt v e em) {m : Nat} (below : (m - 1 / 2) * 2 ^ e ≤ v)
    (above : v ≤ (m + 1 / 2) * 2 ^ e)
    (even : v = (m - 1 / 2) * 2 ^ e ∨ v = (m + 1 / 2) * 2 ^ e → m % 2 = 0) :
    em.roundedMantissa = m := by
  obtain ⟨f, cut, rfl⟩ := stands
  obtain ⟨n, round, sticky⟩ := em
  have unit := two_zpow_pos e
  have below : (m : ℚ) - 1 / 2 ≤ n + f := le_of_mul_le_mul_right below unit
  have above : (n : ℚ) + f ≤ m + 1 / 2 := le_of_mul_le_mul_right above unit
  have within (i j : Nat) (h : (i : ℚ) < j + 1) : i ≤ j := by
    have : i < j + 1 := by exact_mod_cast h
    omega
  cases round <;> cases sticky <;> simp only [Cut] at cut <;>
    simp only [ExtendedMantissa.roundedMantissa, ExtendedMantissa.accuracy,
      Accuracy.roundToNearestEven]
  case false.false =>
    have := within n m (by linarith)
    have := within m n (by linarith)
    omega
  case false.true =>
    have := within n m (by linarith)
    have := within m n (by linarith)
    omega
  case true.false =>
    have up := within n m (by linarith)
    have down := within m (n + 1) (by push_cast; linarith)
    rcases Nat.lt_or_ge n m with less | same
    · obtain rfl : m = n + 1 := by omega
      have := even (.inl (by rw [cut]; push_cast; ring))
      omega
    · obtain rfl : m = n := by omega
      have := even (.inr (by rw [cut]))
      omega
  case true.true =>
    have := within (n + 1) m (by push_cast; linarith)
    have := within m (n + 1) (by push_cast; linarith)
    omega

end StandsAt

/-! ### Rounding as a whole -/

theorem mantissa_ofMantissaAndAccuracy (n : Nat) (accuracy : Accuracy) :
    (ExtendedMantissa.ofMantissaAndAccuracy n accuracy).mantissa = n := by
  rcases accuracy with _ | _ | _ | _ <;> rfl

/-- The exponent that is left when as many bits are kept as there is room for. -/
def place (n : Nat) (e : Int) : Int := Format.binary64.targetExponent (totalExponent n e)

theorem place_eq (n : Nat) (e : Int) : place n e = max (n.log2 + e - 52) (-1074) := by
  have unfolded : place n e = max (n.log2 + 1 + e - 53) (-1074) := rfl
  omega

section Rounding

variable {v : ℚ} {m n : Nat} {q e : Int} {accuracy : Accuracy}

theorem shiftToTargetExponent_eq (n : Nat) (e : Int) (accuracy : Accuracy) :
    shiftToTargetExponent .binary64 n e accuracy =
      (ExtendedMantissa.ofMantissaAndAccuracy n accuracy >>> (place n e - e).toNat,
        e + (place n e - e).toNat) := rfl

theorem StandsAt.shifted (stands : StandsAt v e (.ofMantissaAndAccuracy n accuracy))
    (le : e ≤ place n e) :
    StandsAt v (place n e) (shiftToTargetExponent .binary64 n e accuracy).1 ∧
      (shiftToTargetExponent .binary64 n e accuracy).2 = place n e := by
  have there : e + (place n e - e).toNat = place n e := by omega
  have shifted := stands.shiftRight (place n e - e).toNat
  rw [there] at shifted
  exact ⟨shifted, there⟩

/-- The leading bit that stands tells how large a quantity is, whatever was cut off. -/
theorem StandsAt.two_zpow_le (stands : StandsAt v e (.ofMantissaAndAccuracy n accuracy)) (pos : 0 < n) :
    (2 : ℚ) ^ (n.log2 + e) ≤ v := by
  obtain ⟨f, cut, rfl⟩ := stands
  have nonneg := cut.bounds.1
  have leading := two_pow_log2_le pos
  rw [mantissa_ofMantissaAndAccuracy, two_zpow_add]
  exact mul_le_mul_of_nonneg_right (by linarith) (two_zpow_pos e).le

theorem StandsAt.lt_two_zpow (stands : StandsAt v e (.ofMantissaAndAccuracy n accuracy)) :
    v < (2 : ℚ) ^ (n.log2 + 1 + e) := by
  obtain ⟨f, cut, rfl⟩ := stands
  have less := cut.bounds.2
  have leading := succ_le_two_pow_log2 n
  rw [mantissa_ofMantissaAndAccuracy, two_zpow_add]
  exact mul_lt_mul_of_pos_right (by linarith) (two_zpow_pos e)

/-- If nothing stands at all, all that there is was cut off. -/
theorem StandsAt.lt_of_zero (stands : StandsAt v e (.ofMantissaAndAccuracy 0 accuracy)) :
    v < (2 : ℚ) ^ e := by
  obtain ⟨f, cut, rfl⟩ := stands
  rw [mantissa_ofMantissaAndAccuracy, Nat.cast_zero, zero_add]
  exact mul_lt_of_lt_one_left (two_zpow_pos e) cut.bounds.2

theorem IsKept.shift (kept : IsKept m q) :
    shiftToTargetExponent .binary64 m q .exact = (⟨m, false, false⟩, q) := by
  have least := kept.least_le
  have log := kept.log2_le
  have there : place m q = q := by
    rw [place_eq]
    by_cases full : 2 ^ 52 ≤ m
    · rw [kept.log2_eq full]
      omega
    · have := mt kept.full full
      omega
  rw [shiftToTargetExponent_eq, there, Int.sub_self]
  exact congrArg (Prod.mk _) (Int.add_zero q)

/-- A fraction that is rounded up to one more bit has that bit shifted out. -/
theorem shift_carry (above : -1074 < q) :
    shiftToTargetExponent .binary64 (2 ^ 53) (q - 1) .exact = (⟨2 ^ 52, false, false⟩, q) := by
  have there : place (2 ^ 53) (q - 1) = q := by
    rw [place_eq, Nat.log2_two_pow]
    omega
  have once : (q - (q - 1)).toNat = 1 := by omega
  rw [shiftToTargetExponent_eq, there, once]
  exact congrArg (Prod.mk _) (Int.sub_add_cancel q 1)

/-- A full fraction is nearest to nothing that is more than one power of two below it. -/
theorem two_zpow_le_of_nearest (full : 2 ^ 52 ≤ m) (near : Nearest v m q) : (2 : ℚ) ^ (51 + q) ≤ v := by
  have half : (2 : ℚ) ^ (51 : Int) ≤ 2 ^ 52 - 1 / 2 := by norm_num
  have low := IsKept.lowEnd_ge m q
  have whole := IsKept.two_pow_le full
  rw [two_zpow_add]
  exact le_trans (mul_le_mul_of_nonneg_right (by linarith) (two_zpow_pos q).le) near.below

/-- Only a power of two is nearest to something that is below all full fractions. -/
theorem eq_of_nearest_below (full : 2 ^ 52 ≤ m) (near : Nearest v m q) (less : v < 2 ^ 52 * 2 ^ q) :
    m = 2 ^ 52 := by
  have low := IsKept.lowEnd_ge m q
  have lower : lowEnd m q < 2 ^ 52 :=
    lt_of_mul_lt_mul_right (lt_of_le_of_lt near.below less) (two_zpow_pos q).le
  have small : (m : ℚ) < 2 ^ 52 + 1 := by linarith
  have small : m < 2 ^ 52 + 1 := by exact_mod_cast small
  omega

/-- Where the bits of a quantity end that is rounded to a number: where those of the number end, or
one place behind if the number is a power of two from below. -/
theorem place_of_nearest (kept : IsKept m q) (near : Nearest v m q)
    (stands : StandsAt v e (.ofMantissaAndAccuracy n accuracy)) (le : e ≤ place n e) :
    place n e = q ∨ place n e = q - 1 ∧ -1074 < q ∧ m = 2 ^ 52 ∧ v < 2 ^ 52 * 2 ^ q := by
  have least := kept.least_le
  have flat : ¬2 ^ 52 ≤ m → q = -1074 := fun full => by
    have := mt kept.full full
    omega
  have high := stands.lt_two_zpow
  rw [place_eq] at le ⊢
  by_cases full : 2 ^ 52 ≤ m
  · have low := lt_of_two_zpow_lt (lt_of_le_of_lt (two_zpow_le_of_nearest full near) high)
    rcases Nat.eq_zero_or_pos n with rfl | pos
    · -- Nothing stands before the place, so it is the least one, and no full fraction is near.
      have small := lt_of_two_zpow_lt (lt_of_le_of_lt (two_zpow_le_of_nearest full near) stands.lt_of_zero)
      simp only [Nat.log2_zero] at le
      omega
    have top := lt_of_two_zpow_lt (lt_of_le_of_lt (stands.two_zpow_le pos) (kept.lt_of_nearest near))
    rcases le_or_gt (2 ^ 52 * 2 ^ q) v with reaches | less
    · have reaches : (2 : ℚ) ^ (52 + q) ≤ v := by
        rw [two_zpow_add]
        exact_mod_cast reaches
      have := lt_of_two_zpow_lt (lt_of_le_of_lt reaches high)
      omega
    · have under : v < (2 : ℚ) ^ (52 + q) := by
        rw [two_zpow_add]
        exact_mod_cast less
      have behind := lt_of_two_zpow_lt (lt_of_le_of_lt (stands.two_zpow_le pos) under)
      rcases Int.lt_or_le (-1074) q with above | lowest
      · exact .inr ⟨by omega, above, eq_of_nearest_below full near less, less⟩
      · omega
  · have only := flat full
    rcases Nat.eq_zero_or_pos n with rfl | pos
    · simp only [Nat.log2_zero] at le ⊢
      omega
    · have top := lt_of_two_zpow_lt (lt_of_le_of_lt (stands.two_zpow_le pos) (kept.lt_of_nearest near))
      omega

/-- Rounding gives the number that a quantity lies nearest to, as long as no place is left out. -/
theorem roundWithAccuracy_eq (kept : IsKept m q) (near : Nearest v m q)
    (stands : StandsAt v e (.ofMantissaAndAccuracy n accuracy)) (le : e ≤ place n e) (s : Sign) :
    roundWithAccuracy .binary64 s n e accuracy = .finite s m q kept.pos := by
  obtain ⟨shifted, there⟩ := stands.shifted le
  rcases place_of_nearest kept near stands le with same | ⟨behind, above, rfl, less⟩
  · rw [same] at shifted there
    have rounded : (shiftToTargetExponent .binary64 n e accuracy).1.roundedMantissa = m := by
      have lowEnd := IsKept.lowEnd_ge m q
      refine shifted.roundedMantissa_eq ?_ near.above ?_
      · exact le_trans (mul_le_mul_of_nonneg_right lowEnd (two_zpow_pos q).le) near.below
      · rintro (halfway | halfway)
        · refine near.even (.inl (le_antisymm ?_ near.below))
          rw [halfway]
          exact mul_le_mul_of_nonneg_right lowEnd (two_zpow_pos q).le
        · exact near.even (.inr halfway)
    unfold roundWithAccuracy
    simp only [there, rounded, kept.shift]
    exact dif_neg kept.pos.ne'
  · -- In units of half the size the number has one bit too many, which is carried over.
    rw [behind] at shifted there
    have half : (2 : ℚ) ^ q = 2 * 2 ^ (q - 1) := by rw [← two_zpow_succ, Int.sub_add_cancel]
    have rounded : (shiftToTargetExponent .binary64 n e accuracy).1.roundedMantissa = 2 ^ 53 := by
      have narrow : narrowBelow (2 ^ 52) q = true := by simpa [narrowBelow, leadingBit] using above
      have below := near.below
      rw [half] at less
      rw [Binary.lowEnd, narrow, if_pos rfl, half] at below
      push_cast at below
      refine shifted.roundedMantissa_eq ?_ ?_ fun _ => rfl
      · push_cast
        linarith
      · push_cast
        have := two_zpow_pos (q - 1)
        linarith
    unfold roundWithAccuracy
    simp only [there, rounded, shift_carry above]
    rfl

end Rounding

end JoinOrder.Binary
