import JoinOrder.Proofs.FloatArithmetic
/-!
The digits that are written for a float: whichever are chosen, they are rounded to it when they are
read.
-/

namespace JoinOrder.Decimal

open Binary

def amount (d : Decimal) : ℚ := d.digits * 10 ^ d.exponent

variable {m : Nat} {q : Int} {d : Decimal}

theorem zpow_mul_power {b : Nat} (pos : 0 < b) (e : Int) : (b : ℚ) ^ e * power b (-e) = power b e := by
  have nonzero : (b : ℚ) ≠ 0 := by exact_mod_cast pos.ne'
  show (b : ℚ) ^ e * ((b ^ (-e).toNat : Nat) : ℚ) = ((b ^ e.toNat : Nat) : ℚ)
  push_cast
  rw [← zpow_natCast, ← zpow_natCast, ← zpow_add₀ nonzero]
  congr 1
  omega

theorem compareScaled_iff (a : Nat) (i : Int) (n : Nat) (j : Int) :
    (compareScaled a i n j = .lt ↔ (a : ℚ) * 10 ^ i < n * 2 ^ j) ∧
      (compareScaled a i n j = .eq ↔ (a : ℚ) * 10 ^ i = n * 2 ^ j) ∧
      (compareScaled a i n j = .gt ↔ (n : ℚ) * 2 ^ j < a * 10 ^ i) := by
  have pos : (0 : ℚ) < power 10 (-i) * power 2 (-j) := by
    exact_mod_cast Nat.mul_pos (Nat.pow_pos (by decide)) (Nat.pow_pos (by decide))
  have left : (a : ℚ) * 10 ^ i * (power 10 (-i) * power 2 (-j)) =
      (a * power 10 i * power 2 (-j) : Nat) := by
    have ten := zpow_mul_power (b := 10) (by decide) i
    push_cast at ten ⊢
    rw [← ten]
    ring
  have right : (n : ℚ) * 2 ^ j * (power 10 (-i) * power 2 (-j)) =
      (n * power 2 j * power 10 (-i) : Nat) := by
    have two := zpow_mul_power (b := 2) (by decide) j
    push_cast at two ⊢
    rw [← two]
    ring
  refine ⟨?_, ?_, ?_⟩
  · rw [compareScaled, Nat.compare_eq_lt, ← mul_lt_mul_iff_of_pos_right pos, left, right, Nat.cast_lt]
  · rw [compareScaled, Nat.compare_eq_eq, ← mul_left_inj' pos.ne', left, right, Nat.cast_inj]
  · rw [compareScaled, Nat.compare_eq_gt, ← mul_lt_mul_iff_of_pos_right pos, left, right, Nat.cast_lt]

theorem quarters (n : Nat) (q : Int) : (n : ℚ) * 2 ^ (q - 2) = n / 4 * 2 ^ q := by
  rw [sub_eq_add_neg, two_zpow_add]
  norm_num
  ring

/-- Digits that read back are rounded to the number. -/
theorem nearest_of_readsBack (pos : 0 < m) (back : readsBack m q d = true) :
    Nearest d.amount m q := by
  unfold readsBack at back
  dsimp only at back
  -- The comparisons are made in quarters of the last place.
  have low : ((if narrowBelow m q then 4 * m - 1 else 4 * m - 2 : Nat) : ℚ) / 4 = lowEnd m q := by
    unfold lowEnd
    split
    · rw [Nat.cast_sub (by omega)]
      push_cast
      ring
    · rw [Nat.cast_sub (by omega)]
      push_cast
      ring
  have high : ((4 * m + 2 : Nat) : ℚ) / 4 = m + 1 / 2 := by
    push_cast
    ring
  generalize (if narrowBelow m q then 4 * m - 1 else 4 * m - 2) = near at back low
  obtain ⟨-, lowEq, lowGt⟩ := compareScaled_iff d.digits d.exponent near (q - 2)
  obtain ⟨highLt, highEq, -⟩ := compareScaled_iff d.digits d.exponent (4 * m + 2) (q - 2)
  rw [quarters, low] at lowEq lowGt
  rw [quarters, high] at highLt highEq
  simp only [Bool.and_eq_true, Bool.or_eq_true, beq_iff_eq, lowEq, lowGt, highLt, highEq] at back
  obtain ⟨above, below⟩ := back
  refine ⟨?_, ?_, ?_⟩
  · rcases above with above | ⟨-, same⟩
    · exact above.le
    · exact same.ge
  · rcases below with below | ⟨-, same⟩
    · exact below.le
    · exact same.le
  · rintro (same | same)
    · exact above.elim (fun above => absurd same above.ne') (·.1)
    · exact below.elim (fun below => absurd same below.ne) (·.1)

theorem readsBack_of_onGrid {g : Int} (found : onGrid g m q = some d) : readsBack m q d = true := by
  unfold onGrid at found
  dsimp only at found
  split at found
  case h_1 => cases found
  case h_2 low _ => exact Option.some.inj found ▸ low
  case h_3 _ high => exact Option.some.inj found ▸ high
  case h_4 low high =>
    split at found
    · exact Option.some.inj found ▸ low
    · exact Option.some.inj found ▸ high
    · cases found
      split
      · exact low
      · exact high

theorem amount_stripZeros (n : Nat) (d : Decimal) : (stripZeros n d).amount = d.amount := by
  induction n generalizing d with
  | zero => rfl
  | succ n ih =>
    rw [stripZeros]
    split
    · next last =>
      rw [ih]
      have parts : d.digits = d.digits / 10 * 10 := by
        have := beq_iff_eq.mp last
        omega
      show ((d.digits / 10 : Nat) : ℚ) * 10 ^ (d.exponent + 1) = d.digits * 10 ^ d.exponent
      rw [zpow_add₀ (by norm_num), zpow_one]
      conv_rhs => rw [parts, Nat.cast_mul]
      push_cast
      ring
    · rfl

/-- What is written if nothing shorter is found is exact. -/
theorem amount_exact (m : Nat) (q : Int) :
    amount ⟨m * power 2 q * power 5 (-q), -((-q).toNat : Int)⟩ = m * 2 ^ q := by
  have two := zpow_mul_power (b := 2) (by decide) q
  have ten : (10 : ℚ) ^ (-((-q).toNat : Int)) * (power 2 (-q) * power 5 (-q)) = 1 := by
    have product : (power 2 (-q) : ℚ) * power 5 (-q) = 10 ^ ((-q).toNat : Int) := by
      show ((2 ^ (-q).toNat : Nat) : ℚ) * ((5 ^ (-q).toNat : Nat) : ℚ) = _
      rw [zpow_natCast, ← Nat.cast_mul, ← Nat.mul_pow]
      norm_num
    rw [product, ← zpow_add₀ (by norm_num), neg_add_cancel, zpow_zero]
  unfold amount
  push_cast at two ⊢
  rw [← two]
  calc (m : ℚ) * (2 ^ q * power 2 (-q)) * power 5 (-q) * 10 ^ (-((-q).toNat : Int))
      = m * 2 ^ q * (10 ^ (-((-q).toNat : Int)) * (power 2 (-q) * power 5 (-q))) := by ring
    _ = m * 2 ^ q := by rw [ten, mul_one]

/-- The digits that are written are rounded to the number. -/
theorem nearest_shortest (pos : 0 < m) : Nearest (shortest m q).amount m q := by
  unfold shortest
  dsimp only
  split
  · next d found =>
    obtain ⟨n, -, there⟩ := List.exists_of_findSome?_eq_some found
    rw [amount_stripZeros]
    exact nearest_of_readsBack pos (readsBack_of_onGrid there)
  · rw [amount_exact]
    exact nearest_self m q

theorem digits_shortest_pos (kept : IsKept m q) : 0 < (shortest m q).digits := by
  have pos := kept.pos_of_nearest (nearest_shortest kept.pos)
  refine Nat.pos_of_ne_zero fun none => ?_
  rw [amount, none, Nat.cast_zero, zero_mul] at pos
  exact lt_irrefl _ pos

end JoinOrder.Decimal
