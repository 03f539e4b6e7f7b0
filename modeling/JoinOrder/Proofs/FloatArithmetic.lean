import JoinOrder.Proofs.FloatFields
/-!
Products, quotients and decimals. What is exactly in two floats is multiplied and divided exactly before
it is rounded, and so a decimal that lies nearest to a number is read as that number, whichever way it is
worked out.
-/

open Float.Model Float.Model.UnpackedFloat

namespace JoinOrder.Binary

/-- A float of full length that is exactly a quantity. -/
def IsExactly (x : Float) (v : ℚ) : Prop :=
  ∃ m q, 2 ^ 52 ≤ m ∧ ofFloat x = .finite false m q ∧ v = m * 2 ^ q

variable {v : ℚ} {m n : Nat} {q e : Int} {x y : Float}

theorem nearest_self (m : Nat) (q : Int) : Nearest (m * 2 ^ q) m q := by
  have unit := two_zpow_pos q
  have low : lowEnd m q < m := by
    unfold lowEnd
    split <;> linarith
  refine ⟨mul_le_mul_of_nonneg_right low.le unit.le, mul_le_mul_of_nonneg_right (by linarith) unit.le, ?_⟩
  rintro (same | same)
  · exact absurd (mul_right_cancel₀ unit.ne' same) low.ne'
  · have := mul_right_cancel₀ unit.ne' same
    linarith

theorem standsAt_exact (n : Nat) (e : Int) :
    StandsAt (n * 2 ^ e) e (.ofMantissaAndAccuracy n .exact) := ⟨0, rfl, by rw [add_zero]; rfl⟩

theorem IsExactly.unpack (exactly : IsExactly x v) :
    ∃ m q pos, IsKept m q ∧ 2 ^ 52 ≤ m ∧ x.toModel.unpack = .finite .positive m q pos ∧
      v = m * 2 ^ q := by
  obtain ⟨m, q, full, finite, value⟩ := exactly
  have pos : 0 < m := by omega
  have kept := isKept_of_ofFloat finite pos
  refine ⟨m, q, pos, kept, full, ?_, value⟩
  rw [toModel_eq finite pos]
  exact unpack_pack false kept

/-- The shift that brings the leading bit of a number to the front of a fraction. -/
theorem full_of_shift (pos : 0 < n) {shift : Nat} (sum : n.log2 + shift = 52) :
    2 ^ 52 ≤ n * 2 ^ shift ∧ n * 2 ^ shift < 2 ^ 53 := by
  constructor
  · calc 2 ^ 52 = 2 ^ n.log2 * 2 ^ shift := by rw [← Nat.pow_add, sum]
      _ ≤ n * 2 ^ shift := Nat.mul_le_mul_right _ (Nat.log2_self_le pos.ne')
  · calc n * 2 ^ shift < 2 ^ (n.log2 + 1) * 2 ^ shift :=
          Nat.mul_lt_mul_of_pos_right Nat.lt_log2_self (Nat.two_pow_pos _)
      _ = 2 ^ 53 := by
        rw [← Nat.pow_add]
        congr 1
        omega

theorem isExactly_toFloat (pos : 0 < n) (lt : n < 2 ^ 53) : IsExactly n.toUInt64.toFloat n := by
  have log : n.log2 ≤ 52 := by
    have := (Nat.log2_lt pos.ne').mpr lt
    omega
  obtain ⟨shift, sum⟩ : ∃ shift, n.log2 + shift = 52 := ⟨52 - n.log2, by omega⟩
  obtain ⟨full, room⟩ := full_of_shift pos sum
  have kept : IsKept (n * 2 ^ shift) (-shift) := ⟨by omega, room, by omega, by omega, fun _ => full⟩
  have value : (n : ℚ) = (n * 2 ^ shift : Nat) * 2 ^ (-shift : Int) := by
    rw [zpow_neg, zpow_natCast]
    push_cast
    field_simp
  refine ⟨n * 2 ^ shift, -shift, full, ?_, value⟩
  have there : place n 0 = -shift := by rw [place_eq]; omega
  have word : n.toUInt64.toNat = n := by
    rw [Nat.toUInt64, UInt64.toNat_ofNat', Nat.mod_eq_of_lt (lt_trans lt (by decide))]
  have rounded : UnpackedFloat.ofUInt64 .binary64 n.toUInt64 =
      .finite .positive (n * 2 ^ shift) (-shift) kept.pos := by
    rw [UnpackedFloat.ofUInt64, word, UnpackedFloat.ofNat, UnpackedFloat.ofInt,
      Float.Model.UnpackedFloat.normalize, Int.compare_eq_gt.mpr (by omega)]
    dsimp only
    rw [Int.toNat_natCast, Float.Model.UnpackedFloat.round]
    dsimp only
    have down : decreaseExponent n 0 (Format.binary64.targetExponent (totalExponent n 0)) =
        (n * 2 ^ shift, -(shift : Int)) := by
      have amount : (0 - place n 0).toNat = shift := by omega
      have zero : (0 : Int) - shift = -shift := by omega
      show (n <<< (0 - place n 0).toNat, 0 - ((0 - place n 0).toNat : Int)) = _
      rw [amount, Nat.shiftLeft_eq, zero]
    rw [down]
    refine roundWithAccuracy_eq kept (nearest_self _ _) (standsAt_exact _ _) ?_ _
    rw [place_eq, kept.log2_eq full]
    omega
  show ofFloat (.ofModel (.pack (UnpackedFloat.ofUInt64 .binary64 n.toUInt64))) = _
  rw [rounded]
  exact ofFloat_pack false kept

/-- Whether a float is a power of ten with all its bits. -/
def isPowerOfTen (x : Float) (k : Nat) : Bool :=
  match ofFloat x with
  | .finite false m q => decide (2 ^ 52 ≤ m) && m * 2 ^ q.toNat == 10 ^ k * 2 ^ (-q).toNat
  | _ => false

/-- The power of ten that is looked up instead of being worked out. -/
def knownPower (k : Nat) (le : k ≤ 22) : Float :=
  getElem Float.exactlyRepresentablePowersOfTen k (Nat.lt_succ_of_le le)

theorem isPowerOfTen_known : ∀ k : Fin 23,
    isPowerOfTen (knownPower k (Nat.le_of_lt_succ k.isLt)) k = true := by
  decide +kernel

theorem isExactly_knownPower {k : Nat} (le : k ≤ 22) : IsExactly (knownPower k le) (10 ^ k) := by
  have power := isPowerOfTen_known ⟨k, by omega⟩
  generalize knownPower k _ = x at power
  unfold isPowerOfTen at power
  split at power
  · rename_i m q finite
    simp only [Bool.and_eq_true, decide_eq_true_eq, beq_iff_eq] at power
    refine ⟨m, q, power.1, finite, ?_⟩
    have sides : (m : ℚ) * 2 ^ q.toNat = 10 ^ k * 2 ^ (-q).toNat := by exact_mod_cast power.2
    have split : (2 : ℚ) ^ q.toNat = 2 ^ q * 2 ^ (-q).toNat := by
      rw [← zpow_natCast, ← zpow_natCast, ← two_zpow_add]
      congr 1
      omega
    rw [split, ← mul_assoc] at sides
    exact (mul_right_cancel₀ (by positivity) sides).symm
  · contradiction

theorem mul_eq (kept : IsKept m q) (near : Nearest v m q) {a b : ℚ} (left : IsExactly x a)
    (right : IsExactly y b) (product : v = a * b) : ofFloat (x * y) = .finite false m q := by
  obtain ⟨i, e, posI, keptI, fullI, unpackX, rfl⟩ := left.unpack
  obtain ⟨j, f, posJ, keptJ, fullJ, unpackY, rfl⟩ := right.unpack
  -- Full fractions make a product that is at least as long, so no place is left out.
  have long : 52 ≤ (i * j).log2 := by
    refine (Nat.le_log2 (Nat.mul_pos posI posJ).ne').mpr (le_trans fullI ?_)
    exact Nat.le_mul_of_pos_right i posJ
  have rounded : UnpackedFloat.mul .binary64 x.toModel.unpack y.toModel.unpack =
      .finite .positive m q kept.pos := by
    rw [unpackX, unpackY]
    refine roundWithAccuracy_eq (e := e + f) kept near ?_ ?_ _
    · have exact := standsAt_exact (i * j) (e + f)
      have same : v = (i * j : Nat) * 2 ^ (e + f) := by
        rw [product, two_zpow_add]
        push_cast
        ring
      rwa [← same] at exact
    · rw [place_eq]
      omega
  show ofFloat (.ofModel (.pack (UnpackedFloat.mul .binary64 x.toModel.unpack y.toModel.unpack))) = _
  rw [rounded]
  exact ofFloat_pack false kept

/-- What a remainder says about the digits behind the quotient. -/
theorem standsAt_div (a b : Nat) (pos : 0 < b) (e : Int) :
    StandsAt (a / b * 2 ^ e) e (.ofMantissaAndAccuracy (a / b) (accuracyOfFraction (a % b) b)) := by
  have denominator : (0 : ℚ) < b := by exact_mod_cast pos
  have parts : (a : ℚ) = b * (a / b : Nat) + (a % b : Nat) := by
    exact_mod_cast (Nat.div_add_mod a b).symm
  refine ⟨(a % b : Nat) / b, ?_, ?_⟩
  · have less : ((a % b : Nat) : ℚ) < b := by exact_mod_cast Nat.mod_lt a pos
    unfold accuracyOfFraction
    split
    case isTrue zero =>
      rw [zero]
      exact div_eq_zero_iff.mpr (.inl Nat.cast_zero)
    case isFalse some =>
      have positive : (0 : ℚ) < (a % b : Nat) := by exact_mod_cast Nat.pos_of_ne_zero some
      cases order : compare (2 * (a % b)) b with
      | lt =>
        have half : (2 : ℚ) * (a % b : Nat) < b := by exact_mod_cast Nat.compare_eq_lt.mp order
        exact ⟨div_pos positive denominator, by rw [div_lt_div_iff₀ denominator two_pos]; linarith⟩
      | eq =>
        have half : (2 : ℚ) * (a % b : Nat) = b := by exact_mod_cast Nat.compare_eq_eq.mp order
        show _ / _ = _
        rw [div_eq_div_iff denominator.ne' two_ne_zero]
        linarith
      | gt =>
        have half : (b : ℚ) < 2 * (a % b : Nat) := by exact_mod_cast Nat.compare_eq_gt.mp order
        exact ⟨by rw [div_lt_div_iff₀ two_pos denominator]; linarith, (div_lt_one denominator).mpr less⟩
  · rw [mantissa_ofMantissaAndAccuracy, parts]
    field_simp

/-- The leading bits of two numbers tell how large their quotient is at least. -/
theorem two_zpow_le_quotient {i j : Nat} {f : Int} (posI : 0 < i) (posJ : 0 < j) :
    (2 : ℚ) ^ ((i.log2 : Int) + e - (j.log2 + 1 + f)) ≤ i * 2 ^ e / (j * 2 ^ f) := by
  rw [le_div_iff₀ (mul_pos (by exact_mod_cast posJ) (two_zpow_pos f))]
  have numerator := two_pow_log2_le posI
  have denominator := succ_le_two_pow_log2 j
  calc (2 : ℚ) ^ ((i.log2 : Int) + e - (j.log2 + 1 + f)) * (j * 2 ^ f)
      ≤ 2 ^ ((i.log2 : Int) + e - (j.log2 + 1 + f)) * (2 ^ (j.log2 + 1 : Int) * 2 ^ f) := by
        have := two_zpow_pos f
        gcongr
        linarith
    _ = 2 ^ (i.log2 : Int) * 2 ^ e := by
        rw [← two_zpow_add, ← two_zpow_add, ← two_zpow_add]
        congr 1
        omega
    _ ≤ i * 2 ^ e := by gcongr

/-- A quotient has enough digits worked out to be rounded. -/
theorem div_finite {i j : Nat} {f : Int} (posI : 0 < i) (posJ : 0 < j) (kept : IsKept m q)
    (near : Nearest v m q) (quotient : v = i * 2 ^ e / (j * 2 ^ f)) :
    UnpackedFloat.div .binary64 (.finite .positive i e posI) (.finite .positive j f posJ) =
      .finite .positive m q kept.pos := by
  obtain ⟨t, target⟩ : ∃ t, t = min (e - f)
      (Format.binary64.targetExponent (totalExponent i e - totalExponent j f)) := ⟨_, rfl⟩
  have few : t ≤ max ((i.log2 : Int) + e - (j.log2 + f) - 53) (-1074) := by
    have unfolded : t = min (e - f)
        (max ((i.log2 : Int) + 1 + e - (j.log2 + 1 + f) - 53) (-1074)) := target
    omega
  have shift : t + (e - f - t).toNat = e - f := by omega
  have value : v = (i * 2 ^ (e - f - t).toNat : Nat) / j * 2 ^ t := by
    rw [quotient]
    have : (2 : ℚ) ^ e = 2 ^ (e - f - t).toNat * 2 ^ t * 2 ^ f := by
      rw [← zpow_natCast, ← two_zpow_add, ← two_zpow_add]
      congr 1
      omega
    rw [this]
    push_cast
    have := two_zpow_pos f
    field_simp
  have stands := standsAt_div (i * 2 ^ (e - f - t).toNat) j posJ t
  rw [← value] at stands
  have enough : t ≤ place (i * 2 ^ (e - f - t).toNat / j) t := by
    have low := two_zpow_le_quotient (e := e) (f := f) posI posJ
    rw [← quotient] at low
    have leading := lt_of_two_zpow_lt (lt_of_le_of_lt low stands.lt_two_zpow)
    rw [place_eq]
    omega
  have core : divCore .binary64 i e j f = (i * 2 ^ (e - f - t).toNat / j, t,
      accuracyOfFraction (i * 2 ^ (e - f - t).toNat % j) j) := by
    unfold divCore
    simp only [← target, Nat.shiftLeft_eq]
  rw [UnpackedFloat.div, core]
  exact roundWithAccuracy_eq kept near stands enough _

theorem div_eq (kept : IsKept m q) (near : Nearest v m q) {a b : ℚ} (left : IsExactly x a)
    (right : IsExactly y b) (quotient : v = a / b) : ofFloat (x / y) = .finite false m q := by
  obtain ⟨i, e, posI, keptI, fullI, unpackX, rfl⟩ := left.unpack
  obtain ⟨j, f, posJ, keptJ, fullJ, unpackY, rfl⟩ := right.unpack
  show ofFloat (.ofModel (.pack (UnpackedFloat.div .binary64 x.toModel.unpack y.toModel.unpack))) = _
  rw [unpackX, unpackY, div_finite posI posJ kept near quotient]
  exact ofFloat_pack false kept

theorem two_zpow_le_ten_zpow (nonneg : 0 ≤ e) : (2 : ℚ) ^ e ≤ 10 ^ e := by
  obtain ⟨k, rfl⟩ := Int.eq_ofNat_of_zero_le nonneg
  rw [zpow_natCast, zpow_natCast]
  gcongr
  norm_num

theorem ten_zpow_le_two_zpow (nonpos : e ≤ 0) : (10 : ℚ) ^ e ≤ 2 ^ e := by
  have inverse := two_zpow_le_ten_zpow (e := -e) (by omega)
  rw [zpow_neg, zpow_neg] at inverse
  exact (inv_le_inv₀ (two_zpow_pos e) (by positivity)).mp inverse

/-- Decimals that are rounded to numbers have no exponents that are far too large. -/
theorem exponent_le_of_nearest (kept : IsKept m q) {d : Nat} (some : 0 < d)
    (near : Nearest (d * 10 ^ e) m q) : e ≤ 2048 := by
  have largest := kept.le_largest
  have one : (1 : ℚ) ≤ d := by exact_mod_cast some
  by_contra far
  have below : (2 : ℚ) ^ e < 2 ^ (53 + q) := calc
    (2 : ℚ) ^ e ≤ 10 ^ e := two_zpow_le_ten_zpow (by omega)
    _ ≤ d * 10 ^ e := le_mul_of_one_le_left (zpow_pos (by norm_num) e).le one
    _ < 2 ^ (53 + q) := kept.lt_of_nearest near
  have := lt_of_two_zpow_lt below
  omega

/-- Nor are the exponents far too small for the digits that come with them. -/
theorem le_exponent_of_nearest (kept : IsKept m q) {d : Nat} (near : Nearest (d * 10 ^ e) m q) :
    -(2048 + d.log2 : Int) ≤ e := by
  have least := kept.least_le
  by_contra far
  have below : (2 : ℚ) ^ (q - 1) < 2 ^ ((d.log2 : Int) + 1 + e) := calc
    (2 : ℚ) ^ (q - 1) = (1 - 1 / 2) * 2 ^ q := by
      rw [← Int.sub_add_cancel q 1, two_zpow_succ, Int.sub_add_cancel]
      ring
    _ ≤ lowEnd m q * 2 ^ q := by
      have first : (1 : ℚ) ≤ m := by exact_mod_cast kept.pos
      have := IsKept.lowEnd_ge m q
      have := two_zpow_pos q
      gcongr
      linarith
    _ ≤ d * 10 ^ e := near.below
    _ < (d + 1) * 2 ^ e := by
      have small : (10 : ℚ) ^ e ≤ 2 ^ e := ten_zpow_le_two_zpow (by omega)
      have := two_zpow_pos e
      nlinarith
    _ ≤ 2 ^ ((d.log2 : Int) + 1 + e) := by
      have := succ_le_two_pow_log2 d
      rw [two_zpow_add]
      gcongr
  have := lt_of_two_zpow_lt below
  omega

/-- Decimals of any length are worked out in full before they are rounded. -/
theorem unpacked_ofScientific_eq (kept : IsKept m q) {d : Nat} (some : 0 < d)
    (near : Nearest (d * 10 ^ e) m q) :
    UnpackedFloat.ofScientific .binary64 d e = .finite .positive m q kept.pos := by
  have width : Format.binary64.mantissaBits = 53 := rfl
  have bits : (2 ^ Format.binary64.exponentBits : Int) = 2048 := rfl
  have within : ¬e > 2 ^ Format.binary64.exponentBits := by
    have := exponent_le_of_nearest kept some near
    omega
  have above : ¬e < -((2 ^ Format.binary64.exponentBits : Int) + d.log2) := by
    have := le_exponent_of_nearest kept near
    omega
  unfold UnpackedFloat.ofScientific
  rw [dif_neg some.ne', if_neg within, if_neg above]
  split
  case isTrue nonneg =>
    -- The digits are moved up by as many places as a fraction has, and only then multiplied.
    obtain ⟨k, rfl⟩ := Int.eq_ofNat_of_zero_le nonneg
    have exact := standsAt_exact (d * 2 ^ 53 * 10 ^ k) (-53)
    have value : ((d * 2 ^ 53 * 10 ^ k : Nat) : ℚ) * 2 ^ (-53 : Int) = d * 10 ^ (k : Int) := by
      rw [zpow_natCast]
      push_cast
      norm_num
      ring
    rw [value] at exact
    have product : UnpackedFloat.mul .binary64
        (.finite .positive (d <<< Format.binary64.mantissaBits) (-Format.binary64.mantissaBits)
          (by simpa [Nat.pos_iff_ne_zero] using some.ne'))
        (.finite .positive (10 ^ (k : Int).toNat) 0 (Nat.pow_pos (by decide))) =
        roundWithAccuracy .binary64 .positive (d * 2 ^ 53 * 10 ^ k) (-53) .exact := by
      rw [UnpackedFloat.mul, width, Nat.shiftLeft_eq]
      rfl
    rw [product]
    refine roundWithAccuracy_eq kept near exact ?_ _
    have long : 53 ≤ (d * 2 ^ 53 * 10 ^ k).log2 := by
      have ten : 0 < 10 ^ k := Nat.pow_pos (by decide)
      refine (Nat.le_log2 (by positivity)).mpr ?_
      calc 2 ^ 53 = 1 * 2 ^ 53 * 1 := by norm_num
        _ ≤ d * 2 ^ 53 * 10 ^ k := by gcongr <;> omega
    rw [place_eq]
    omega
  case isFalse negative =>
    refine div_finite some (Nat.pow_pos (by decide)) kept near ?_
    rw [zpow_zero, mul_one, mul_one, Nat.cast_pow, ← zpow_natCast, Int.toNat_of_nonneg (by omega),
      zpow_neg, div_inv_eq_mul]
    rfl

/-- A decimal that lies nearest to a number is read as that number. -/
theorem ofScientific_eq (kept : IsKept m q) {d : Nat} {down : Bool} {k : Nat} (some : 0 < d)
    (near : Nearest (d * 10 ^ (if down then -k else k : Int)) m q) :
    ofFloat (Float.ofScientific d down k) = .finite false m q := by
  unfold Float.ofScientific
  split
  case isTrue short =>
    have digits := isExactly_toFloat some short.1
    have power := isExactly_knownPower short.2
    cases down with
    | true =>
      refine div_eq kept near digits power ?_
      rw [if_pos rfl, zpow_neg, zpow_natCast, div_eq_mul_inv]
    | false =>
      refine mul_eq kept near digits power ?_
      rw [if_neg Bool.false_ne_true, zpow_natCast]
  case isFalse =>
    have exponent : (if down then Int.negOfNat k else Int.ofNat k) =
        if down then -(k : Int) else k := by
      cases down
      · rfl
      · exact Int.negOfNat_eq
    have read := unpacked_ofScientific_eq kept some near
    rw [← exponent] at read
    show ofFloat (.ofModel (.pack (UnpackedFloat.ofScientific .binary64 d _))) = _
    rw [read]
    exact ofFloat_pack false kept

end JoinOrder.Binary
