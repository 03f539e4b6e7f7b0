import JoinOrder.Proofs.Rounding
/-!
The words of floats. What was rounded is packed into the fields of a word, and a float is known by the
quantity that these fields stand for.
-/

open Float.Model Float.Model.UnpackedFloat

namespace JoinOrder.Binary

def signOf (negative : Bool) : Sign := if negative then .negative else .positive

variable {m : Nat} {q : Int} {negative : Bool} {x y : Float}

theorem toNat_packComponents (negative : Bool) (exponent : BitVec 11) (fraction : BitVec 52) :
    (packComponents .binary64 (signOf negative) exponent fraction).toNat =
      (if negative then 2 ^ 63 else 0) + exponent.toNat * 2 ^ 52 + fraction.toNat := by
  have outer := exponent.isLt
  have inner := fraction.isLt
  rw [packComponents, BitVec.toNat_append, ← Nat.shiftLeft_add_eq_or_of_lt inner,
    BitVec.toNat_append, ← Nat.shiftLeft_add_eq_or_of_lt outer, Nat.shiftLeft_eq, Nat.shiftLeft_eq]
  cases negative <;> simp [signOf, Sign.toBitVec]
  omega

/-- The three fields of a word can be read off it. -/
theorem ofBits_eq {bits : UInt64} {exponent fraction : Nat} (outer : exponent < 2047)
    (inner : fraction < 2 ^ 52)
    (word : bits.toNat = (if negative then 2 ^ 63 else 0) + exponent * 2 ^ 52 + fraction) :
    ofBits bits = if exponent = 0 then .finite negative fraction (-1074)
      else .finite negative (2 ^ 52 + fraction) (exponent - 1075) := by
  have bit : leadingBit = 2 ^ 52 := rfl
  have inside : bits.toNat % leadingBit = fraction := by
    cases negative <;> simp [bit] at word ⊢ <;> omega
  have outside : bits.toNat / leadingBit % 2048 = exponent := by
    cases negative <;> simp [bit] at word ⊢ <;> omega
  have sign : (bits.toNat / leadingBit / 2048 == 1) = negative := by
    cases negative <;> simp [bit] at word ⊢ <;> omega
  unfold ofBits
  simp only [inside, outside, sign, outer.ne, if_false]
  rfl

theorem biased_exponent (q : Int) : (q + Format.binary64.exponentBias +
    Format.binary64.mantissaBitsWithoutImplicit).toNat = (q + 1075).toNat := by
  have bias : (Format.binary64.exponentBias : Int) = 1023 := rfl
  have width : (Format.binary64.mantissaBitsWithoutImplicit : Int) = 52 := rfl
  omega

/-- The word of a number with a full fraction, whose leading bit goes without saying. -/
theorem pack_full (negative : Bool) (kept : IsKept m q) (full : 2 ^ 52 ≤ m) :
    UnpackedFloat.pack .binary64 (.finite (signOf negative) m q kept.pos) =
      packComponents .binary64 (signOf negative) (.ofNat 11 (q + 1075).toNat) (.ofNat 52 m) := by
  have largest := kept.le_largest
  have bits : Format.binary64.mantissaBits = 53 := rfl
  have finite : ¬2 ^ Format.binary64.exponentBits ≤ (q + 1075).toNat + 1 := by
    have room : 2 ^ Format.binary64.exponentBits = 2048 := rfl
    omega
  have biased := biased_exponent q
  rw [UnpackedFloat.pack]
  simp only [biased, finite, if_false, bits, kept.log2_eq full, if_true]

/-- The word of a number with a short fraction, which has the least exponent. -/
theorem pack_short (negative : Bool) (kept : IsKept m q) (short : m < 2 ^ 52) :
    UnpackedFloat.pack .binary64 (.finite (signOf negative) m q kept.pos) =
      packComponents .binary64 (signOf negative) 0#11 (.ofNat 52 m) := by
  have largest := kept.le_largest
  have bits : Format.binary64.mantissaBits = 53 := rfl
  have few : m.log2 + 1 ≠ 53 := by
    have := (Nat.log2_lt kept.pos.ne').mpr short
    omega
  have finite : ¬2 ^ Format.binary64.exponentBits ≤ (q + 1075).toNat + 1 := by
    have room : 2 ^ Format.binary64.exponentBits = 2048 := rfl
    omega
  have biased := biased_exponent q
  rw [UnpackedFloat.pack]
  simp only [biased, finite, if_false, bits, few]

theorem toNat_toBits_ofModel (negative : Bool) (kept : IsKept m q) {x : Float}
    (packed : x = .ofModel (.pack (.finite (signOf negative) m q kept.pos))) :
    x.toBits.toNat =
      (UnpackedFloat.pack .binary64 (.finite (signOf negative) m q kept.pos)).toNat := by
  rw [packed]
  rfl

theorem ofFloat_pack (negative : Bool) (kept : IsKept m q) :
    ofFloat (.ofModel (.pack (.finite (signOf negative) m q kept.pos))) = .finite negative m q := by
  have least := kept.least_le
  have largest := kept.le_largest
  have small := kept.lt
  generalize packed : Float.ofModel (.pack (.finite (signOf negative) m q kept.pos)) = x
  have word := toNat_toBits_ofModel negative kept packed.symm
  rw [ofFloat]
  by_cases full : 2 ^ 52 ≤ m
  · have room : (q + 1075).toNat < 2 ^ 11 := by omega
    have normal : (q + 1075).toNat ≠ 0 := by omega
    have whole : 2 ^ 52 + m % 2 ^ 52 = m := by omega
    have back : ((q + 1075).toNat : Int) - 1075 = q := by omega
    rw [pack_full negative kept full, toNat_packComponents, BitVec.toNat_ofNat, BitVec.toNat_ofNat,
      Nat.mod_eq_of_lt room] at word
    rw [ofBits_eq (by omega) (Nat.mod_lt _ (Nat.two_pow_pos 52)) word, if_neg normal, whole, back]
  · have short := Nat.lt_of_not_le full
    have lowest : q = -1074 := by
      have := mt kept.full full
      omega
    have fraction : (BitVec.ofNat 52 m).toNat = m := by rw [BitVec.toNat_ofNat, Nat.mod_eq_of_lt short]
    rw [pack_short negative kept short, toNat_packComponents, fraction] at word
    rw [ofBits_eq (by decide) short word, lowest]
    rfl

/-- A word with a finite quantity consists of the fields that this has. -/
theorem word_of_ofFloat (finite : ofFloat x = .finite negative m q) :
    ∃ exponent fraction, exponent < 2047 ∧ fraction < 2 ^ 52 ∧
      x.toBits.toNat = (if negative then 2 ^ 63 else 0) + exponent * 2 ^ 52 + fraction := by
  have bit : leadingBit = 2 ^ 52 := rfl
  have range := x.toBits.toNat_lt
  refine ⟨x.toBits.toNat / leadingBit % 2048, x.toBits.toNat % leadingBit, ?_, ?_, ?_⟩
  · unfold ofFloat ofBits at finite
    dsimp only at finite
    split at finite
    · split at finite <;> contradiction
    · omega
  · exact Nat.mod_lt _ (Nat.two_pow_pos 52)
  · unfold ofFloat ofBits at finite
    dsimp only at finite
    split at finite
    · split at finite <;> contradiction
    · split at finite <;> obtain ⟨rfl, _⟩ := finite <;> rw [bit] <;> simp <;> split <;> omega

/-- An infinite word has no bits in its fraction. -/
theorem word_of_infinite (infinite : ofFloat x = .infinite negative) :
    x.toBits.toNat = (if negative then 2 ^ 63 else 0) + 2047 * 2 ^ 52 := by
  have bit : leadingBit = 2 ^ 52 := rfl
  have range := x.toBits.toNat_lt
  unfold ofFloat ofBits at infinite
  dsimp only at infinite
  split at infinite
  · split at infinite
    · obtain rfl := Binary.infinite.inj infinite
      simp only [bit] at *
      simp
      split <;> omega
    · contradiction
  · split at infinite <;> contradiction

theorem eq_of_toBits (same : x.toBits.toNat = y.toBits.toNat) : x = y := by
  obtain ⟨⟨bits, _⟩⟩ := x
  obtain ⟨⟨bits', _⟩⟩ := y
  obtain rfl : bits = bits' := UInt64.toNat_inj.mp same
  rfl

/-- A float is known by its quantity, the sign of zero included. -/
theorem eq_of_ofFloat (same : ofFloat x = ofFloat y) (number : ofFloat x ≠ .undefined) : x = y := by
  cases left : ofFloat x with
  | undefined => exact absurd left number
  | infinite negative =>
    exact eq_of_toBits ((word_of_infinite left).trans (word_of_infinite (same ▸ left)).symm)
  | finite negative m q =>
    have right : ofFloat y = .finite negative m q := same ▸ left
    obtain ⟨i, f, outer, inner, word⟩ := word_of_ofFloat left
    obtain ⟨j, g, outer', inner', word'⟩ := word_of_ofFloat right
    rw [ofFloat, ofBits_eq outer inner word] at left
    rw [ofFloat, ofBits_eq outer' inner' word'] at right
    refine eq_of_toBits (word.trans (Eq.trans ?_ word'.symm))
    -- Of two words with full fractions both fields are equal, and so are those of two short ones.
    have fields : i = j ∧ f = g := by
      split at left <;> split at right <;> simp only [Binary.finite.injEq] at left right <;> omega
    rw [fields.1, fields.2]

/-- The form in which a float keeps a quantity is the one that was described. -/
theorem isKept_of_ofFloat (finite : ofFloat x = .finite negative m q) (pos : 0 < m) : IsKept m q := by
  obtain ⟨exponent, fraction, outer, inner, word⟩ := word_of_ofFloat finite
  rw [ofFloat, ofBits_eq outer inner word] at finite
  split at finite <;> simp only [Binary.finite.injEq] at finite <;> constructor <;> omega

theorem toModel_eq (finite : ofFloat x = .finite negative m q) (pos : 0 < m) :
    x = .ofModel (.pack (.finite (signOf negative) m q pos)) := by
  have kept := isKept_of_ofFloat finite pos
  refine eq_of_ofFloat ?_ ?_
  · rw [finite, ofFloat_pack _ kept]
  · rw [finite]
    exact nofun

theorem zero_of_ofFloat (finite : ofFloat x = .finite negative 0 q) :
    x = if negative then -0.0 else 0.0 := by
  have zero : ofFloat 0.0 = .finite false 0 (-1074) := by decide +kernel
  have minus : ofFloat (-0.0) = .finite true 0 (-1074) := by decide +kernel
  refine eq_of_ofFloat ?_ ?_
  · obtain ⟨exponent, fraction, outer, inner, word⟩ := word_of_ofFloat finite
    have read := ofBits_eq outer inner word
    rw [ofFloat, read] at finite ⊢
    by_cases flat : exponent = 0
    · rw [if_pos flat] at finite ⊢
      obtain ⟨_, rfl, _⟩ := Binary.finite.inj finite
      cases negative
      · exact zero.symm
      · exact minus.symm
    · rw [if_neg flat] at finite
      obtain ⟨_, whole, _⟩ := Binary.finite.inj finite
      omega
  · rw [finite]
    exact nofun

theorem ofBitVec_unpackSign (exponent : BitVec 11) (fraction : BitVec 52) :
    Sign.ofBitVec (unpackSign (packComponents .binary64 (signOf negative) exponent fraction)) =
      signOf negative := by
  have outer := exponent.isLt
  have inner := fraction.isLt
  have bit : (unpackSign (packComponents .binary64 (signOf negative) exponent fraction)).toNat =
      if negative then 1 else 0 := by
    have word := toNat_packComponents negative exponent fraction
    simp only [unpackSign, BitVec.toNat_cast, BitVec.extractLsb_toNat, word, Nat.shiftRight_eq_div_pow]
    cases negative <;> simp <;> omega
  cases negative with
  | false => rw [BitVec.eq_of_toNat_eq (y := 0#1) bit]; rfl
  | true => rw [BitVec.eq_of_toNat_eq (y := 1#1) bit]; rfl

theorem toNat_ofNat_exponent (kept : IsKept m q) :
    (BitVec.ofNat 11 (q + 1075).toNat).toNat = (q + 1075).toNat := by
  have largest := kept.le_largest
  rw [BitVec.toNat_ofNat, Nat.mod_eq_of_lt (by omega)]

/-- With the leading bit in front again, the fraction is whole. -/
theorem toNat_append_ofNat (kept : IsKept m q) (full : 2 ^ 52 ≤ m) :
    (1#1 ++ BitVec.ofNat 52 m).toNat = m := by
  have small := kept.lt
  have inner : (BitVec.ofNat 52 m).toNat = m % 2 ^ 52 := BitVec.toNat_ofNat ..
  have one : (1#1).toNat = 1 := rfl
  rw [BitVec.toNat_append, ← Nat.shiftLeft_add_eq_or_of_lt (BitVec.ofNat 52 m).isLt, inner, one,
    Nat.shiftLeft_eq]
  omega

theorem ofNat_exponent_ne (kept : IsKept m q) (other : BitVec 11)
    (apart : (q + 1075).toNat ≠ other.toNat) : BitVec.ofNat 11 (q + 1075).toNat ≠ other := fun same =>
  apart ((toNat_ofNat_exponent kept).symm.trans (congrArg BitVec.toNat same))

/-- A quantity comes out of its word as it was put in. -/
theorem unpack_pack (negative : Bool) (kept : IsKept m q) :
    (Float.Model.pack (.finite (signOf negative) m q kept.pos)).unpack =
      .finite (signOf negative) m q kept.pos := by
  have least := kept.least_le
  have largest := kept.le_largest
  have bias : (Format.binary64.exponentBias : Int) = 1023 := rfl
  have width : (Format.binary64.mantissaBitsWithoutImplicit : Int) = 52 := rfl
  have ones : (-1#11).toNat = 2047 := rfl
  have zeros : (0#11).toNat = 0 := rfl
  show UnpackedFloat.unpack .binary64
    (UnpackedFloat.pack .binary64 (.finite (signOf negative) m q kept.pos)) = _
  by_cases full : 2 ^ 52 ≤ m
  · have notLargest := ofNat_exponent_ne kept (-1#11) (by omega)
    have notLeast := ofNat_exponent_ne kept 0#11 (by omega)
    have back : ((q + 1075).toNat : Int) - (1023 + 52) = q := by omega
    rw [pack_full negative kept full, UnpackedFloat.unpack]
    simp only [unpackMantissa_packComponents, unpackExponent_packComponents, ofBitVec_unpackSign,
      toNat_ofNat_exponent kept, toNat_append_ofNat kept full, bias, width]
    rw [if_neg notLargest, if_neg notLeast]
    simp only [back]
  · have short := Nat.lt_of_not_le full
    have fraction : (BitVec.ofNat 52 m).toNat = m := by
      rw [BitVec.toNat_ofNat, Nat.mod_eq_of_lt short]
    have some : BitVec.ofNat 52 m ≠ 0#52 := fun same =>
      kept.pos.ne' (fraction.symm.trans (congrArg BitVec.toNat same))
    have notLargest : 0#11 ≠ -1#11 := by decide
    have flat := mt kept.full full
    have back : ((0#11).toNat : Int) - (1023 + 52) + 1 = q := by omega
    rw [pack_short negative kept short, UnpackedFloat.unpack]
    simp only [unpackMantissa_packComponents, unpackExponent_packComponents, ofBitVec_unpackSign,
      fraction, bias, width]
    rw [if_neg notLargest, if_pos trivial, dif_neg some]
    simp only [back]

/-- The opposite number differs in its sign alone. -/
theorem ofFloat_neg (finite : ofFloat x = .finite false m q) (pos : 0 < m) :
    ofFloat (-x) = .finite true m q := by
  have kept := isKept_of_ofFloat finite pos
  show ofFloat (.ofModel (.pack x.toModel.unpack.neg)) = _
  rw [toModel_eq finite pos]
  dsimp only
  rw [unpack_pack false kept]
  exact ofFloat_pack true kept

end JoinOrder.Binary
