import JoinOrder.Proofs.Numerals
/-!
The text of a float. It is laid out with a point, an exponent or both; in each layout the digits that
are read make up the decimal that was written, and so the float.
-/

namespace JoinOrder.Json

open Binary Decimal

/-! ### Floats -/

section Floats

variable {n length m : Nat} {e q : Int} {x : Float}

theorem lt_ten_zpow {length : Nat} (short : n < 10 ^ length) : (n : ℚ) < 10 ^ (length : Int) := by
  rw [zpow_natCast]
  exact_mod_cast short

theorem large_enough : (2 : ℚ) ^ (1024 : Int) < 10 ^ (400 : Int) := by
  have bound : 2 ^ 1024 < 10 ^ 400 := by decide +kernel
  exact_mod_cast bound

theorem small_enough : (10 : ℚ) ^ (-400 : Int) < 1 / 2 * 2 ^ (-1074 : Int) := by
  have bound : 2 ^ 1075 < 10 ^ 400 := by decide +kernel
  have half : (1 / 2 : ℚ) * 2 ^ (-1074 : Int) = 2 ^ (-(1075 : Nat) : Int) := by
    rw [show (-(1075 : Nat) : Int) = -1 + -1074 by rfl, two_zpow_add, zpow_neg_one, one_div]
  rw [half, show (-400 : Int) = -(400 : Nat) from rfl, zpow_neg, zpow_neg, zpow_natCast, zpow_natCast]
  exact inv_strictAnti₀ (by positivity) (by exact_mod_cast bound)

/-- What is too large or too small to be worked out is not rounded to any float. -/
theorem ofFloat_scaled (kept : IsKept m q) (pos : 0 < n) (short : n < 10 ^ length)
    (near : Nearest (n * 10 ^ e) m q) : ofFloat (scaled n length e) = .finite false m q := by
  have one : (1 : ℚ) ≤ n := by exact_mod_cast pos
  have power : (0 : ℚ) < 10 ^ e := zpow_pos (by norm_num) e
  have notSmall : ¬ length + e < -400 := fun small => by
    have below : (1 / 2 : ℚ) * 2 ^ (-1074 : Int) ≤ n * 10 ^ e := by
      refine le_trans ?_ near.below
      have half : (1 / 2 : ℚ) ≤ lowEnd m q := by
        have := IsKept.lowEnd_ge m q
        have : (1 : ℚ) ≤ m := by exact_mod_cast kept.pos
        linarith
      gcongr
      · norm_num
      · exact kept.least_le
    have above : (n : ℚ) * 10 ^ e < 10 ^ (-400 : Int) := by
      calc (n : ℚ) * 10 ^ e < 10 ^ (length : Int) * 10 ^ e :=
            mul_lt_mul_of_pos_right (lt_ten_zpow short) power
        _ = 10 ^ (length + e) := (zpow_add₀ (by norm_num) _ _).symm
        _ ≤ 10 ^ (-400 : Int) := zpow_le_zpow_right₀ (by norm_num) small.le
    exact absurd (below.trans_lt above) (not_lt.mpr small_enough.le)
  have notLarge : e < 400 := by
    have above := kept.lt_of_nearest near
    have end' : (2 : ℚ) ^ (53 + q) ≤ 2 ^ (1024 : Int) :=
      two_zpow_le (by have := kept.le_largest; omega)
    refine (zpow_lt_zpow_iff_right₀ (by norm_num : (1 : ℚ) < 10)).mp ?_
    calc (10 : ℚ) ^ e ≤ n * 10 ^ e := le_mul_of_one_le_left power.le one
      _ < 10 ^ (400 : Int) := (above.trans_le end').trans large_enough
  unfold scaled
  rw [if_neg (by simp [pos.ne', notSmall])]
  split
  · refine ofScientific_eq kept pos ?_
    rwa [if_pos rfl, show -(e.natAbs : Int) = e by omega]
  · refine ofScientific_eq kept pos ?_
    rwa [if_neg (by decide), show ((min e.natAbs 400 : Nat) : Int) = e by omega]

/-- A numeral that begins with a digit and is read as so many digits with an exponent. -/
def ReadsAs (cs : List Char) (n length : Nat) (e : Int) : Prop :=
  (∃ c tail, cs = c :: tail ∧ isDigit c = true) ∧
    ∀ limit negative rest, Stops rest →
      unsigned limit negative (cs ++ rest) = .ok (.real (signed negative (scaled n length e)), rest)

theorem readsAs (whole places tail : List Char) (power : Option Int) (areDigits : AreDigits whole)
    (head : whole = ['0'] ∨ whole.head? ≠ some '0') (nonempty : whole ≠ [])
    (stop : ∀ rest, Stops rest → ∀ c ∈ (tail ++ rest).head?, isDigit c = false)
    (parts : ∀ rest, Stops rest →
      ∃ beyond, fraction (tail ++ rest) = (places, beyond) ∧ exponent beyond = (power, rest))
    (real : places ≠ [] ∨ power ≠ none) :
    ReadsAs (whole ++ tail) (digitsValue (whole ++ places)) (whole ++ places).length
      (power.getD 0 - places.length) := by
  refine ⟨?_, fun limit negative rest stops => ?_⟩
  · cases whole with
    | nil => exact absurd rfl nonempty
    | cons c whole => exact ⟨c, whole ++ tail, rfl, areDigits c List.mem_cons_self⟩
  · obtain ⟨beyond, point, mark⟩ := parts rest stops
    rw [List.append_assoc]
    exact unsigned_real areDigits head nonempty (stop rest stops) point mark real

/-- A numeral with a point and no exponent. -/
theorem readsAs_point (whole places : List Char) (areDigits : AreDigits whole)
    (head : whole = ['0'] ∨ whole.head? ≠ some '0') (nonempty : whole ≠ [])
    (places_ne : places ≠ []) (behind : AreDigits places) :
    ReadsAs (whole ++ '.' :: places) (digitsValue (whole ++ places)) (whole ++ places).length
      (-places.length) := by
  have read := readsAs whole places ('.' :: places) none areDigits head nonempty
    (fun _ _ => by simp [isDigit]) (fun rest stops => ⟨rest,
      fraction_point places_ne behind stops.isDigit, exponent_of_stop stops.mark⟩) (.inl places_ne)
  rwa [Option.getD_none, zero_sub] at read

end Floats

theorem digitsValue_cons (c : Char) (cs : List Char) :
    digitsValue (c :: cs) = 10 ^ cs.length * (c.toNat - 48) + digitsValue cs := by
  rw [digitsValue_eq, digitsValue_eq, Nat.ofDigitChars_cons, Nat.ofDigitChars_eq_ofDigitChars_zero,
    Nat.mul_zero, Nat.zero_add]
  rfl

theorem digitsValue_lt {cs : List Char} (areDigits : AreDigits cs) :
    digitsValue cs < 10 ^ cs.length := by
  induction cs with
  | nil => decide
  | cons c cs ih =>
    have rest := ih fun d member => areDigits d (List.mem_cons_of_mem c member)
    have digit : c.toNat - 48 ≤ 9 := by
      have here := areDigits c List.mem_cons_self
      simp only [isDigit, Bool.and_eq_true, decide_eq_true_eq] at here
      have : c.toNat ≤ 57 := here.2
      omega
    rw [digitsValue_cons, List.length_cons, Nat.pow_succ]
    have := Nat.mul_le_mul_left (10 ^ cs.length) digit
    omega

theorem toList_toString (n : Nat) : (toString n).toList = Nat.toDigits 10 n := Nat.toList_repr

theorem toList_pushn (s : String) (c : Char) (n : Nat) :
    (s.pushn c n).toList = s.toList ++ List.replicate n c := by
  rw [String.pushn_eq_repeat_push]
  induction n with
  | zero => simp [Nat.repeat]
  | succ n ih => rw [Nat.repeat, String.toList_push, ih, List.replicate_succ', List.append_assoc]

theorem toList_zeros (n : Nat) : ("".pushn '0' n).toList = List.replicate n '0' := toList_pushn ..

/-- The digits of an exponent, at least two of them. -/
def exponentDigits (e : Int) : List Char :=
  List.replicate (2 - (toString e.natAbs).length) '0' ++ Nat.toDigits 10 e.natAbs

theorem toList_exponent (e : Int) :
    (Decimal.plain.exponent e).toList = 'e' :: (if decide (e < 0) then '-' else '+') :: exponentDigits e := by
  unfold Layout.exponent padLeft exponentDigits
  rw [String.toList_append, String.toList_append, String.toList_append, toList_zeros, toList_toString]
  by_cases negative : e < 0 <;> simp [negative, Decimal.plain]

theorem areDigits_exponentDigits (e : Int) : AreDigits (exponentDigits e) :=
  (areDigits_replicate _).append (areDigits_toDigits _)

theorem digitsValue_exponentDigits (e : Int) : digitsValue (exponentDigits e) = e.natAbs := by
  rw [exponentDigits, digitsValue_zeros_append, digitsValue_toDigits]

theorem exponentDigits_ne_nil (e : Int) : exponentDigits e ≠ [] :=
  List.append_ne_nil_of_right_ne_nil _ Nat.toDigits_ne_nil

section Renderings

variable {d : Decimal}

/-- One digit, the others behind a point if there are any, and the exponent of the first. -/
theorem readsAs_scientific {c : Char} {tail : List Char} (digit : isDigit c = true)
    (areDigits : AreDigits tail) (e : Int) :
    ReadsAs (c :: ((if tail = [] then [] else '.' :: tail) ++ (Decimal.plain.exponent e).toList))
      (digitsValue (c :: tail)) (c :: tail).length (e - tail.length) := by
  have power : (if decide (e < 0) then -(digitsValue (exponentDigits e) : Int)
      else digitsValue (exponentDigits e)) = e := by
    rw [digitsValue_exponentDigits]
    split
    · next negative =>
      have := of_decide_eq_true negative
      omega
    · next negative =>
      have : ¬ e < 0 := fun less => negative (decide_eq_true less)
      omega
  have front : [c] = ['0'] ∨ [c].head? ≠ some '0' := by
    by_cases zero : c = '0' <;> simp [zero]
  rw [toList_exponent]
  have mark (rest : List Char) (stops : Stops rest) := exponent_mark
    (decide (e < 0)) (exponentDigits_ne_nil e) (areDigits_exponentDigits e) stops.isDigit
  have read := readsAs [c] tail ((if tail = [] then [] else '.' :: tail) ++
      'e' :: (if decide (e < 0) then '-' else '+') :: exponentDigits e) (some e)
    (fun _ member => List.mem_singleton.mp member ▸ digit) front (List.cons_ne_nil c [])
    (fun rest _ => by split <;> simp [isDigit]) (fun rest stops => ⟨
      'e' :: (if decide (e < 0) then '-' else '+') :: (exponentDigits e ++ rest), ?_, ?_⟩)
    (.inr (Option.some_ne_none e))
  · exact read
  · split
    · next none =>
      rw [none]
      exact fraction_of_stop (by simp)
    · next some =>
      rw [List.cons_append, List.cons_append, List.append_assoc]
      exact fraction_point some areDigits (by simp [isDigit])
  · rw [mark rest stops, power]

/-- A text from whose digits a decimal is read. -/
def Renders (text : List Char) (d : Decimal) : Prop :=
  ∃ cs e, AreDigits cs ∧ (digitsValue cs : ℚ) * 10 ^ e = d.amount ∧
    ReadsAs text (digitsValue cs) cs.length e

theorem renders_point {text : List Char} (whole places : List Char) (written : text = whole ++ '.' :: places)
    (front : AreDigits whole) (head : whole = ['0'] ∨ whole.head? ≠ some '0') (nonempty : whole ≠ [])
    (behind : AreDigits places) (places_ne : places ≠ [])
    (value : (digitsValue (whole ++ places) : ℚ) * 10 ^ (-places.length : Int) = d.amount) :
    Renders text d :=
  ⟨whole ++ places, -places.length, front.append behind, value,
    written ▸ readsAs_point _ _ front head nonempty places_ne behind⟩

/-- Whatever layout is used, the decimal is read again. -/
theorem renders_render (pos : 0 < d.digits) : Renders (Decimal.plain.render d).toList d := by
  obtain ⟨c, tail, written, nonzero⟩ := head_toDigits pos
  have areDigits := areDigits_toDigits d.digits
  have length : (toString d.digits).length = tail.length + 1 := by
    rw [← String.length_toList, toList_toString, written, List.length_cons]
  have value : digitsValue (c :: tail) = d.digits := by rw [← written, digitsValue_toDigits]
  rw [written] at areDigits
  unfold Layout.render
  dsimp only
  rw [length]
  obtain ⟨e, place⟩ : ∃ e, e = d.exponent + ((tail.length + 1 : Nat) - 1 : Int) := ⟨_, rfl⟩
  rw [← place]
  push_cast at place
  have ten : (10 : ℚ) ≠ 0 := by norm_num
  -- With an exponent, with zeros in front, with zeros behind, or with a point among the digits.
  split
  · refine ⟨c :: tail, e - tail.length, areDigits, ?_, ?_⟩
    · rw [value, amount]
      congr 2
      omega
    · have read := readsAs_scientific (areDigits c List.mem_cons_self)
        (fun d member => areDigits d (List.mem_cons_of_mem c member)) e
      convert read using 1
      rw [String.toList_append, String.toList_append, toList_toString, written]
      by_cases none : tail = []
      · simp [none]
      · have : String.ofList tail ≠ "" := by simpa using none
        simp [none]
  split
  · next small =>
    refine renders_point ['0'] (List.replicate (e.natAbs - 1) '0' ++ c :: tail)
      ?_ (areDigits_replicate 1) (.inl rfl) (List.cons_ne_nil _ _)
      ((areDigits_replicate _).append areDigits) (by simp) ?_
    · rw [String.toList_append, String.toList_append, toList_zeros, toList_toString, written]
      rfl
    · rw [← List.append_assoc, ← List.replicate_one, List.replicate_append_replicate,
        digitsValue_zeros_append, value, amount]
      congr 2
      simp only [List.length_append, List.length_replicate, List.length_cons]
      omega
  split
  · next whole =>
    refine renders_point (c :: tail ++ List.replicate d.exponent.toNat '0') ['0']
      ?_ (areDigits.append (areDigits_replicate _)) (.inr ?_) (by simp) (areDigits_replicate 1)
      (List.cons_ne_nil _ _) ?_
    · rw [String.toList_append, String.toList_append, toList_zeros, toList_toString, written]
      rfl
    · simpa using nonzero
    · rw [List.append_assoc, ← List.replicate_one, List.replicate_append_replicate,
        digitsValue_append_zeros, value, amount]
      push_cast
      rw [← zpow_natCast, mul_comm _ (d.digits : ℚ), mul_assoc, ← zpow_add₀ ten]
      congr 2
      show ((d.exponent.toNat + 1 : Nat) : Int) + -(1 : Nat) = d.exponent
      omega
  · next large small whole =>
    have parts := List.take_append_drop (e + 1).toNat (c :: tail)
    refine renders_point ((c :: tail).take (e + 1).toNat) ((c :: tail).drop (e + 1).toNat)
      ?_ ?_ (.inr ?_) ?_ ?_ ?_ ?_
    · rw [String.toList_append, String.toList_append, toList_toString, written, String.toList_ofList,
        String.toList_ofList, String.toList_ofList, List.append_assoc]
      rfl
    · exact fun d member => areDigits d (List.mem_of_mem_take member)
    · rw [show (e + 1).toNat = e.toNat + 1 by omega]
      simpa using nonzero
    · rw [show (e + 1).toNat = e.toNat + 1 by omega]
      exact List.cons_ne_nil _ _
    · exact fun d member => areDigits d (List.mem_of_mem_drop member)
    · refine List.ne_nil_of_length_pos ?_
      rw [List.length_drop, List.length_cons]
      omega
    · rw [parts, value, amount]
      congr 2
      rw [List.length_drop, List.length_cons]
      omega

/-- What is written for a finite float is read as that float. -/
theorem unsigned_render {x : Float} {m : Nat} {q : Int} (finite : ofFloat x = .finite false m q)
    (pos : 0 < m) :
    (∃ c tail, (Decimal.plain.render (shortest m q)).toList = c :: tail ∧ isDigit c = true) ∧
      ∀ limit negative rest, Stops rest →
        unsigned limit negative ((Decimal.plain.render (shortest m q)).toList ++ rest) =
          .ok (.real (signed negative x), rest) := by
  have kept := isKept_of_ofFloat finite pos
  obtain ⟨cs, e, areDigits, value, front, read⟩ := renders_render (digits_shortest_pos kept)
  have near := nearest_shortest (q := q) pos
  rw [← value] at near
  -- Nothing would be nearest to zero, so there are digits to be read.
  have some : 0 < digitsValue cs := by
    have := kept.pos_of_nearest near
    refine Nat.pos_of_ne_zero fun none => ?_
    rw [none, Nat.cast_zero, zero_mul] at this
    exact lt_irrefl _ this
  have same := ofFloat_scaled kept some (digitsValue_lt areDigits) near
  have equal : scaled (digitsValue cs) cs.length e = x :=
    eq_of_ofFloat (same.trans finite.symm) (same ▸ Binary.noConfusion)
  exact ⟨front, fun limit negative rest stops => by rw [read limit negative rest stops, equal]⟩

end Renderings

end JoinOrder.Json
