import JoinOrder.Proofs.DecimalText
import JoinOrder.Proofs.WrittenTexts
/-!
Scalars in JSON. What is written for a number, a text or a word is read as the same scalar, whatever
comes behind it.
-/

namespace JoinOrder

/-- Whether JSON can carry a scalar: all but what is no number at all, and texts with joints. -/
def Scalar.isCarried : Scalar → Bool
  | .real x => Binary.ofFloat x != .undefined
  | .text s => Text.isCarried s
  | _ => true

namespace Value

theorem isWritable_int (n : Int) : (int n).isWritable = true ↔ n.natAbs < digitEnd := by
  simp only [isWritable, int?, Scalar.int?, Option.all_some, decide_eq_true_eq]

theorem ten_le_digitEnd : 10 ≤ digitEnd := by
  have some : digitLimit ≠ 0 := by decide
  unfold digitEnd
  -- The limit is left out of sight, or its power would be worked out.
  generalize digitLimit = k at some ⊢
  exact Nat.le_self_pow some 10

end Value

namespace Json

open Text Binary

section Scalars

variable {machine : Machine} {c : Char} {cs rest : List Char} {limit fuel : Nat} {limits : Limits}
  {text : String} {v : Value} {s : Scalar}

/-- A text in whose first place nothing else can stand than the beginning of a value. -/
def Begins (cs : List Char) : Prop := ∃ c tail, cs = c :: tail ∧ isSpace c = false ∧ c ≠ ']'

theorem plain_digit (digit : isDigit c = true) :
    Json.plain limit (c :: cs) = unsigned limit false (c :: cs) := by
  unfold Json.plain
  split <;> simp_all [isDigit]

theorem plain_minus (digit : isDigit c = true) :
    Json.plain limit ('-' :: c :: cs) = unsigned limit true (c :: cs) := by
  unfold Json.plain
  split <;> simp_all [isDigit]

theorem value_digit (digit : isDigit c = true) :
    value limits (fuel + 1) (c :: cs) = unsigned limits.digits false (c :: cs) := by
  rw [← plain_digit digit, value.eq_def]
  split <;> simp_all [isDigit]

theorem value_minus (digit : isDigit c = true) :
    value limits (fuel + 1) ('-' :: c :: cs) = unsigned limits.digits true (c :: cs) := by
  rw [← plain_minus digit]
  rfl

theorem begins_digit (digit : isDigit c = true) : Begins (c :: cs) := by
  refine ⟨c, cs, rfl, ?_, fun same => ?_⟩
  · by_contra space
    simp only [isSpace, Bool.not_eq_false, Bool.or_eq_true, decide_eq_true_eq] at space
    rcases space with ((rfl | rfl) | rfl) | rfl <;> cases digit
  · rw [same] at digit
    cases digit

/-- A numeral with or without a sign is read as what is behind the sign. -/
theorem value_signed {negative : Bool} {numeral : List Char} {w : Bool → Value}
    (first : ∃ c tail, numeral = c :: tail ∧ isDigit c = true)
    (read : unsigned limits.digits negative (numeral ++ rest) = .ok (w negative, rest))
    (enough : ((if negative then ['-'] else []) ++ numeral).length ≤ fuel) :
    value limits fuel ((if negative then ['-'] else []) ++ numeral ++ rest) = .ok (w negative, rest) ∧
      Begins ((if negative then ['-'] else []) ++ numeral) := by
  obtain ⟨c, tail, rfl, digit⟩ := first
  rw [List.length_append, List.length_cons] at enough
  obtain ⟨fuel, rfl⟩ := Nat.exists_eq_add_one.mpr (show 0 < fuel by omega)
  cases negative with
  | false => exact ⟨(value_digit digit).trans read, begins_digit digit⟩
  | true => exact ⟨(value_minus digit).trans read, '-', _, rfl, rfl, by decide⟩

theorem length_toDigits_of_isWritable {n : Int} (writable : (Value.int n).isWritable = true) :
    (Nat.toDigits 10 n.natAbs).length ≤ Value.digitLimit := by
  have small := (Value.isWritable_int n).mp writable
  have some : 0 < Value.digitLimit := by decide
  unfold Value.digitEnd at small
  generalize Value.digitLimit = k at *
  exact (Nat.length_toDigits_le_iff (by decide) some).mpr small

theorem value_int {n : Int} (wrote : (Value.int n).written = .ok text)
    (wide : Value.digitLimit ≤ limits.digits) (enough : text.toList.length ≤ fuel)
    (stops : Stops rest) :
    value limits fuel (text.toList ++ rest) = .ok (.int n, rest) ∧ Begins text.toList := by
  unfold Value.written at wrote
  split at wrote
  case isFalse => cases wrote
  case isTrue writable =>
    obtain rfl := Except.ok.inj wrote
    have shown : ((Value.int n).shown).toList =
        (if decide (n < 0) then ['-'] else []) ++ Nat.toDigits 10 n.natAbs := by
      show (toString n).toList = _
      cases n with
      | ofNat m => exact toList_toString m
      | negSucc m =>
        show ("-" ++ toString (m + 1)).toList = _
        rw [String.toList_append, toList_toString,
          if_pos (decide_eq_true (Int.negSucc_lt_zero m))]
        rfl
    have short : (Nat.toDigits 10 n.natAbs).length ≤ limits.digits :=
      (length_toDigits_of_isWritable writable).trans wide
    have front : Nat.toDigits 10 n.natAbs = ['0'] ∨ (Nat.toDigits 10 n.natAbs).head? ≠ some '0' := by
      rcases Nat.eq_zero_or_pos n.natAbs with zero | pos
      · exact .inl (by rw [zero]; rfl)
      · obtain ⟨c, tail, written, nonzero⟩ := head_toDigits pos
        exact .inr (by rw [written]; simpa using nonzero)
    have read := unsigned_integer limits.digits (decide (n < 0))
      (areDigits_toDigits n.natAbs) front Nat.toDigits_ne_nil stops short
    have same : (if decide (n < 0) then -(digitsValue (Nat.toDigits 10 n.natAbs) : Int)
        else digitsValue (Nat.toDigits 10 n.natAbs)) = n := by
      rw [digitsValue_toDigits]
      by_cases negative : n < 0
      · rw [if_pos (decide_eq_true negative)]
        omega
      · rw [if_neg (by simpa using negative)]
        omega
    rw [same] at read
    rw [shown] at enough ⊢
    obtain ⟨c, tail, written⟩ := List.exists_cons_of_ne_nil (Nat.toDigits_ne_nil (n := n.natAbs) (b := 10))
    have digit := areDigits_toDigits n.natAbs c (by rw [written]; exact List.mem_cons_self)
    exact value_signed (w := fun _ => .int n) ⟨c, tail, written, digit⟩ read enough

theorem unsigned_zero (limit : Nat) (negative : Bool) (stops : Stops rest) :
    unsigned limit negative (['0', '.', '0'] ++ rest) = .ok (.real (signed negative 0.0), rest) := by
  obtain ⟨-, read⟩ := readsAs_point ['0'] ['0'] (areDigits_replicate 1) (.inl rfl)
    (List.cons_ne_nil _ _) (List.cons_ne_nil _ _) (areDigits_replicate 1)
  have zero : scaled (digitsValue (['0'] ++ ['0'])) (['0'] ++ ['0']).length (-(['0'].length : Nat)) = 0.0 :=
    if_pos rfl
  rw [zero] at read
  exact read limit negative rest stops

/-- The float of a size that a numeral is written for, whatever its sign. -/
theorem exists_magnitude {x : Float} {negative : Bool} {m : Nat} {q : Int}
    (finite : ofFloat x = .finite negative m q) (pos : 0 < m) :
    ∃ y, ofFloat y = .finite false m q ∧ signed negative y = x := by
  cases negative with
  | false => exact ⟨x, finite, rfl⟩
  | true =>
    have size := ofFloat_pack false (isKept_of_ofFloat finite pos)
    have same := ofFloat_neg size pos
    exact ⟨_, size, eq_of_ofFloat (same.trans finite.symm) (same ▸ Binary.noConfusion)⟩

theorem ofFloat_infinity (negative : Bool) : ofFloat (signed negative infinity) = .infinite negative := by
  cases negative <;> decide +kernel

theorem value_real {x : Float} (number : ofFloat x ≠ .undefined)
    (wrote : writeReal false x = .ok text) (enough : text.toList.length ≤ fuel) (stops : Stops rest) :
    value limits fuel (text.toList ++ rest) = .ok (.real x, rest) ∧ Begins text.toList := by
  unfold writeReal at wrote
  cases form : ofFloat x with
  | undefined => exact absurd form number
  | infinite negative =>
    rw [form] at wrote
    obtain rfl := Except.ok.inj wrote
    have same : signed negative infinity = x :=
      eq_of_ofFloat ((ofFloat_infinity negative).trans form.symm)
        (ofFloat_infinity negative ▸ Binary.noConfusion)
    have some : 0 < fuel := Nat.lt_of_lt_of_le (by cases negative <;> decide) enough
    obtain ⟨fuel, rfl⟩ := Nat.exists_eq_add_one.mpr some
    rw [← same]
    cases negative with
    | false => exact ⟨rfl, 'I', _, rfl, rfl, by decide⟩
    | true => exact ⟨rfl, '-', _, rfl, rfl, by decide⟩
  | finite negative m q =>
    rw [form] at wrote
    obtain rfl := Except.ok.inj wrote
    have shown : (Decimal.render (.finite negative m q)).toList =
        (if negative then ['-'] else []) ++
          (if m = 0 then "0.0" else Decimal.plain.render (Decimal.shortest m q)).toList := by
      rw [Decimal.render, String.toList_append]
      cases negative <;> rfl
    rw [shown] at enough ⊢
    by_cases none : m = 0
    · rw [if_pos none] at enough ⊢
      subst none
      have read := unsigned_zero limits.digits negative stops
      rw [show signed negative 0.0 = x from (zero_of_ofFloat form).symm] at read
      exact value_signed (w := fun _ => .real x) ⟨'0', _, rfl, rfl⟩ read enough
    · rw [if_neg none] at enough ⊢
      obtain ⟨y, size, same⟩ := exists_magnitude form (Nat.pos_of_ne_zero none)
      obtain ⟨first, read⟩ := unsigned_render size (Nat.pos_of_ne_zero none)
      have read := read limits.digits negative rest stops
      rw [same] at read
      exact value_signed (w := fun _ => .real x) first read enough

theorem value_text {t : String} (carried : isCarried t = true)
    (enough : (writeText true t).toList.length ≤ fuel) :
    value limits fuel ((writeText true t).toList ++ rest) = .ok (.text t, rest) ∧
      Begins (writeText true t).toList := by
  rw [toList_writeText] at enough ⊢
  refine ⟨?_, '"', _, rfl, rfl, by decide⟩
  rw [List.length_cons, List.length_append] at enough
  obtain ⟨fuel, rfl⟩ := Nat.exists_eq_add_one.mpr (show 0 < fuel by omega)
  rw [List.cons_append, List.append_assoc, List.singleton_append]
  show (wellFormed (string? (fuel + 1) [] _) >>= _) = _
  rw [string?_writeText carried (by omega)]
  rfl

theorem value_scalar (carried : s.isCarried = true)
    (wrote : (Layout.plain machine).writeScalar s = .ok text)
    (wide : Value.digitLimit ≤ limits.digits) (enough : text.toList.length ≤ fuel)
    (stops : Stops rest) :
    value limits fuel (text.toList ++ rest) = .ok (.scalar s, rest) ∧ Begins text.toList := by
  cases s with
  | null =>
    obtain rfl := Except.ok.inj wrote
    obtain ⟨fuel, rfl⟩ := Nat.exists_eq_add_one.mpr (Nat.lt_of_lt_of_le (by decide) enough)
    exact ⟨rfl, 'n', _, rfl, rfl, by decide⟩
  | bool b =>
    obtain rfl := Except.ok.inj wrote
    have some : 0 < fuel := Nat.lt_of_lt_of_le (by cases b <;> decide) enough
    obtain ⟨fuel, rfl⟩ := Nat.exists_eq_add_one.mpr some
    cases b with
    | false => exact ⟨rfl, 'f', _, rfl, rfl, by decide⟩
    | true => exact ⟨rfl, 't', _, rfl, rfl, by decide⟩
  | int n => exact value_int wrote wide enough stops
  | real x => exact value_real (by simpa [Scalar.isCarried] using carried) wrote enough stops
  | text t =>
    obtain rfl := Except.ok.inj wrote
    exact value_text carried enough

end Scalars

end Json

end JoinOrder
