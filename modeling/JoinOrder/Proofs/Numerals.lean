import JoinOrder.Json.Reader
import JoinOrder.Proofs.ShortestDecimals
/-!
Numerals in JSON text. What is written for an integer or a float is read as that number again,
whatever comes behind it, as long as that does not go on with the numeral.
-/

namespace JoinOrder.Json

/-- What may come behind a value: nothing, the mark between two values, or a bracket that closes. -/
def Stops (rest : List Char) : Prop := ∀ c ∈ rest.head?, c = ',' ∨ c = ']' ∨ c = '\x7d'

theorem stops_nil : Stops [] := by simp [Stops]

theorem stops_cons {c : Char} {rest : List Char} (stop : c = ',' ∨ c = ']' ∨ c = '\x7d') :
    Stops (c :: rest) := by simpa [Stops] using stop

theorem Stops.isDigit {rest : List Char} (stop : Stops rest) :
    ∀ c ∈ rest.head?, Json.isDigit c = false := fun c first => by
  rcases stop c first with rfl | rfl | rfl <;> rfl

theorem Stops.point {rest : List Char} (stop : Stops rest) : ∀ c ∈ rest.head?, c ≠ '.' :=
  fun c first => by rcases stop c first with rfl | rfl | rfl <;> decide

theorem Stops.mark {rest : List Char} (stop : Stops rest) :
    ∀ c ∈ rest.head?, c ≠ 'e' ∧ c ≠ 'E' := fun c first => by
  rcases stop c first with rfl | rfl | rfl <;> decide

/-! ### Digits -/

def AreDigits (cs : List Char) : Prop := ∀ c ∈ cs, isDigit c = true

section Digits

variable {cs ds rest : List Char} {n : Nat}

theorem isDigit_eq (c : Char) : isDigit c = c.isDigit := by
  rw [Bool.eq_iff_iff]
  simp only [isDigit, Char.isDigit, Bool.and_eq_true, decide_eq_true_eq]
  exact Iff.rfl

theorem areDigits_toDigits (n : Nat) : AreDigits (Nat.toDigits 10 n) := fun c member => by
  rw [isDigit_eq]
  exact Nat.isDigit_of_mem_toDigits (by decide) (by decide) member

theorem areDigits_replicate (k : Nat) : AreDigits (List.replicate k '0') := fun c member => by
  rw [List.eq_of_mem_replicate member]
  rfl

theorem AreDigits.append (left : AreDigits cs) (right : AreDigits ds) : AreDigits (cs ++ ds) :=
  fun c member => (List.mem_append.mp member).elim (left c) (right c)

theorem digitsValue_eq (cs : List Char) : digitsValue cs = Nat.ofDigitChars 10 cs 0 :=
  Nat.ofDigitChars_eq_foldl.symm

@[simp] theorem digitsValue_toDigits (n : Nat) : digitsValue (Nat.toDigits 10 n) = n := by
  rw [digitsValue_eq, Nat.ofDigitChars_ten_toDigits]

theorem digitsValue_zeros_append (k : Nat) (cs : List Char) :
    digitsValue (List.replicate k '0' ++ cs) = digitsValue cs := by
  rw [digitsValue_eq, digitsValue_eq, Nat.ofDigitChars_append, Nat.ofDigitChars_replicate_zero,
    Nat.mul_zero]

theorem digitsValue_append_zeros (cs : List Char) (k : Nat) :
    digitsValue (cs ++ List.replicate k '0') = 10 ^ k * digitsValue cs := by
  rw [digitsValue_eq, digitsValue_eq, Nat.ofDigitChars_append, Nat.ofDigitChars_replicate_zero]

/-- Only zero is written with a zero in front. -/
theorem head_toDigits (pos : 0 < n) : ∃ c tail, Nat.toDigits 10 n = c :: tail ∧ c ≠ '0' := by
  induction n using Nat.strongRecOn with
  | ind n ih =>
    rw [Nat.toDigits_eq_if (by decide)]
    split
    · refine ⟨_, [], rfl, fun zero => ?_⟩
      have := Nat.digitChar_eq_zero.mp zero
      omega
    · obtain ⟨c, tail, front, nonzero⟩ := ih (n / 10) (by omega) (by omega)
      exact ⟨c, tail ++ [(n % 10).digitChar], by rw [front, List.cons_append], nonzero⟩

theorem takeWhile_digits (digits : AreDigits cs) (stop : ∀ c ∈ rest.head?, isDigit c = false) :
    (cs ++ rest).takeWhile isDigit = cs := by
  rw [List.takeWhile_append_of_pos digits]
  cases rest with
  | nil => rw [List.takeWhile_nil, List.append_nil]
  | cons c rest =>
    rw [List.takeWhile_cons_of_neg (by simp [stop c rfl]), List.append_nil]

theorem dropWhile_digits (digits : AreDigits cs) (stop : ∀ c ∈ rest.head?, isDigit c = false) :
    (cs ++ rest).dropWhile isDigit = rest := by
  rw [List.dropWhile_append_of_pos digits]
  cases rest with
  | nil => rfl
  | cons c rest => exact List.dropWhile_cons_of_neg (by simp [stop c rfl])

end Digits

/-! ### Numerals -/

section Numerals

variable {whole places digits rest : List Char} {limit : Nat} {negative : Bool}

theorem fraction_of_stop (stop : ∀ c ∈ rest.head?, c ≠ '.') : fraction rest = ([], rest) := by
  unfold fraction
  split
  · exact absurd rfl (stop '.' rfl)
  · rfl

theorem fraction_point (nonempty : places ≠ []) (areDigits : AreDigits places)
    (stop : ∀ c ∈ rest.head?, isDigit c = false) :
    fraction ('.' :: (places ++ rest)) = (places, rest) := by
  simp only [fraction, takeWhile_digits areDigits stop, dropWhile_digits areDigits stop]
  rw [if_neg (by simpa using nonempty)]

theorem exponent_of_stop (stop : ∀ c ∈ rest.head?, c ≠ 'e' ∧ c ≠ 'E') :
    exponent rest = (none, rest) := by
  unfold exponent
  split
  · next mark rest =>
    obtain ⟨small, large⟩ := stop mark rfl
    rw [if_neg (by simp [small, large])]
  · rfl

theorem exponent_mark (negative : Bool) (nonempty : digits ≠ []) (areDigits : AreDigits digits)
    (stop : ∀ c ∈ rest.head?, isDigit c = false) :
    exponent ('e' :: (if negative then '-' else '+') :: (digits ++ rest)) =
      (some (if negative then -(digitsValue digits : Int) else digitsValue digits), rest) := by
  have taken := takeWhile_digits areDigits stop
  have dropped := dropWhile_digits areDigits stop
  cases negative <;> simp [exponent, -List.isEmpty_iff, taken, dropped, nonempty]

/-- The digits before the point, or all of them. Nothing comes behind a zero in front. -/
def wholePart (cs : List Char) : List Char :=
  match cs with
  | '0' :: _ => ['0']
  | _ => cs.takeWhile isDigit

theorem wholePart_append (areDigits : AreDigits whole) (head : whole = ['0'] ∨ whole.head? ≠ some '0')
    (nonempty : whole ≠ []) (stop : ∀ c ∈ rest.head?, isDigit c = false) :
    wholePart (whole ++ rest) = whole := by
  rcases head with rfl | head
  · rfl
  · unfold wholePart
    split
    · next same =>
      cases whole with
      | nil => exact absurd rfl nonempty
      | cons c whole =>
        obtain ⟨rfl, -⟩ := List.cons.inj same
        exact absurd rfl head
    · exact takeWhile_digits areDigits stop

/-- What is read in two steps: the digits before the point, and what comes behind them. -/
theorem unsigned_append {tail beyond : List Char} {power : Option Int}
    (here : wholePart (whole ++ tail) = whole) (nonempty : whole ≠ [])
    (point : fraction tail = (places, beyond)) (mark : exponent beyond = (power, rest)) :
    unsigned limit negative (whole ++ tail) =
      if places.isEmpty && power.isNone then
        if limit < whole.length then .error .unfit
        else .ok (.int (if negative then -(digitsValue whole : Int) else digitsValue whole), rest)
      else
        let x := scaled (digitsValue (whole ++ places)) (whole ++ places).length
          (power.getD 0 - places.length)
        .ok (.real (if negative then -x else x), rest) := by
  have unfolded : unsigned limit negative (whole ++ tail) =
      let whole' := wholePart (whole ++ tail)
      if whole'.isEmpty then .error .malformedText
      else
        let found := fraction ((whole ++ tail).drop whole'.length)
        let last := exponent found.2
        if found.1.isEmpty && last.1.isNone then
          if limit < whole'.length then .error .unfit
          else .ok (.int (if negative then -(digitsValue whole' : Int) else digitsValue whole'), last.2)
        else
          let x := scaled (digitsValue (whole' ++ found.1)) (whole' ++ found.1).length
            (last.1.getD 0 - found.1.length)
          .ok (.real (if negative then -x else x), last.2) := rfl
  rw [unfolded, here]
  dsimp only
  rw [if_neg (by simpa using nonempty), List.drop_left, point]
  dsimp only
  rw [mark]

/-- Puts a minus sign in front of a float. -/
def signed (negative : Bool) (x : Float) : Float := if negative then -x else x

theorem unsigned_real {tail beyond : List Char} {power : Option Int} (areDigits : AreDigits whole)
    (head : whole = ['0'] ∨ whole.head? ≠ some '0') (nonempty : whole ≠ [])
    (stop : ∀ c ∈ tail.head?, isDigit c = false) (point : fraction tail = (places, beyond))
    (mark : exponent beyond = (power, rest)) (real : places ≠ [] ∨ power ≠ none) :
    unsigned limit negative (whole ++ tail) =
      .ok (.real (signed negative (scaled (digitsValue (whole ++ places))
        (whole ++ places).length (power.getD 0 - places.length))), rest) := by
  rw [unsigned_append (wholePart_append areDigits head nonempty stop) nonempty point mark, if_neg]
  · rfl
  · rcases real with real | real <;> simp [real]

theorem unsigned_integer (limit : Nat) (negative : Bool) (areDigits : AreDigits whole)
    (head : whole = ['0'] ∨ whole.head? ≠ some '0') (nonempty : whole ≠ []) (stop : Stops rest)
    (short : whole.length ≤ limit) :
    unsigned limit negative (whole ++ rest) =
      .ok (.int (if negative then -(digitsValue whole : Int) else digitsValue whole), rest) := by
  rw [unsigned_append (wholePart_append areDigits head nonempty stop.isDigit) nonempty
    (fraction_of_stop stop.point) (exponent_of_stop stop.mark)]
  simp [Nat.not_lt.mpr short]

end Numerals

end JoinOrder.Json
