import JoinOrder.Binary
/-!
Decimal text of binary numbers: the fewest digits that read back to the same number, and the layout
that puts point and exponent between them.
-/

namespace JoinOrder

/-- `digits * 10 ^ exponent` -/
structure Decimal where
  digits : Nat
  exponent : Int
deriving DecidableEq, Repr

namespace Decimal

/-- The numerator of `b ^ e`; `power b (-e)` is its denominator. -/
def power (b : Nat) (e : Int) : Nat := Nat.pow b e.toNat

/-- Compares `a * 10 ^ i` with `n * 2 ^ j`, exactly. -/
def compareScaled (a : Nat) (i : Int) (n : Nat) (j : Int) : Ordering :=
  compare (a * power 10 i * power 2 (-j)) (n * power 2 j * power 10 (-i))

/-- The decimals that read back to `m * 2 ^ q` reach halfway to both neighbours. Rounding a tie goes
to the even neighbour, so the ends belong to the interval exactly if `m` is even. -/
def readsBack (m : Nat) (q : Int) (d : Decimal) : Bool :=
  -- In quarters of the last place halfway is two away, and only one below a power of two.
  let low := if Binary.narrowBelow m q then 4 * m - 1 else 4 * m - 2
  let above := compareScaled d.digits d.exponent low (q - 2)
  let below := compareScaled d.digits d.exponent (4 * m + 2) (q - 2)
  let ends := m % 2 == 0
  (above == .gt || (ends && above == .eq)) && (below == .lt || (ends && below == .eq))

/-- The largest `c` with `c * 10 ^ g ≤ m * 2 ^ q`. -/
def floorOn (g : Int) (m : Nat) (q : Int) : Nat :=
  (m * power 2 q * power 10 (-g)) / (power 2 (-q) * power 10 g)

/-- The `k` with `10 ^ (k - 1) ≤ m * 2 ^ q < 10 ^ k`, for `m > 0`: a guess from the binary length
that is off by one at most. -/
def magnitude (m : Nat) (q : Int) : Int :=
  let guess := ((q + m.log2) * 30103).fdiv 100000 + 1
  if compareScaled 1 guess m q != .gt then guess + 1
  else if compareScaled 1 (guess - 1) m q == .gt then guess - 1
  else guess

/-- The better of the two grid points next to the number, if one of them reads back. A number that
lies halfway between them takes the even one. -/
def onGrid (g : Int) (m : Nat) (q : Int) : Option Decimal :=
  let c := floorOn g m q
  let low : Decimal := ⟨c, g⟩
  let high : Decimal := ⟨c + 1, g⟩
  match readsBack m q low, readsBack m q high with
  | false, false => none
  | true, false => some low
  | false, true => some high
  | true, true =>
    match compareScaled (2 * c + 1) g (2 * m) q with
    | .gt => some low
    | .lt => some high
    | .eq => some (if c % 2 == 0 then low else high)

def stripZeros : Nat → Decimal → Decimal
  | 0, d => d
  | n + 1, d => if d.digits % 10 == 0 then stripZeros n ⟨d.digits / 10, d.exponent + 1⟩ else d

/-- The fewest digits that read back, for `m > 0`. Seventeen always do; should none, the exact value
is written out. -/
def shortest (m : Nat) (q : Int) : Decimal :=
  let k := magnitude m q
  match (List.range 17).findSome? fun (n : Nat) => onGrid (k - (n + 1)) m q with
  | some d => stripZeros 17 d
  | none => ⟨m * power 2 q * power 5 (-q), -((-q).toNat : Int)⟩

/-- Where a number is written with a plain point, and how its exponent looks otherwise. -/
structure Layout where
  smallest : Int
  largest : Int
  mark : String
  exponentDigits : Nat

/-- The point is plain from `0.0001` up to sixteen digits before it, always with a digit on either
side; other exponents are signed and have two digits or more. -/
def plain : Layout := ⟨-4, 15, "e", 2⟩

def padLeft (width : Nat) (s : String) : String :=
  "".pushn '0' (width - s.length) ++ s

def Layout.exponent (layout : Layout) (e : Int) : String :=
  layout.mark ++ (if e < 0 then "-" else "+") ++ padLeft layout.exponentDigits (toString e.natAbs)

/-- Writes a decimal without trailing zeros whose leading digit stands for `10 ^ e`. -/
def Layout.render (layout : Layout) (d : Decimal) : String :=
  let digits := toString d.digits
  let e := d.exponent + (digits.length - 1)
  if e < layout.smallest || e > layout.largest then
    let rest := String.ofList (digits.toList.drop 1)
    String.ofList (digits.toList.take 1) ++ (if rest = "" then "" else "." ++ rest) ++ layout.exponent e
  else if e < 0 then
    "0." ++ "".pushn '0' (e.natAbs - 1) ++ digits
  else if d.exponent ≥ 0 then
    digits ++ "".pushn '0' d.exponent.toNat ++ ".0"
  else
    let whole := (e + 1).toNat
    String.ofList (digits.toList.take whole) ++ "." ++ String.ofList (digits.toList.drop whole)

def render : Binary → String
  | .finite negative m q =>
    (if negative then "-" else "") ++ (if m = 0 then "0.0" else plain.render (shortest m q))
  | .infinite negative => if negative then "-inf" else "inf"
  | .undefined => "nan"

end Decimal

end JoinOrder
