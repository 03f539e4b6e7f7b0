/-!
Binary floating-point numbers as exact quantities: every finite one is `± m * 2 ^ q` with naturals
`m` and an integer `q`, so comparisons and digits need no rounding.
-/

namespace JoinOrder

inductive Binary where
  | finite (negative : Bool) (m : Nat) (q : Int)
  | infinite (negative : Bool)
  | undefined
deriving DecidableEq, Repr

namespace Binary

/-- The leading bit of a full fraction, which is not stored: `2 ^ 52`. -/
def leadingBit : Nat := 0x10000000000000

/-- Reads the three fields of a binary64 word: sign, biased exponent and fraction. -/
def ofBits (bits : UInt64) : Binary :=
  let word : Nat := bits.toNat
  let fraction := word % leadingBit
  let exponent : Nat := word / leadingBit % 2048
  let negative := word / leadingBit / 2048 == 1
  if exponent = 2047 then
    if fraction = 0 then .infinite negative else .undefined
  else if exponent = 0 then .finite negative fraction (-1074)
  else .finite negative (leadingBit + fraction) ((exponent : Int) - 1075)

def ofFloat (x : Float) : Binary := ofBits x.toBits

/-- The gap to the number below is half the gap to the number above. -/
def narrowBelow (m : Nat) (q : Int) : Bool := m == leadingBit && q > -1074

end Binary

end JoinOrder
