import JoinOrder.Atom
/-!
Hashes: numbers of 64 bits that equal things have in common. Texts have none.
-/

namespace JoinOrder

/-- Things that can be told apart. Those that are the same have one hash, if they have any. -/
class Hashed (α : Type) where
  hash? : α → Option Nat
  same : α → α → Bool

namespace Hash

def count : Nat := Nat.pow 2 64

def ofInt (n : Int) : Nat := (n % count).toNat

/-- Numbers are taken modulo a prime `p`. Halving is multiplying by `2 ^ 60`, as `2 ^ 61` is 1
modulo `p`. The largest hash is taken by none of them. -/
def ofNumber (numerator : Int) (halvings : Nat) : Nat :=
  let p := Nat.pow 2 61 - 1
  let size := numerator.natAbs * Nat.pow 2 (60 * halvings % 61) % p
  if 0 ≤ numerator then size else ofInt (if size = 1 then -2 else -size)

/-- Nothing at all has a hash of its own. -/
def ofAtom? : Atom → Option Nat
  | .null => some 2639
  | .number numerator halvings => some (ofNumber numerator halvings)
  | .lowest => some (ofInt (-314159))
  | .highest => some 314159
  | _ => none

/-- The largest hash is kept free. -/
def settle (n substitute : Nat) : Nat := if n = count - 1 then substitute else n

/-- The highest 31 bits become the lowest ones. -/
def turn (n : Nat) : Nat := (n <<< 31) % count + (n >>> 33)

/-- The hash of a list in which the order counts. -/
def ofSequence (hashes : List Nat) : Nat :=
  let start := 2870177450012600261
  let mix acc hash := turn ((acc + hash * 14029467366897019727) % count)
  let mixed := hashes.foldl (fun acc hash => mix acc hash * 11400714785074694791 % count) start
  settle ((mixed + (hashes.length ^^^ (start ^^^ 3527539))) % count) 1546275796

/-- The hash of a set, which is the same in whatever order the members come. -/
def ofMembers (hashes : List Nat) : Nat :=
  let scatter hash := (hash ^^^ 89869747 ^^^ (hash <<< 16) % count) * 3644798167 % count
  let sum := hashes.foldl (fun acc hash => acc ^^^ scatter hash) 0
  let mixed := sum ^^^ (hashes.length + 1) * 1927868237 % count
  let mixed := mixed ^^^ (mixed >>> 11 ^^^ mixed >>> 25)
  settle ((mixed * 69069 + 907133923) % count) 590923713

end Hash

end JoinOrder
