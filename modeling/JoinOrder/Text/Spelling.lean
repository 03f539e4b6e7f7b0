/-!
Texts and their code points. JSON text may name one half of a character without the other, so not
all code points of a text are characters. Those that are none are spelled with two: a mark, and a
character that tells which of them is meant. The mark itself is spelled in the same way, so no two
texts have one spelling; and spellings compare as the code points do.
-/

namespace JoinOrder.Text

/-- The character right behind all halves. -/
def mark : Char := '\ue000'

def isHalf (n : Nat) : Bool := 0xd800 ≤ n && n < 0xe000

def isHighHalf (unit : Nat) : Bool := 0xd800 ≤ unit && unit < 0xdc00

def isLowHalf (unit : Nat) : Bool := 0xdc00 ≤ unit && unit < 0xe000

/-- The code point that two halves make together. -/
def joinHalves (high low : Nat) : Nat := 0x10000 + (high - 0xd800) * 0x400 + (low - 0xdc00)

def isPaired (n : Nat) : Bool := 0xd800 ≤ n && n ≤ 0xe000

/-- How far the second character of a pair is from the code point. -/
def pairOffset : Nat := 0x801

def spell (n : Nat) : List Char :=
  if isPaired n then [mark, Char.ofNat (n + pairOffset)] else [Char.ofNat n]

def codePoints : List Char → List Nat
  | [] => []
  | [c] => [c.toNat]
  | c :: d :: rest =>
    if c = mark then (d.toNat - pairOffset) :: codePoints rest
    else c.toNat :: codePoints (d :: rest)

def ofCharacters (s : String) : String :=
  String.ofList (s.toList.flatMap fun c => spell c.toNat)

def hasHalf (s : String) : Bool := (codePoints s.toList).any isHalf

def letters (s : String) : List String := (codePoints s.toList).map fun n => String.ofList (spell n)

def length (s : String) : Nat := (codePoints s.toList).length

theorem toNat_ofNat {n : Nat} (h : n.isValidChar) : (Char.ofNat n).toNat = n := by
  rw [Char.ofNat, dif_pos h]
  rfl

end JoinOrder.Text
