/-!
Digits of all scripts. Decimal digits come in runs from zero to nine and form numerals together;
other digits, such as superscripts and circled ones, each stand alone.
-/

namespace JoinOrder.Text

def zeros : List Nat := [
  0x30, 0x660, 0x6f0, 0x7c0, 0x966, 0x9e6, 0xa66, 0xae6, 0xb66, 0xbe6, 0xc66, 0xce6, 0xd66, 0xde6,
  0xe50, 0xed0, 0xf20, 0x1040, 0x1090, 0x17e0, 0x1810, 0x1946, 0x19d0, 0x1a80, 0x1a90, 0x1b50,
  0x1bb0, 0x1c40, 0x1c50, 0xa620, 0xa8d0, 0xa900, 0xa9d0, 0xa9f0, 0xaa50, 0xabf0, 0xff10, 0x104a0,
  0x10d30, 0x11066, 0x110f0, 0x11136, 0x111d0, 0x112f0, 0x11450, 0x114d0, 0x11650, 0x116c0, 0x11730,
  0x118e0, 0x11950, 0x11c50, 0x11d50, 0x11da0, 0x16a60, 0x16ac0, 0x16b50, 0x1d7ce, 0x1d7d8, 0x1d7e2,
  0x1d7ec, 0x1d7f6, 0x1e140, 0x1e2f0, 0x1e950, 0x1fbf0]

/-- Runs of digits that are not decimal: first and last code point, and the value of the first. -/
def loneDigitRuns : List (Nat × Nat × Nat) := [
  (0xb2, 0xb3, 2), (0xb9, 0xb9, 1), (0x1369, 0x1371, 1), (0x19da, 0x19da, 1), (0x2070, 0x2070, 0),
  (0x2074, 0x2079, 4), (0x2080, 0x2089, 0), (0x2460, 0x2468, 1), (0x2474, 0x247c, 1),
  (0x2488, 0x2490, 1), (0x24ea, 0x24ea, 0), (0x24f5, 0x24fd, 1), (0x24ff, 0x24ff, 0),
  (0x2776, 0x277e, 1), (0x2780, 0x2788, 1), (0x278a, 0x2792, 1), (0x10a40, 0x10a43, 1),
  (0x10e60, 0x10e68, 1), (0x11052, 0x1105a, 1), (0x1f100, 0x1f100, 0), (0x1f101, 0x1f10a, 0)]

def decimalDigit? (c : Char) : Option Nat :=
  (zeros.find? fun first => first ≤ c.toNat && c.toNat < first + 10).map (c.toNat - ·)

def loneDigit? (c : Char) : Option Nat :=
  (loneDigitRuns.find? fun (first, last, _) => first ≤ c.toNat && c.toNat ≤ last).map
    fun (first, _, value) => value + (c.toNat - first)

end JoinOrder.Text
