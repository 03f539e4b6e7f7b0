import JoinOrder.Text.Accent
import JoinOrder.Text.Ideograph
import JoinOrder.Text.Mark
/-!
Texts taken apart into letters and marks, so that two ways to write the same letter compare equal.
-/

namespace JoinOrder.Text

/-- Hangul syllables are numbered by their parts: 28 tails for each of 21 vowels for each lead; tail 0
is no letter. -/
def hangulParts (index : Nat) : List Char :=
  let tail := index % 28
  [Char.ofNat (0x1100 + index / 588), Char.ofNat (0x1161 + index % 588 / 28)] ++
    if tail = 0 then [] else [Char.ofNat (0x11a7 + tail)]

/-- The parts of a character: its base first, then its marks. -/
def parts (c : Char) : List Char :=
  if c.toNat < 0xc0 then [c]
  else if 0xac00 ≤ c.toNat && c.toNat < 0xac00 + 11172 then hangulParts (c.toNat - 0xac00)
  else
    match markedParts? c.toNat, ideograph? c.toNat with
    | some codes, _ => codes.map Char.ofNat
    | none, some code => [Char.ofNat code]
    | none, none => [c]

def decomposed (s : List Char) : List Char := arrangeMarks (s.flatMap parts)

end JoinOrder.Text
