import JoinOrder.Word
/-!
What a run may use of its machine. How much memory there is and how deep calls may nest is no part of
the program and differs from run to run, so whatever can come to one of these bounds takes the machine
along.
-/

namespace JoinOrder

structure Machine where
  /-- so many bytes are more than can be set aside for one thing -/
  memory : Nat
  /-- how deep arrays and objects stand in one another in JSON text, at most -/
  textLevels : Nat
  /-- how deep they stand in one another in a value that is copied, at most -/
  copyLevels : Nat
  /-- how many steps inwards pretty printing takes, at most -/
  printSteps : Nat
  /-- sizes are counted in words -/
  memory_le : memory ≤ Word.signedEnd.toNat
  /-- a list in an object can always be written and read -/
  two_le_textLevels : 2 ≤ textLevels

namespace Machine

/-- A small machine to try things on. -/
def small : Machine := ⟨65536, 16, 8, 32, by decide, by decide⟩

end Machine

end JoinOrder
