import JoinOrder.Decimal
import JoinOrder.Value
/-!
Moments of the calendar, and their texts of fixed width: two digits for every part, also for the year.
-/

namespace JoinOrder

structure Moment where
  year : Nat
  month : Nat
  day : Nat
  hour : Nat
  minute : Nat
  second : Nat
deriving DecidableEq, Repr

namespace Moment

def isLeap (year : Nat) : Bool := year % 4 = 0 && (year % 100 ≠ 0 || year % 400 = 0)

def daysIn (year month : Nat) : Nat :=
  if month = 2 then if isLeap year then 29 else 28
  else if [4, 6, 9, 11].contains month then 30
  else 31

def isValid (m : Moment) : Bool :=
  1 ≤ m.year && m.year ≤ 9999 && 1 ≤ m.month && m.month ≤ 12 && 1 ≤ m.day &&
    m.day ≤ daysIn m.year m.month && m.hour < 24 && m.minute < 60 && m.second < 60

/-- A part of a moment, which has to fit into a machine word of half the size. -/
def partOf (v : Value) : Except Error Int := do
  let n ← fitting v.int?
  if n < -0x80000000 || 0x80000000 ≤ n then throw .tooLarge
  return n

/-- The moment of a date and perhaps a time, whose later parts may be missing. -/
def ofParts (parts : List Value) : Except Error Moment := do
  let parts ← parts.mapM partOf
  if parts.length < 3 || 7 < parts.length then throw .mismatch
  let part (i : Nat) : Nat := (parts.getD i 0).toNat
  let m : Moment := ⟨part 0, part 1, part 2, part 3, part 4, part 5⟩
  if parts.all (0 ≤ ·) && m.isValid && part 6 < 1000000 then return m
  throw .unfit

def twoDigits (n : Nat) : String := Decimal.padLeft 2 (toString (n % 100))

def stamp (m : Moment) : String :=
  "-".intercalate [twoDigits m.year, twoDigits m.month, twoDigits m.day] ++ " " ++
    ":".intercalate [twoDigits m.hour, twoDigits m.minute, twoDigits m.second]

end Moment

end JoinOrder
