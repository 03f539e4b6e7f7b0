/-!
Machine words of 64 bits, and the integers that fit one.
-/

namespace JoinOrder.Word

/-- The first integer above the signed words: `2 ^ 63`. -/
def signedEnd : Int := 0x8000000000000000

/-- The first integer above the unsigned words: `2 ^ 64`. -/
def unsignedEnd : Int := 0x10000000000000000

def isSigned (n : Int) : Bool := -signedEnd ≤ n && n < signedEnd

def isUnsigned (n : Int) : Bool := 0 ≤ n && n < unsignedEnd

def bytes : Nat := 8

end JoinOrder.Word
