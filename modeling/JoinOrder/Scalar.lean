import JoinOrder.Atom
import JoinOrder.Decimal
import JoinOrder.Text.Quoted
/-!
Indivisible values. They can be members of sets, where two of them are the same if their atoms are:
`true`, `1` and `1.0` are one member.
-/

namespace JoinOrder

inductive Scalar where
  | null
  | bool (b : Bool)
  | int (n : Int)
  | real (x : Float)
  | text (s : String)
deriving DecidableEq

namespace Scalar

/-- What a scalar is as a member of a set. All that is no number has one atom here, as a member that is
found again where it was put; `Atom.equal` says what comparing gives. -/
def atom : Scalar → Atom
  | .null => .null
  | .bool b => .ofInt (if b then 1 else 0)
  | .int n => .ofInt n
  | .real x =>
    match Binary.ofFloat x with
    | .finite negative m q =>
      Atom.reduce ((if negative then -(m : Int) else m) * Nat.pow 2 q.toNat) (-q).toNat
    | .infinite negative => if negative then .lowest else .highest
    | .undefined => .undefined
  | .text s => .text s

/-- Truth values count as the integers 0 and 1. -/
def int? : Scalar → Option Int
  | .bool b => some (if b then 1 else 0)
  | .int n => some n
  | _ => none

def isNumber : Scalar → Bool
  | .bool _ | .int _ | .real _ => true
  | _ => false

def isText : Scalar → Bool
  | .text _ => true
  | _ => false

/-- Nothing, zero and the empty text count as false. -/
def truthy : Scalar → Bool
  | .text s => s ≠ ""
  | s => s.atom ≠ .null && s.atom ≠ .number 0 0

def literal : Scalar → String
  | .null => "None"
  | .bool b => if b then "True" else "False"
  | .int n => toString n
  | .real x => Decimal.render (Binary.ofFloat x)
  | .text s => Text.quoted s

def shown : Scalar → String
  | .text s => s
  | s => s.literal

/-- Numbers and texts are ordered among themselves. -/
def less? (a b : Scalar) : Option Bool :=
  if a.atom.comparable b.atom then
    some (a.atom.order b.atom == .lt && a.atom ≠ .undefined && b.atom ≠ .undefined)
  else none

end Scalar

end JoinOrder
