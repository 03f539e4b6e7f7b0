import JoinOrder.Plan
/-!
Handles tell nodes of plans apart that look alike: two nodes with one handle are the same node, which
is shared.
-/

namespace JoinOrder

inductive Handles where
  | scan (n : Nat)
  | join (n : Nat) (left right : Handles)

namespace Handles

def top : Handles → Nat
  | scan n | join n _ _ => n

/-- The handles of the two sides of a join, and whether both sides are one node. -/
def sides : Handles → Handles × Handles × Bool
  | scan n => (scan n, scan n, false)
  | join _ left right => (left, right, left.top == right.top)

end Handles

end JoinOrder
