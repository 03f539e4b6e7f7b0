import JoinOrder.Relation
/-!
Join plans: binary trees with scans of base relations at the leaves and joins inside. Every node
carries its estimated number of tuples; all else is derived from the tree.

Plans share their inputs, and a few levels of sharing make a tree that nobody can walk through. So
what every join needs of its inputs is worked out once for each node, when it is made.
-/

namespace JoinOrder

inductive Plan where
  | scan (relation : Relation) (tuples : Value)
  | join (left right : Plan) (tuples : Value)
with
  @[computed_field] attributes : Plan → Attributes
    | .scan r _ => r.attributes
    | .join left right _ => left.attributes.union right.attributes
  @[computed_field] relations : Plan → RelationSet
    | .scan r _ => .singleton r
    | .join left right _ => left.relations.union right.relations
  /-- The sum of the estimates of all joins, the deepest first. -/
  @[computed_field] cost : Plan → Except Error Value
    | .scan .. => .ok (.int 0)
    | .join left right tuples => do
      let children ← (← left.cost).add (← right.cost)
      children.add tuples

namespace Plan

def ofRelation (r : Relation) : Plan := .scan r r.tuples

instance : Inhabited Plan := ⟨.ofRelation ⟨.null, .null, .null, ∅, []⟩⟩

def tuples : Plan → Value
  | .scan _ tuples | .join _ _ tuples => tuples

def isScan : Plan → Bool
  | .scan .. => true
  | .join .. => false

def isJoin (p : Plan) : Bool := !p.isScan

/-- Every join has a scan on at least one side. -/
def isLinear : Plan → Bool
  | .scan .. => true
  | .join left right _ => (left.isScan || right.isScan) && left.isLinear && right.isLinear

def isBushy (p : Plan) : Bool := !p.isLinear

def isBaseJoin : Plan → Bool
  | .scan .. => false
  | .join left right _ => left.isScan && right.isScan

/-- The number of nodes on the longest way down. -/
def depth : Plan → Nat
  | .scan .. => 1
  | .join left right _ => 1 + max left.depth right.depth

def children : Plan → List Plan
  | .scan .. => []
  | .join left right _ => [left, right]

/-- All nodes, every node before its children and the left side before the right one. -/
def nodes : Plan → List Plan
  | p@(.scan ..) => [p]
  | p@(.join left right _) => p :: (left.nodes ++ right.nodes)

def leaves : Plan → List Relation
  | .scan r _ => [r]
  | .join left right _ => left.leaves ++ right.leaves

/-- All joins in the order in which they can be executed. -/
def joins : Plan → List Plan
  | .scan .. => []
  | p@(.join left right _) => left.joins ++ right.joins ++ [p]

/-- Same shape over the same relations, whatever the estimates. -/
def same : Plan → Plan → Bool
  | .scan r _, .scan s _ => r.same s
  | .join l r _, .join l' r' _ => l.same l' && r.same r'
  | _, _ => false

/-- Hashes of the parts make one of the node; a part that a node does not have hashes like nothing. How
identities hash is left open, as texts hash differently from run to run, and so is how lists of hashes
do. -/
def hash {H : Type} (ofAtom : Atom → H) (ofSequence : List H → H) : Plan → H
  | .scan r _ => ofSequence [ofAtom (identity r), ofAtom .null, ofAtom .null]
  | .join left right _ =>
    ofSequence [ofAtom .null, left.hash ofAtom ofSequence, right.hash ofAtom ofSequence]

/-- The node that joins exactly the given identities, which are in increasing order. -/
def find? (wanted : List Atom) (p : Plan) : Option Plan :=
  if p.relations.identities == wanted then some p
  else if !wanted.all p.relations.contains then none
  else
    match p with
    | .scan .. => none
    | .join left right _ => (left.find? wanted).or (right.find? wanted)

def relation : Plan → Except Error Relation
  | .scan r _ => .ok r
  | .join .. => .error .notAScan

def left : Plan → Except Error Plan
  | .scan .. => .error .notAJoin
  | .join l _ _ => .ok l

def right : Plan → Except Error Plan
  | .scan .. => .error .notAJoin
  | .join _ r _ => .ok r

/-- Builds a node from its parts: a relation alone or two inputs. The sum of all estimates has to
exist. -/
def build (relation : Option Relation) (left right : Option Plan) (tuples : Value) :
    Except Error Plan :=
  match relation, left, right with
  | none, some l, some r => do
    let p := Plan.join l r tuples
    let _ ← p.cost
    return p
  | none, _, _ => .error .planNeedsInput
  | some r, none, none => .ok (.scan r tuples)
  | some _, _, _ => .error .planAmbiguous

/-- One line: joins in parentheses. -/
def shown : Plan → Except Error String
  | .scan r _ => r.shown
  | .join left right _ => do return "(" ++ (← left.shown) ++ " x " ++ (← right.shown) ++ ")"

def margin (indentation : Nat) : String :=
  "".pushn ' ' indentation ++ (if indentation = 0 then "" else "<- ")

/-- One line for each node, two spaces further in than the line of its parent. -/
def lines (indentation : Nat) : Plan → Except Error (List String)
  | .scan r _ => do return [margin indentation ++ (← r.shown)]
  | .join left right tuples => do
    let own := margin indentation ++ "⨝ (" ++ (← tuples.written) ++ ")"
    let leftLines ← left.lines (indentation + 2)
    let rightLines ← right.lines (indentation + 2)
    return own :: (leftLines ++ rightLines)

def inspect (p : Plan) : Except Error String := do
  return "\n".intercalate (← p.lines 0)

end Plan

end JoinOrder
