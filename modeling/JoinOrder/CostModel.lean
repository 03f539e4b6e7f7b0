import JoinOrder.Plan
/-!
Cost models estimate how many tuples a join has. An estimate may depend on the number of the call,
so that a model can give up after a while or change its mind.
-/

namespace JoinOrder

structure CostModel where
  name : String
  describe : Except Error Value
  /-- the estimate of a join, given how often the model was asked before -/
  estimate : Nat → Plan → Plan → Except Error Value

namespace CostModel

inductive Known where
  | sharedAttributes
  | crossProduct
deriving DecidableEq, Repr

def Known.name : Known → String
  | .sharedAttributes => "shared_attributes"
  | .crossProduct => "cross_product"

def Known.ofName? (name : String) : Option Known :=
  [sharedAttributes, crossProduct].find? fun known => known.name = name

def product (machine : Machine) (left right : Plan) : Except Error Value :=
  left.tuples.mul machine right.tuples

/-- Each attribute that both sides have halves the cross product, rounding down. -/
def sharedAttributes (machine : Machine) : CostModel where
  name := "SharedAttributeCostModel"
  describe := .ok <| .object
    [("name", .text Known.sharedAttributes.name), ("selectivity_per_attribute", .real 0.5)]
  estimate _ left right := do
    (← product machine left right).halve (left.attributes.shared right.attributes)

/-- Attributes do not matter. -/
def crossProduct (machine : Machine) : CostModel where
  name := "CrossProductCostModel"
  describe := .ok <| .object [("name", .text Known.crossProduct.name)]
  estimate _ := product machine

def Known.model (machine : Machine) : Known → CostModel
  | .sharedAttributes => CostModel.sharedAttributes machine
  | .crossProduct => CostModel.crossProduct machine

/-- The known model of a name. Arrays and objects cannot be names at all. -/
def Known.ofValue (v : Value) : Except Error Known := do
  let name ← fitting v.scalar?
  match v.text?.bind ofName? with
  | some known => return known
  | none => throw (.unknownModel name.shown)

end CostModel

namespace Plan

/-- Joins two plans under a model that was asked `asked` times before. -/
def joinWith (model : CostModel) (asked : Nat) (left right : Plan) : Except Error Plan := do
  build none (some left) (some right) (← model.estimate asked left right)

end Plan

end JoinOrder
