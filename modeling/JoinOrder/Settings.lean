import JoinOrder.CostModel
import JoinOrder.Json.Reader
import JoinOrder.Split
/-!
Settings of the optimizer. They come as named values, from a caller or from JSON text, and are
checked once, when they are built. What a check does not look at is kept as it was given.
-/

namespace JoinOrder

structure Settings where
  model : CostModel.Known
  order : Order
  maxRelations : Value
  timeout : Value
  parallelWorkers : Value
  verbose : Value
  warnOnCrossProducts : Value

namespace Settings

/-- The defaults, by the names that all settings are known by. -/
def defaults : List (String × Value) :=
  [("cost_model", .text "shared_attributes"), ("enumeration_order", .text "canonical"),
    ("max_relations", .int 16), ("timeout", .null), ("parallel_workers", .int 1),
    ("verbose", .bool false), ("warn_on_cross_products", .bool false)]

def isKnown (name : String) : Bool := defaults.any fun entry => entry.1 == name

def valueOf (entries : List (String × Value)) (name : String) : Value :=
  ((entries.lookup name).or (defaults.lookup name)).getD .null

def checkPositive (name : String) (v : Value) : Except Error Unit := do
  if ← fitting (v.less? (.int 1)) then throw (.notPositive name v.shown)

/-- No timeout at all is fine. -/
def checkTimeout (v : Value) : Except Error Unit := do
  if !v.isNull then
    if ← fitting (v.atMost? (.int 0)) then throw (.notPositive "timeout" v.shown)

/-- Builds settings from named values; the others get their defaults. -/
def build (entries : List (String × Value)) : Except Error Settings := do
  if entries.any fun entry => !isKnown entry.1 then throw .mismatch
  let value := valueOf entries
  checkPositive "max_relations" (value "max_relations")
  checkTimeout (value "timeout")
  checkPositive "parallel_workers" (value "parallel_workers")
  let order ← Order.ofValue (value "enumeration_order")
  let model ← CostModel.Known.ofValue (value "cost_model")
  return {
    model, order
    maxRelations := value "max_relations"
    timeout := value "timeout"
    parallelWorkers := value "parallel_workers"
    verbose := value "verbose"
    warnOnCrossProducts := value "warn_on_cross_products" }

/-- The names that a value brings in, as a set. -/
def namesIn (v : Value) : Except Error (IdSet Scalar) := do
  return IdSet.ofList (← Attributes.scalarsOf v)

/-- The entries of an object. Anything else has none, if it is empty. -/
def entriesOf : Value → Except Error (List (String × Value))
  | .object entries => .ok entries
  | v => if v.truthy then .error .unfit else .ok []

/-- Reads settings from an object. Names that are not known are reported, and an unknown order comes
before all other faults. -/
def ofValue (v : Value) : Except Error Settings := do
  let names ← namesIn v
  let unknown := names.filter fun name => !defaults.any fun entry => Scalar.text entry.1 == name
  if !unknown.isEmpty then
    let sorted ← Attributes.sorted unknown
    throw (.unknownSettings (Value.array (sorted.map .scalar)).literal)
  let entries ← entriesOf v
  if let some order := entries.lookup "enumeration_order" then
    let _ ← Order.ofValue order
  build entries

/-- Reads settings from the text of a file, if there is one. Files hold whole characters only. -/
def load (machine : Machine) (file : Option String) : Except Error Settings := do
  match file with
  | none => throw .absentFile
  | some contents =>
    if Text.hasHalf contents then throw .halfCharacter
    ofValue (← Json.read machine contents)

def entries (s : Settings) : List (String × Value) :=
  [("cost_model", .text s.model.name), ("enumeration_order", .text s.order.name),
    ("max_relations", s.maxRelations), ("timeout", s.timeout),
    ("parallel_workers", s.parallelWorkers), ("verbose", s.verbose),
    ("warn_on_cross_products", s.warnOnCrossProducts)]

/-- The values are copied, which can be done unless one of them is too deep. -/
def describe (machine : Machine) (s : Settings) : Except Error Value :=
  if s.entries.all fun entry => entry.2.depth ≤ machine.copyLevels then .ok (.object s.entries)
  else .error .tooDeep

def default : Settings :=
  ⟨.sharedAttributes, .canonical, .int 16, .null, .int 1, .bool false, .bool false⟩

instance : Inhabited Settings := ⟨default⟩

/-- Replaces some values and checks the result. Overrides without a value do not count. The settings
themselves cannot be replaced under the name that stands for them. -/
def override (s : Settings) (overrides : List (String × Value)) : Except Error Settings := do
  if overrides.any fun entry => entry.1 == "self" then throw .mismatch
  build ((overrides.filter fun entry => !entry.2.isNull).foldl
    (fun entries entry => Json.setEntry entry.1 entry.2 entries) s.entries)

/-- Whether no value is an array or an object. -/
def settled (s : Settings) : Bool := s.entries.all fun entry => entry.2.scalar?.isSome

def same (s t : Settings) : Bool := (Value.object s.entries).same (.object t.entries)

def className : String := "OptimizerSettings"

def orderName : String := "enumeration_order"

def fieldLiterals (s : Settings) : List String :=
  s.entries.map fun (name, v) => name ++ "=" ++ if name = orderName then s.order.literal else v.literal

def literal (s : Settings) : String := className ++ "(" ++ ", ".intercalate s.fieldLiterals ++ ")"

def costModel (machine : Machine) (s : Settings) : CostModel := s.model.model machine

end Settings

end JoinOrder
