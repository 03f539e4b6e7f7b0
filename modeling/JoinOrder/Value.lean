import JoinOrder.Error
import JoinOrder.Machine
import JoinOrder.Scalar
/-!
Dynamic values: what settings, tuple counts and configurations may hold before anybody has checked
them. Arithmetic and comparison are partial; numbers of all kinds mix.
-/

namespace JoinOrder

/-- The entries of an object keep their order and have distinct names. -/
inductive Value where
  | scalar (s : Scalar)
  | array (items : List Value)
  | object (entries : List (String × Value))

namespace Value

@[match_pattern] abbrev null : Value := .scalar .null
@[match_pattern] abbrev bool (b : Bool) : Value := .scalar (.bool b)
@[match_pattern] abbrev int (n : Int) : Value := .scalar (.int n)
@[match_pattern] abbrev real (x : Float) : Value := .scalar (.real x)
@[match_pattern] abbrev text (s : String) : Value := .scalar (.text s)

instance : Inhabited Value := ⟨.null⟩

def scalar? : Value → Option Scalar
  | .scalar s => some s
  | _ => none

def int? : Value → Option Int
  | .scalar s => s.int?
  | _ => none

def text? : Value → Option String
  | .text s => some s
  | _ => none

def isNull : Value → Bool
  | .null => true
  | _ => false

def isNumber : Value → Bool
  | .scalar s => s.isNumber
  | _ => false

def truthy : Value → Bool
  | .scalar s => s.truthy
  | .array items => !items.isEmpty
  | .object entries => !entries.isEmpty

def kindName : Value → String
  | .scalar .null => "NoneType"
  | .scalar (.bool _) => "bool"
  | .scalar (.int _) => "int"
  | .scalar (.real _) => "float"
  | .scalar (.text _) => "str"
  | .array _ => "list"
  | .object _ => "dict"

mutual

/-- Scalars are the same if their atoms are. Arrays agree member by member, objects name by name in
any order. -/
def same : Value → Value → Bool
  | .scalar a, .scalar b => a.atom == b.atom
  | .array xs, .array ys => sameItems xs ys
  | .object xs, .object ys => xs.length == ys.length && sameEntries xs ys
  | _, _ => false

def sameItems : List Value → List Value → Bool
  | [], [] => true
  | x :: xs, y :: ys => same x y && sameItems xs ys
  | _, _ => false

def sameEntries : List (String × Value) → List (String × Value) → Bool
  | [], _ => true
  | (name, x) :: rest, ys =>
    (match ys.lookup name with
      | some y => same x y
      | none => false) && sameEntries rest ys

end

mutual

/-- How many arrays and objects stand in one another, at most. -/
def depth : Value → Nat
  | .scalar _ => 0
  | .array items => itemsDepth items + 1
  | .object entries => entriesDepth entries + 1

def itemsDepth : List Value → Nat
  | [] => 0
  | x :: xs => max (depth x) (itemsDepth xs)

def entriesDepth : List (String × Value) → Nat
  | [] => 0
  | (_, x) :: rest => max (depth x) (entriesDepth rest)

end

mutual

def literal : Value → String
  | .scalar s => s.literal
  | .array items => "[" ++ ", ".intercalate (itemLiterals items) ++ "]"
  | .object entries => "\x7b" ++ ", ".intercalate (entryLiterals entries) ++ "\x7d"

def itemLiterals : List Value → List String
  | [] => []
  | x :: xs => literal x :: itemLiterals xs

def entryLiterals : List (String × Value) → List String
  | [] => []
  | (name, x) :: rest => (Text.quoted name ++ ": " ++ literal x) :: entryLiterals rest

end

def shown : Value → String
  | .scalar s => s.shown
  | v => v.literal

mutual

/-- Arrays are ordered by the first place where they differ. -/
def less? : Value → Value → Option Bool
  | .scalar a, .scalar b => a.less? b
  | .array xs, .array ys => lessItems? xs ys
  | _, _ => none

def lessItems? : List Value → List Value → Option Bool
  | _, [] => some false
  | [], _ :: _ => some true
  | x :: xs, y :: ys => if same x y then lessItems? xs ys else less? x y

end

def atMost? (a b : Value) : Option Bool :=
  if a.same b && (less? a b).isSome then some true else less? a b

/-- The nearest float of an integer, if it is finite. -/
def floatOfInt? (n : Int) : Option Float :=
  let x := Float.ofInt n
  if x.isFinite then some x else none

def float? : Value → Except Error Float
  | .real x => .ok x
  | v =>
    match v.int? with
    | none => .error .mismatch
    | some n =>
      match floatOfInt? n with
      | some x => .ok x
      | none => .error .tooLarge

/-- Two integers combine exactly; with a float among them both become floats. -/
def arithmetic (exact : Int → Int → Int) (rounded : Float → Float → Float) (a b : Value) :
    Except Error Value :=
  match a.int?, b.int? with
  | some m, some n => .ok (.int (exact m n))
  | _, _ =>
    if a.isNumber && b.isNumber then do return .real (rounded (← a.float?) (← b.float?))
    else .error .mismatch

/-- Adds numbers; joins texts and arrays. -/
def add : Value → Value → Except Error Value
  | .text s, .text t => .ok (.text (s ++ t))
  | .array xs, .array ys => .ok (.array (xs ++ ys))
  | a, b => arithmetic (· + ·) (· + ·) a b

def sub : Value → Value → Except Error Value := arithmetic (· - ·) (· - ·)

/-- A number of repetitions has to fit a word. Less than one is none. -/
def repetitions (n : Int) : Except Error Nat :=
  if Word.isSigned n then .ok n.toNat else .error .tooLarge

/-- Repeats a text. The length of the result has to fit a word, the result itself into memory. -/
def repeatText (machine : Machine) (s : String) (n : Int) : Except Error String := do
  let times ← repetitions n
  let size := Text.length s * times
  if size = 0 then return ""
  if !Word.isSigned size then throw .tooLarge
  if machine.memory ≤ size then throw .outOfMemory
  return String.join (List.replicate times s)

/-- Repeats an array, each item of which takes a word. -/
def repeatItems (machine : Machine) (xs : List Value) (n : Int) : Except Error (List Value) := do
  let times ← repetitions n
  if xs.isEmpty then return []
  if machine.memory ≤ xs.length * times * Word.bytes then throw .outOfMemory
  return (List.replicate times xs).flatten

/-- Multiplies numbers; repeats texts and arrays an integral number of times. -/
def mul (machine : Machine) (a b : Value) : Except Error Value :=
  match a, b, a.int?, b.int? with
  | .text s, _, _, some n | _, .text s, some n, _ => return .text (← repeatText machine s n)
  | .array xs, _, _, some n | _, .array xs, some n, _ => return .array (← repeatItems machine xs n)
  | _, _, _, _ => arithmetic (· * ·) (· * ·) a b

/-- Halves an integer `k` times, each time rounding down. -/
def halve (v : Value) (k : Nat) : Except Error Value :=
  match v.int? with
  | some n => .ok (.int (n >>> k))
  | none => .error .mismatch

/-- The second value only if it is larger. -/
def max (a b : Value) : Except Error Value :=
  match less? a b with
  | some true => .ok b
  | some false => .ok a
  | none => .error .mismatch

/-- What iterating over a value gives: the characters of a text, the names of an object. -/
def elements? : Value → Option (List Value)
  | .text s => some ((Text.letters s).map .text)
  | .array items => some items
  | .object entries => some (entries.map fun e => .text e.1)
  | .scalar _ => none

/-- Integers with more digits are not written out. -/
def digitLimit : Nat := 4300

def digitEnd : Nat := Nat.pow 10 digitLimit

/-- Whether a value can be written out, as far as it is an integer. -/
def isWritable (v : Value) : Bool := v.int?.all fun n => n.natAbs < digitEnd

/-- How a value that may have been worked out is written on its own. -/
def written (v : Value) : Except Error String := if v.isWritable then .ok v.shown else .error .unfit

/-- How such a value is written inside of others. -/
def writtenLiteral (v : Value) : Except Error String :=
  if v.isWritable then .ok v.literal else .error .unfit

end Value

/-- A partial operation that has no result met values of the wrong kinds. -/
def fitting {α : Type} : Option α → Except Error α
  | some a => .ok a
  | none => .error .mismatch

end JoinOrder
