import JoinOrder.Text.Blank
import JoinOrder.Text.Digit
import JoinOrder.Value
/-!
How pretty text looks. Callers may ask for another width, for wider steps from level to level, for a
depth below which nothing is shown, and for a few more things.
-/

namespace JoinOrder.Pretty

structure Style where
  /-- the machine that the text is written on -/
  machine : Machine
  width : Int
  /-- how far in a level stands -/
  step : Nat
  /-- how many levels are shown, if not all -/
  depth : Option Nat
  /-- whether as many items as fit share a line -/
  compact : Bool
  /-- whether entries are sorted by their names -/
  sorted : Bool
  /-- whether the digits of integers are grouped by three -/
  grouped : Bool

namespace Style

/-- The number that is written with digits, perhaps with single underscores between them. -/
def digits? : Option Nat → List Char → Option Nat
  | some n, [] => some n
  | none, [] => none
  | read, c :: rest =>
    match Text.decimalDigit? c, read with
    | some d, _ => digits? (some (10 * read.getD 0 + d)) rest
    | none, some n =>
      match c, rest with
      | '_', d :: rest =>
        match Text.decimalDigit? d with
        | some d => digits? (some (10 * n + d)) rest
        | none => none
      | _, _ => none
    | none, none => none

/-- The integer that is written with digits, perhaps with a sign before them and blanks around. Texts
with too many digits are not read. -/
def integerText? (s : String) : Option Int :=
  let trimmed := (s.toList.dropWhile Text.isBlank).reverse.dropWhile Text.isBlank |>.reverse
  if Value.digitLimit < trimmed.countP fun c => (Text.decimalDigit? c).isSome then none
  else
    match trimmed with
    | '-' :: rest => (digits? none rest).map fun n => -(n : Int)
    | '+' :: rest => (digits? none rest).map Int.ofNat
    | rest => (digits? none rest).map Int.ofNat

def wholePart (x : Float) : Except Error Int :=
  match Binary.ofFloat x with
  | .finite negative m q =>
    let n : Int := (m * Decimal.power 2 q / Decimal.power 2 (-q) : Nat)
    .ok (if negative then -n else n)
  | .infinite _ => .error .tooLarge
  | .undefined => .error .unfit

/-- Takes a value for an integer: numbers without what comes after the point, texts as written. -/
def integer : Value → Except Error Int
  | .real x => wholePart x
  | .text s =>
    match integerText? s with
    | some n => .ok n
    | none => .error .unfit
  | v => fitting v.int?

/-- A depth has to be above zero. A fraction counts as the next integer; what is no finite number
ends nothing. -/
def depthOf (v : Value) : Except Error (Option Nat) := do
  if v.isNull then return none
  if ← fitting (v.atMost? (.int 0)) then throw .unfit
  match v with
  | .real x => return (wholePart x.ceil).toOption.map Int.toNat
  | v => return some (← fitting v.int?).toNat

def optionNames : List String :=
  ["indent", "width", "depth", "compact", "sort_dicts", "underscore_numbers"]

def ofOptions (machine : Machine) (options : List (String × Value)) : Except Error Style := do
  let option (name : String) (default : Value) : Value := (options.lookup name).getD default
  let step ← integer (option "indent" (.int 1))
  let width ← integer (option "width" (.int 80))
  if step < 0 then throw .unfit
  let depth ← depthOf (option "depth" .null)
  if width = 0 then throw .unfit
  return {
    machine, width, step := step.toNat, depth
    compact := (option "compact" (.bool false)).truthy
    sorted := (option "sort_dicts" (.bool true)).truthy
    grouped := (option "underscore_numbers" (.bool false)).truthy }

def hides (style : Style) (level : Nat) : Bool := style.depth.any (· ≤ level)

/-- Groups digits by three from the right. -/
def groupDigits : List Char → List Char
  | a :: b :: c :: d :: rest =>
    let others := groupDigits (b :: c :: d :: rest)
    if (b :: c :: d :: rest).length % 3 = 0 then a :: '_' :: others else a :: others
  | digits => digits

def integerLiteral (style : Style) (n : Int) : String :=
  if style.grouped then
    (if n < 0 then "-" else "") ++ String.ofList (groupDigits (toString n.natAbs).toList)
  else toString n

end Style

end JoinOrder.Pretty
