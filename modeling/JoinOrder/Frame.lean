import JoinOrder.Item
import JoinOrder.Word
/-!
Frames: tables whose columns are named after the entries of the first row. Each column has a kind
that all its cells fit.
-/

namespace JoinOrder

inductive CellKind where
  | signed
  | unsigned
  | float
  | bool
  | object
deriving DecidableEq, Repr

namespace CellKind

def name : CellKind → String
  | signed => "int64"
  | unsigned => "uint64"
  | float => "float64"
  | bool => "bool"
  | object => "object"

def isBool : Item → Bool
  | .scalar (.bool _) => true
  | _ => false

def integer? : Item → Option Int
  | .scalar (.int n) => some n
  | _ => none

def isReal : Item → Bool
  | .scalar (.real _) => true
  | _ => false

/-- Whether one kind of word has room for all. -/
def fitWord (ns : List Int) : Bool := ns.all Word.isSigned || ns.all Word.isUnsigned

/-- Whether a cell settles that the column holds objects, after so many integers and maybe a gap. -/
def isDecisive (before : List Int) (gap : Bool) (cell : Item) : Bool :=
  match integer? cell with
  | some n => !gap && !fitWord (n :: before)
  | none => !(cell.isNull || isReal cell || isBool cell)

/-- Reads cells up to the first that is decisive. An integer that is read has to have a nearest
float, whatever the column is going to be. -/
def checkCells (before : List Int) (gap : Bool) : List Item → Except Error Unit
  | [] => .ok ()
  | cell :: rest => do
    if let some n := integer? cell then
      let _ ← (Value.int n).float?
    if isDecisive before gap cell then return
    checkCells ((integer? cell).toList ++ before) (gap || cell.isNull) rest

/-- Integers count as floats next to floats and gaps. Those that come before the first gap have to
fit one kind of word all the same. -/
def ofCells (cells : List Item) : CellKind :=
  if cells.any isBool then
    if cells.all isBool then bool else object
  else if !cells.all (fun c => c.isNull || isReal c || (integer? c).isSome) then object
  else if cells.all Item.isNull then object
  else if !fitWord ((cells.takeWhile (!·.isNull)).filterMap integer?) then object
  else if cells.any fun c => c.isNull || isReal c then float
  else if (cells.filterMap integer?).all Word.isSigned then signed
  else unsigned

def keep (kind : CellKind) (cell : Item) : Item :=
  match kind, integer? cell with
  | float, some n => .scalar (.real (Float.ofInt n))
  | _, _ => cell

end CellKind

structure Column where
  name : String
  cells : List Item

namespace Column

def kind (c : Column) : CellKind := .ofCells c.cells

def values (c : Column) : List Item := c.cells.map c.kind.keep

end Column

/-- All columns have as many cells as there are rows. -/
structure Frame where
  columns : List Column
  height : Nat

namespace Frame

def empty : Frame := ⟨[], 0⟩

def isEmpty (f : Frame) : Bool := f.columns.isEmpty || f.height == 0

def rows (f : Frame) : List (List Item) :=
  let values := f.columns.map Column.values
  if f.columns.isEmpty then []
  else (List.range f.height).map fun i => values.filterMap (·[i]?)

def cell (name : String) : Item → Except Error Item
  | .object entries =>
    match entries.lookup name with
    | some item => .ok item
    | none => .error .absentKey
  | _ => .error .mismatch

def ofRows (names : List String) (rows : List Item) : Except Error Frame := do
  let cells ← rows.mapM fun row => names.mapM fun name => cell name row
  let columns := (List.range names.length).zip names |>.map fun (i, name) =>
    Column.mk name (cells.filterMap (·[i]?))
  columns.forM fun column => CellKind.checkCells [] false column.cells
  return ⟨columns, rows.length⟩

/-- The rows of a collection. The first row says which columns there are; from a stream it is gone
when the rows are read. -/
def ofItem (rows : Item) : Except Error Frame := do
  if !rows.truthy then return empty
  if let .object _ := rows then throw (.singleMapping (← rows.shown))
  let elements ← rows.elements
  match rows, elements with
  | _, [] => throw .usedUp
  | .group .stream _, .object entries :: rest => ofRows (entries.map (·.1)) rest
  | _, .object entries :: _ => ofRows (entries.map (·.1)) elements
  | _, _ => throw .absentMember

end Frame

end JoinOrder
