import JoinOrder.Export
import JoinOrder.Json.Limits
/-!
Writing JSON text: on one line, or one element a line with a margin that grows inwards. Of several
faults the one that is met first is reported.
-/

namespace JoinOrder.Json

structure Layout where
  /-- how deep arrays and objects may stand in one another -/
  levels : Nat
  /-- the margin of one level; nothing if all is on one line -/
  margin : Option String
  /-- the mark between two elements, if it can be written -/
  itemMark : Option String
  /-- the mark between a name and its value, if it can be written -/
  entryMark : Option String
  sorted : Bool
  /-- whether characters beyond ASCII are escaped -/
  asciiOnly : Bool
  /-- whether all floats have to be numbers of a size -/
  finiteOnly : Bool

namespace Layout

/-- All on one line. -/
def plain (machine : Machine) : Layout :=
  ⟨machine.textLevels, none, some ", ", some ": ", false, true, false⟩

end Layout

def unitEscape (unit : Nat) : List Char := '\\' :: 'u' :: Text.hexDigits 4 unit

/-- A code point beyond 16 bits is written as two halves. -/
def unicodeEscape (n : Nat) : List Char :=
  if n < 0x10000 then unitEscape n
  else unitEscape (0xd800 + (n - 0x10000) / 0x400) ++ unitEscape (0xdc00 + (n - 0x10000) % 0x400)

def escapeLetter? : Char → Option Char
  | '"' => some '"'
  | '\\' => some '\\'
  | '\n' => some 'n'
  | '\r' => some 'r'
  | '\t' => some 't'
  | '\x08' => some 'b'
  | '\x0c' => some 'f'
  | _ => none

def escapeCodePoint (asciiOnly : Bool) (n : Nat) : List Char :=
  match escapeLetter? (Char.ofNat n) with
  | some letter => ['\\', letter]
  | none => if n < 32 || (asciiOnly && 127 ≤ n) then unicodeEscape n else Text.spell n

def writeText (asciiOnly : Bool) (s : String) : String :=
  String.ofList <|
    '"' :: (Text.codePoints s.toList).flatMap (escapeCodePoint asciiOnly) ++ ['"']

def writeReal (finiteOnly : Bool) (x : Float) : Except Error String :=
  match Binary.ofFloat x with
  | .infinite negative =>
    if finiteOnly then .error .unfit else .ok (if negative then "-Infinity" else "Infinity")
  | .undefined => if finiteOnly then .error .unfit else .ok "NaN"
  | finite => .ok (Decimal.render finite)

namespace Layout

def writeScalar (layout : Layout) : Scalar → Except Error String
  | .null => .ok "null"
  | .bool b => .ok (if b then "true" else "false")
  | .int n => (Value.int n).written
  | .real x => writeReal layout.finiteOnly x
  | .text s => .ok (writeText layout.asciiOnly s)

def lineBreak (layout : Layout) (depth : Nat) : String :=
  match layout.margin with
  | none => ""
  | some margin => "\n" ++ String.join (List.replicate depth margin)

def enter (layout : Layout) (depth : Nat) (isEmpty : Bool) : Except Error Unit :=
  if layout.levels ≤ depth then .error .tooDeep
  else if !isEmpty && layout.itemMark.isNone then .error .mismatch
  else .ok ()

/-- Encloses what was written one level further in. -/
def enclose (layout : Layout) (depth : Nat) (first last : String) : List String → String
  | [] => first ++ last
  | parts =>
    let inner := layout.lineBreak (depth + 1)
    let mark := layout.itemMark.getD "" ++ inner
    first ++ inner ++ mark.intercalate parts ++ layout.lineBreak depth ++ last

end Layout

def ordered {α : Type} (sorted : Bool) (entries : List (String × α)) : List (String × α) :=
  if sorted then entries.mergeSort fun a b => a.1 ≤ b.1 else entries

mutual

def writeAt (layout : Layout) (depth : Nat) : Item → Except Error String
  | .scalar s => layout.writeScalar s
  | .group _ members => do
    layout.enter depth members.isEmpty
    return layout.enclose depth "[" "]" (← writeMembers layout (depth + 1) members)
  | .object entries => do
    layout.enter depth entries.isEmpty
    let parts := ordered layout.sorted (writeEntries layout (depth + 1) entries)
    return layout.enclose depth "\x7b" "\x7d" (← parts.mapM (·.2))
  | .broken e => .error e
  | _ => .error .mismatch

def writeMembers (layout : Layout) (depth : Nat) : List Item → Except Error (List String)
  | [] => .ok []
  | x :: xs => return (← writeAt layout depth x) :: (← writeMembers layout depth xs)

/-- Each entry in writing, with its name beside it. -/
def writeEntries (layout : Layout) (depth : Nat) :
    List (String × Item) → List (String × Except Error String)
  | [] => []
  | (name, x) :: rest =>
    let before := writeText layout.asciiOnly name ++ layout.entryMark.getD ""
    (name, (writeAt layout depth x).map (before ++ ·)) :: writeEntries layout depth rest

end

/-- Writes a plain item. A mark behind names that cannot be written does no harm as long as there
are no names, and is noticed after everything else. -/
def writeItem (layout : Layout) (item : Item) : Except Error String := do
  let text ← writeAt layout 0 item
  if layout.entryMark.isNone && item.hasEntries then throw .mismatch
  return text

def write (layout : Layout) (v : Value) : Except Error String := writeItem layout (.ofValue v)

/-- What a caller asks for, by names that are known. Some of them make no difference. -/
structure Options where
  entries : List (String × Value)

namespace Options

def names : List String :=
  ["indent", "sort_keys", "separators", "ensure_ascii", "default", "cls", "skipkeys",
    "check_circular", "allow_nan"]

def ofEntries (entries : List (String × Value)) : Except Error Options :=
  if entries.all fun entry => names.contains entry.1 then .ok ⟨entries⟩ else .error .mismatch

def find (options : Options) (name : String) : Value := (options.entries.lookup name).getD .null

/-- A margin is a text, or a number of spaces. -/
def margin (machine : Machine) (options : Options) : Except Error (Option String) :=
  match options.find "indent" with
  | .null => .ok none
  | .text s => .ok (some s)
  | v => return some (← Value.repeatText machine " " (← fitting v.int?))

/-- The marks after items and after names. What is not a text cannot be written, which does no harm
as long as nothing has to be. -/
def marks (options : Options) : Except Error (Option String × Option String) :=
  match options.find "separators" with
  | .null => .ok (some (if (options.find "indent").isNull then ", " else ","), some ": ")
  | v => do
    match ← fitting v.elements? with
    | [item, entry] => return (item.text?, entry.text?)
    | _ => throw .unfit

def asciiOnly (options : Options) : Bool :=
  ((options.entries.lookup "ensure_ascii").getD (.bool true)).truthy

/-- Whether someone else is asked how to write what is not a plain value; nobody answers. -/
def asksElsewhere (options : Options) : Bool := !(options.find "default").isNull

/-- All on one line takes both marks from the start. -/
def layout (machine : Machine) (options : Options) : Except Error Layout := do
  let (itemMark, entryMark) ← options.marks
  let margin ← options.margin machine
  if margin.isNone && (itemMark.isNone || entryMark.isNone) then throw .mismatch
  return {
    levels := machine.textLevels, margin, itemMark, entryMark
    sorted := (options.find "sort_keys").truthy, asciiOnly := options.asciiOnly
    finiteOnly := !((options.entries.lookup "allow_nan").getD (.bool true)).truthy }

end Options

/-- The text of an item that is not nothing. A text has no use for a layout. -/
def renderItem (machine : Machine) (options : Options) : Item → Except Error String
  | .scalar (.text s) => do
    let _ ← options.marks
    return writeText options.asciiOnly s
  | item => do writeItem (← options.layout machine) (item.expanded machine options.asksElsewhere)

/-- The text of an item. Nothing at all has no text, whatever else is asked for; but the item itself
cannot be given a second time by name. -/
def render (machine : Machine) (options : List (String × Value)) (item : Item) :
    Except Error (Option String) := do
  if options.any fun entry => entry.1 == "obj" then throw .mismatch
  if item.isNull then return none
  return some (← renderItem machine (← Options.ofEntries options) item)

end JoinOrder.Json
