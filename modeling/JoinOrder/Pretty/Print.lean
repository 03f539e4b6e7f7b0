import JoinOrder.Pretty.Line
import JoinOrder.Text.Blank
import JoinOrder.Writing
/-!
Pretty printing: an item whose line does not fit is broken into its parts, one on each line, and a
long text into pieces that end with blanks.
-/

namespace JoinOrder.Pretty

def spaces (machine : Machine) (n : Nat) : Writing String :=
  Writing.ofExcept (Value.repeatText machine " " n)

def literalOf (chars : List Char) : String := Text.quoted (String.ofList chars)

/-- Fills pieces with words as long as their literals fit; the last piece has less room. -/
def fill (room lastRoom : Int) : List Char → List (List Char) → List (List Char)
  | current, [] => if current.isEmpty then [] else [current]
  | current, word :: rest =>
    let limit := if rest.isEmpty then lastRoom else room
    if limit < (literalOf (current ++ word)).length then
      -- A word that is too long by itself still gets a piece.
      if current.isEmpty then fill room lastRoom word rest
      else current :: fill room lastRoom word rest
    else fill room lastRoom (current ++ word) rest

/-- The pieces of a text: its lines, and the words of lines that are too long. -/
def pieces (room lastRoom : Int) : List (List Char) → List (List Char)
  | [] => []
  | line :: rest =>
    let limit := if rest.isEmpty then lastRoom else room
    let here :=
      if (literalOf line).length ≤ limit then [line] else fill room limit [] (Text.words line)
    here ++ pieces room lastRoom rest

/-- Writes pieces, each further one on a line of its own. -/
def writePieces (machine : Machine) (indent : Nat) : List (List Char) → Writing Unit
  | [] => pure ()
  | [piece] => Writing.text (literalOf piece)
  | piece :: rest => do
    Writing.text (literalOf piece)
    Writing.text ("\n" ++ (← spaces machine indent))
    writePieces machine indent rest

/-- Writes a text that does not fit. At the top level it is put in parentheses. -/
def writeText (style : Style) (indent allowance level : Nat) (s : String) : Writing Unit := do
  let around := if level = 0 then 1 else 0
  let indent := indent + around
  let room := style.width - indent
  match pieces room (room - (allowance + around : Nat)) (Text.lines s.toList) with
  | [] | [_] => Writing.text (Text.quoted s)
  | parts => do
    if level = 0 then Writing.text "("
    writePieces style.machine indent parts
    if level = 0 then Writing.text ")"

/-- What stands around the members of a collection if each has a line of its own, how far in it moves
them, and the members in the order in which they are written. -/
structure Block where
  first : String
  last : String
  shift : Nat
  members : List Item

/-- Sets that are not empty are arranged; streams and views stay on one line. -/
def Block.ofGroup? (kind : Gathering) (members : List Item) : Option Block :=
  match kind, members with
  | .stream, _ | .view, _ | .set _, [] | .frozen _, [] => none
  | .set _, _ => some ⟨"\x7b", "\x7d", 0, Item.arrange id members⟩
  | .frozen _, _ => some ⟨"frozenset(\x7b", "\x7d)", 10, Item.arrange id members⟩
  | kind, _ =>
    let (first, last) := fences kind members.length
    some ⟨first, last, 0, members⟩

structure PartWriter where
  /-- on one line -/
  line : Item → Except Error String
  /-- so far in, and with so many characters after it -/
  write : Nat → Nat → Item → Writing Unit

namespace Style

variable (style : Style)

/-- Whether a line fits that starts `indent` columns in and has `allowance` characters after it. -/
def fits (indent allowance : Nat) (line : String) : Bool :=
  (Text.length line : Int) ≤ style.width - indent - allowance

/-- Fills up the first step behind an opening fence. -/
def writePadding : Writing Unit := do Writing.text (← spaces style.machine (style.step - 1))

/-- Writes members with a mark before each, given the room that is left on the line. -/
def writeMembers (part : PartWriter) (indent allowance : Nat) (gap : String) (room : Int)
    (mark : String) : List Item → Writing Unit
  | [] => pure ()
  | item :: rest => do
    -- The closing fence follows the last member, a comma any other.
    let after := if rest.isEmpty then allowance else 0
    let room := room - after
    let broken (room : Int) (mark : String) : Writing Unit := do
      Writing.text mark
      part.write indent (if rest.isEmpty then allowance else 1) item
      writeMembers part indent allowance gap room gap rest
    if style.compact then
      let line ← Writing.ofExcept (part.line item)
      let wanted : Int := Text.length line + 2
      let isFull := room < wanted
      let room := if isFull then style.width - indent + 1 - after else room
      let mark := if isFull && mark ≠ "" then gap else mark
      if wanted ≤ room then
        Writing.text (mark ++ line)
        writeMembers part indent allowance gap (room - wanted) ", " rest
      else broken room mark
    else broken room mark

def writeBlock (part : PartWriter) (indent allowance : Nat) (block : Block) : Writing Unit := do
  Writing.text block.first
  style.writePadding
  let indent := indent + block.shift + style.step
  let gap := ",\n" ++ (← spaces style.machine indent)
  style.writeMembers part indent (allowance + block.last.length) gap (style.width - indent + 1) ""
    block.members
  Writing.text block.last

end Style

def writeNamed (part : PartWriter) (literal : String → Except Error String) (sign : String)
    (indent allowance : Nat) (gap : String) : List (String × Item) → Writing Unit
  | [] => pure ()
  | (name, item) :: rest => do
    let name ← Writing.ofExcept (literal name)
    Writing.text (name ++ sign)
    let column := indent + Text.length name + sign.length
    part.write column (if rest.isEmpty then allowance else 1) item
    if !rest.isEmpty then Writing.text gap
    writeNamed part literal sign indent allowance gap rest

namespace Style

variable (style : Style)

def writeEntries (part : PartWriter) (indent allowance : Nat) (entries : List (String × Item)) :
    Writing Unit := do
  Writing.text "\x7b"
  style.writePadding
  if !entries.isEmpty then
    let indent := indent + style.step
    let gap := ",\n" ++ (← spaces style.machine indent)
    writeNamed part (fun name => part.line (.text name)) ": " indent (allowance + 1) gap
      (style.ordered entries)
  Writing.text "\x7d"

end Style

def fieldsOf (s : Settings) : List (String × Item) :=
  s.entries.map fun (name, v) =>
    (name, if name = Settings.orderName then .order s.order else .ofValue v)

def writeSettings (machine : Machine) (part : PartWriter) (indent allowance : Nat) (s : Settings) :
    Writing Unit := do
  let first := Settings.className ++ "("
  Writing.text first
  let indent := indent + first.length
  let gap := ",\n" ++ (← spaces machine indent)
  writeNamed part .ok "=" indent allowance gap (fieldsOf s)
  Writing.text ")"

/-- Writes an item that starts `indent` columns in and has `allowance` characters after it. -/
def write (style : Style) : Nat → Nat → Nat → Nat → Item → Writing Unit
  | steps + 3, level, indent, allowance, item => do
    let whole ← Writing.ofExcept (line style (steps + 1) level item)
    if style.fits indent allowance whole then Writing.text whole
    else
      let part : PartWriter := ⟨line style (steps - 1) (level + 1), write style steps (level + 1)⟩
      match item with
      | .scalar (.text s) => writeText style indent allowance level s
      | .group kind members =>
        match Block.ofGroup? kind members with
        | some block => style.writeBlock part indent allowance block
        | none => Writing.text whole
      | .object entries => style.writeEntries part indent allowance entries
      | .settings s => writeSettings style.machine part indent allowance s
      | _ => Writing.text whole
  | _, _, _, _, _ => throw .tooDeep

def print (style : Style) (item : Item) : Writing Unit := do
  write style style.machine.printSteps 0 0 0 item
  Writing.text "\n"

end JoinOrder.Pretty
