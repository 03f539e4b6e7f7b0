import Mathlib
import JoinOrder.Dot.Quoted
/-!
Reading the DOT language, as far as graphs without subgraphs are written in it: identifiers of every
kind, the escapes of labels, and statements with at most one attribute, which is a label.

Character references such as `&amp;` are left as they stand: they are no matter of the language, but of
whatever draws a label.
-/

namespace JoinOrder.Dot

/-! ### Identifiers -/

/-- What an identifier stands for: a text, or markup between angle brackets. -/
inductive Ident where
  | plain (s : List Char)
  | markup (inside : List Char)

/-- What is in quotes and what comes behind them. After a backslash a quote is no end and a line break
does not count; the backslash itself stays in front of everything else. -/
def readQuoted : Bool → List Char → Option (List Char × List Char)
  | _, [] => none
  | false, '"' :: cs => some ([], cs)
  | false, '\\' :: cs => readQuoted true cs
  | true, '"' :: cs => (readQuoted false cs).map fun (s, rest) => ('"' :: s, rest)
  | true, '\n' :: cs => readQuoted false cs
  | escaped, c :: cs => (readQuoted false cs).map fun (s, rest) =>
    (if escaped then '\\' :: c :: s else c :: s, rest)

/-- Markup ends where as many angle brackets were closed as opened. -/
def readMarkup : Nat → List Char → Option (List Char × List Char)
  | _, [] => none
  | 0, '>' :: cs => some ([], cs)
  | depth + 1, '>' :: cs => (readMarkup depth cs).map fun (s, rest) => ('>' :: s, rest)
  | depth, c :: cs => (readMarkup (if c = '<' then depth + 1 else depth) cs).map fun (s, rest) =>
    (c :: s, rest)

def isLetter (c : Char) : Bool := isWordStart c || 0x80 ≤ c.toNat

/-- Digits with a point among them or in front, as many as there are. -/
def readUnsigned (cs : List Char) : Option (List Char × List Char) :=
  match cs.span isDigit with
  | (whole, '.' :: behind) =>
    let (places, rest) := behind.span isDigit
    if whole.isEmpty && places.isEmpty then none else some (whole ++ '.' :: places, rest)
  | (whole, rest) => if whole.isEmpty then none else some (whole, rest)

/-- Words and numerals. Keywords are none. -/
def readBare : List Char → Option (List Char × List Char)
  | '-' :: cs => (readUnsigned cs).map fun (s, rest) => ('-' :: s, rest)
  | cs =>
    if cs.head?.any isLetter then
      let (word, rest) := cs.span fun c => isLetter c || isDigit c
      if isKeyword (String.ofList word) then none else some (word, rest)
    else readUnsigned cs

def readIdent : List Char → Option (Ident × List Char)
  | '"' :: cs => (readQuoted false cs).map fun (s, rest) => (.plain s, rest)
  | '<' :: cs => (readMarkup 0 cs).map fun (s, rest) => (.markup s, rest)
  | cs => (readBare cs).map fun (s, rest) => (.plain s, rest)

/-! ### Labels -/

/-- Parts of a label: characters, references to names of the graph and its parts, and line breaks, which
also say where the line before them goes. -/
inductive Piece where
  | char (c : Char)
  | reference (c : Char)
  | lineBreak (c : Char)
deriving DecidableEq

/-- What a character behind a backslash stands for. -/
def Piece.escaped (c : Char) : Piece :=
  if ['G', 'N', 'E', 'T', 'H', 'L'].contains c then .reference c
  else if ['n', 'l', 'r'].contains c then .lineBreak c
  else .char c

def pieces : List Char → List Piece
  | [] => []
  | '\\' :: c :: cs => .escaped c :: pieces cs
  | c :: cs => .char c :: pieces cs

inductive Label where
  | text (pieces : List Piece)
  | markup (inside : List Char)
deriving DecidableEq

/-- A label that shows a text and nothing else. -/
def Label.literal (s : String) : Label := .text (s.toList.map .char)

def Ident.label : Ident → Label
  | plain s => .text (pieces s)
  | markup inside => .markup inside

/-! ### Statements and graphs -/

def isBlank (c : Char) : Bool := c = ' ' || c = '\t' || c = '\n' || c = '\r'

def skipBlank (cs : List Char) : List Char := cs.dropWhile isBlank

def readName (cs : List Char) : Option (String × List Char) :=
  match readIdent (skipBlank cs) with
  | some (.plain s, rest) => some (String.ofList s, rest)
  | _ => none

/-- Reads a mark, which may have blanks before it. -/
def readMark (mark : Char) (cs : List Char) : Option (List Char) :=
  match skipBlank cs with
  | c :: rest => if c = mark then some rest else none
  | [] => none

/-- What a label shows, and what comes behind the bracket that it stands in. -/
def readValue (cs : List Char) : Option (Label × List Char) := do
  let (value, cs) ← readIdent (skipBlank cs)
  return (value.label, ← readMark ']' cs)

def readLabel (cs : List Char) : Option (Label × List Char) := do
  let (name, cs) ← readName (← readMark '[' cs)
  if name = "label" then readValue (← readMark '=' cs) else none

/-- A statement as it is read. -/
inductive Reading where
  | node (name : String) (label : Label)
  | edge (tail head : String) (label : Label)
deriving DecidableEq

def readStatement (cs : List Char) : Option (Reading × List Char) := do
  let (name, cs) ← readName cs
  match skipBlank cs with
  | '-' :: '-' :: cs =>
    let (head, cs) ← readName cs
    let (label, cs) ← readLabel cs
    return (.edge name head label, cs)
  | cs =>
    let (label, cs) ← readLabel cs
    return (.node name label, cs)

/-- Statements up to the end of a graph, at most so many of them. -/
def readStatements : Nat → List Char → Option (List Reading)
  | 0, _ => none
  | n + 1, cs =>
    match skipBlank cs with
    | '}' :: cs => if skipBlank cs = [] then some [] else none
    | cs => do
      let (statement, cs) ← readStatement cs
      return statement :: (← readStatements n cs)

/-- The statements of a whole graph. -/
def readGraph (s : String) : Option (List Reading) :=
  match s.toList with
  | 'g' :: 'r' :: 'a' :: 'p' :: 'h' :: cs => do readStatements cs.length (← readMark '\x7b' cs)
  | _ => none

end JoinOrder.Dot
