/-!
Identifiers of the DOT language. Words and numerals stand for themselves, and so does markup between
angle brackets; everything else is put in quotes.
-/

namespace JoinOrder.Dot

def keywords : List String := ["node", "edge", "graph", "digraph", "subgraph", "strict"]

def isDigit (c : Char) : Bool := '0' ≤ c && c ≤ '9'

def isWordStart (c : Char) : Bool := ('a' ≤ c && c ≤ 'z') || ('A' ≤ c && c ≤ 'Z') || c = '_'

def isWord : List Char → Bool
  | [] => false
  | c :: cs => isWordStart c && cs.all fun c => isWordStart c || isDigit c

/-- Digits with a point among them or in front, which needs a digit on one side at least. -/
def isUnsigned (cs : List Char) : Bool :=
  match cs.span isDigit with
  | ([], '.' :: places) => !places.isEmpty && places.all isDigit
  | ([], _) => false
  | (_, []) => true
  | (_, '.' :: places) => places.all isDigit
  | (_, _) => false

def isNumeral : List Char → Bool
  | '-' :: cs => isUnsigned cs
  | cs => isUnsigned cs

/-- A line break at the very end does not count. -/
def trimBreak (cs : List Char) : List Char :=
  if cs.getLast? = some '\n' then cs.dropLast else cs

def isMarkup (s : String) : Bool :=
  match trimBreak s.toList with
  | '<' :: rest => rest.getLast? = some '>'
  | _ => false

def isKeyword (s : String) : Bool := keywords.contains s.toLower

def isBare (s : String) : Bool :=
  let cs := trimBreak s.toList
  (isWord cs || isNumeral cs) && !isKeyword s

/-- Puts a backslash before each quote that has none yet: an even number of backslashes in a row are
backslashes themselves. -/
def escapeQuotes : Bool → List Char → List Char
  | _, [] => []
  | escaped, '"' :: cs => (if escaped then ['"'] else ['\\', '"']) ++ escapeQuotes false cs
  | escaped, '\\' :: cs => '\\' :: escapeQuotes (!escaped) cs
  | _, c :: cs => c :: escapeQuotes false cs

def inQuotes (s : String) : String := String.ofList ('"' :: escapeQuotes false s.toList ++ ['"'])

def quoteText (s : String) : String := if isBare s then s else inQuotes s

def quote (s : String) : String := if isMarkup s then s else quoteText s

def doubleBackslashes (s : String) : String :=
  String.ofList (s.toList.flatMap fun c => if c = '\\' then ['\\', '\\'] else [c])

/-- A label that shows exactly the given text. -/
def quoteLabel (s : String) : String := quoteText (doubleBackslashes s)

/-- The parts before and after the first colon. -/
def splitColon (s : String) : String × String :=
  let (before, after) := s.toList.span (· ≠ ':')
  (String.ofList before, String.ofList (after.drop 1))

/-- The end of an edge: a node, and perhaps a field of it and a side of that field. -/
def quoteEnd (s : String) : String :=
  let (node, rest) := splitColon s
  if rest = "" then quote node
  else
    let (field, side) := splitColon rest
    ":".intercalate ([quote node, quote field] ++ if side = "" then [] else [side])

end JoinOrder.Dot
