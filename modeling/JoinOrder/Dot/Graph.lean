import JoinOrder.Dot.Encoding
import JoinOrder.Dot.Quoted
import JoinOrder.SortKey
import JoinOrder.Value
/-!
Graphs in the DOT language: a head, default attributes and statements, one on each line.
-/

namespace JoinOrder.Dot

/-- An attribute, unless it has no value. Its name and value have to be texts. -/
def attribute? (name : Value) : Value → Except Error (Option String)
  | .null => .ok none
  | v => return some (quote (← fitting name.text?) ++ "=" ++ quote (← fitting v.text?))

/-- The attributes of a list in its order. -/
def attributeParts (attributes : List (Value × Value)) : Except Error (List String) := do
  return (← attributes.mapM fun (name, v) => attribute? name v).filterMap id

def byName (entries : List (String × Value)) : List (Value × Value) :=
  (entries.mergeSort fun a b => a.1 ≤ b.1).map fun (name, v) => (.text name, v)

def bracket : List String → String
  | [] => ""
  | parts => " [" ++ " ".intercalate parts ++ "]"

inductive Statement where
  /-- a node whose label shows a text -/
  | node (name : String) (label : Value) (attributes : Value)
  /-- an edge with or without a label, which may be markup -/
  | edge (tail head : String) (label : Option String)
  /-- what cannot be written -/
  | broken (e : Error)

namespace Statement

/-- The name under which an attribute list may stand among the attributes. -/
def listName : String := "_attributes"

/-- The attributes that may stand beside a name and a label. -/
def namedAttributes : Value → Except Error (List (String × Value))
  | .object entries =>
    if entries.any fun entry => ["self", "name", "label"].contains entry.1 then .error .mismatch
    else .ok entries
  | _ => .error .mismatch

def pairOf (v : Value) : Except Error (Value × Value) := do
  match ← fitting v.elements? with
  | [name, v] => return (name, v)
  | _ => throw .unfit

/-- The parts of an attribute list: an object, or pairs in the order in which they are written. -/
def listParts (v : Value) : Except Error (List String) :=
  match v with
  | .object entries => attributeParts (byName entries)
  | v => do
    if !v.truthy then return []
    let parts ← (← fitting v.elements?).mapM fun pair => do
      let (name, v) ← pairOf pair
      attribute? name v
    return parts.filterMap id

/-- Attributes in the order of their names, and then those of the list among them. -/
def attributeTexts (attributes : Value) : Except Error (List String) := do
  let entries ← namedAttributes attributes
  let named ← attributeParts (byName (entries.filter fun entry => entry.1 ≠ listName))
  return named ++ (← listParts ((entries.lookup listName).getD .null))

def line : Statement → Except Error String
  | node name label attributes => do
    let some label := label.text? | throw .absentMember
    let parts ← attributeTexts attributes
    return "\t" ++ quote name ++ bracket (("label=" ++ quoteLabel label) :: parts) ++ "\n"
  | edge tail head label =>
    .ok <| "\t" ++ quoteEnd tail ++ " -- " ++ quoteEnd head ++
      bracket (label.toList.map fun s => "label=" ++ quote s) ++ "\n"
  | broken e => .error e

end Statement

/-- Default attributes: names may be any scalars as long as they are not written. -/
abbrev Defaults := List (Scalar × Value)

namespace Defaults

/-- Sets an attribute; one that is there already keeps its place. -/
def set (name : Scalar) (v : Value) : Defaults → Defaults
  | [] => [(name, v)]
  | entry :: rest =>
    if entry.1.atom = name.atom then (entry.1, v) :: rest else entry :: set name v rest

/-- Default attributes are an object, a list of pairs or nothing at all. -/
def ofValue : Value → Except Error Defaults
  | .null => .ok []
  | .object entries => .ok (entries.map fun (name, v) => (.text name, v))
  | v => do
    let pairs ← (← fitting v.elements?).mapM fun pair => do
      let (name, v) ← Statement.pairOf pair
      return (← fitting name.scalar?, v)
    return pairs.foldl (fun defaults (name, v) => defaults.set name v) []

/-- The attributes in the order of their names, which have to be comparable. -/
def parts (defaults : Defaults) : Except Error (List String) := do
  let sorted ← fitting (SortKey.sortBy? (fun entry => .atom entry.1.atom) defaults)
  attributeParts (sorted.map fun (name, v) => (.scalar name, v))

end Defaults

/-! Some options are about pictures made of a graph. They are checked, but the text of the graph
does not depend on them. -/

namespace Picture

def engines : List String :=
  ["dot", "neato", "twopi", "circo", "fdp", "sfdp", "patchwork", "osage"]

def formats : List String :=
  ["bmp", "canon", "dot", "gv", "xdot", "xdot1.2", "xdot1.4", "cgimage", "cmap", "eps", "exr", "fig",
    "gd", "gd2", "gif", "gtk", "ico", "imap", "cmapx", "imap_np", "cmapx_np", "ismap", "jp2", "jpg",
    "jpeg", "jpe", "json", "json0", "dot_json", "xdot_json", "pct", "pict", "pdf", "pic", "plain",
    "plain-ext", "png", "pov", "ps", "ps2", "psd", "sgi", "svg", "svgz", "svg_inline", "tga", "tif",
    "tiff", "tk", "vml", "vmlz", "vrml", "wbmp", "webp", "xlib", "x11"]

def renderers : List String :=
  ["cairo", "dot", "fig", "gd", "gdiplus", "map", "pic", "pov", "ps", "svg", "tk", "vml", "vrml",
    "xdot"]

def formatters : List String := ["cairo", "core", "gd", "gdiplus", "gdwbmp", "xlib"]

def optionNames : List String :=
  ["format", "engine", "renderer", "formatter", "encoding", "filename", "directory"]

/-- One of a list of names, in letters of either case. -/
def checkName (known : List String) : Value → Except Error Unit
  | .null => .ok ()
  | .text s => if known.contains s.toLower then .ok () else .error .unfit
  | _ => .error .absentMember

def checkExactName (known : List String) (v : Value) : Except Error Unit := do
  let name ← fitting v.scalar?
  if v.isNull || known.any fun s => Scalar.text s == name then return
  throw .unfit

def checkText : Value → Except Error Unit
  | .null | .text _ => .ok ()
  | _ => .error .mismatch

def checkEncoding : Value → Except Error Unit
  | .null => .ok ()
  | .text s => Encoding.check s
  | _ => .error .mismatch

def check (option : String → Value) : Except Error Unit := do
  checkName formats (option "format")
  checkName engines (option "engine")
  checkExactName renderers (option "renderer")
  checkExactName formatters (option "formatter")
  checkEncoding (option "encoding")
  checkText (option "filename")
  checkText (option "directory")

end Picture

/-- What goes around the statements of a graph. -/
structure Preamble where
  comment : Value
  name : Value
  strict : Bool
  /-- default attributes of the graph, its nodes and its edges -/
  defaults : List (String × Defaults)
  /-- lines that come before all statements -/
  body : List Value

namespace Preamble

def optionNames : List String :=
  ["name", "comment", "strict", "graph_attr", "node_attr", "edge_attr", "body"]

def bodyOf : Value → Except Error (List Value)
  | .null => .ok []
  | v => fitting v.elements?

def isKnown (name : String) : Bool := optionNames.contains name || Picture.optionNames.contains name

def ofOptions (options : List (String × Value)) : Except Error Preamble := do
  if options.any fun option => !isKnown option.1 then throw .mismatch
  let option name := (options.lookup name).getD .null
  Picture.check option
  let defaults ← ["graph", "node", "edge"].mapM fun kind => do
    return (kind, ← Defaults.ofValue (option (kind ++ "_attr")))
  return {
    comment := option "comment", name := option "name", strict := (option "strict").truthy
    defaults, body := ← bodyOf (option "body") }

def commentLine (f : Preamble) : String :=
  if f.comment.truthy then "// " ++ f.comment.shown ++ "\n" else ""

def headLine (f : Preamble) : Except Error String := do
  let name ← if f.name.truthy then do pure (quote (← fitting f.name.text?) ++ " ") else pure ""
  return (if f.strict then "strict " else "") ++ "graph " ++ name ++ "\x7b\n"

def defaultLines (f : Preamble) : Except Error (List String) :=
  (f.defaults.filter fun entry => !entry.2.isEmpty).mapM fun (kind, defaults) => do
    return "\t" ++ kind ++ bracket (← defaults.parts) ++ "\n"

def enclose (f : Preamble) (lines : List String) : Except Error String := do
  let head ← f.headLine
  let defaults ← f.defaultLines
  let body ← fitting (f.body.mapM Value.text?)
  return f.commentLine ++ head ++ String.join (defaults ++ body ++ lines) ++ "\x7d\n"

end Preamble

end JoinOrder.Dot
