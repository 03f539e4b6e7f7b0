import JoinOrder.Dot.Graph
import JoinOrder.JoinGraph
/-!
Drawings of trees, join plans and join graphs.

A node of a tree has a key: a name of its own, or a handle that stands for its identity. Handles are
numbered in the order in which they are met, so a node that is met again is drawn as one node.
-/

namespace JoinOrder.Dot

inductive Key where
  | name (s : String)
  | handle (n : Nat)
deriving DecidableEq, Repr

/-- The name of a key, given the handles met so far. -/
def Key.resolve (met : List Nat) : Key → String × List Nat
  | .name s => (s, met)
  | .handle n =>
    match met.idxOf? n with
    | some i => (toString (i + 1), met)
    | none => (toString (met.length + 1), met ++ [n])

inductive Tree where
  | node (key : Key) (label attributes : Value) (children : List Tree)
  /-- something in the place of a node that cannot be drawn -/
  | broken (key : Key) (e : Error)

namespace Tree

def key : Tree → Key
  | .node key .. | .broken key _ => key

mutual

/-- A statement for the node, and for each child one for the edge to it before those of the child
itself. -/
def statements (met : List Nat) : Tree → List Statement × List Nat
  | .node key label attributes children =>
    let (name, met) := key.resolve met
    let (below, met) := childStatements name met children
    (.node name label attributes :: below, met)
  | .broken _ e => ([.broken e], met)

def childStatements (parent : String) (met : List Nat) : List Tree → List Statement × List Nat
  | [] => ([], met)
  | child :: rest =>
    let (name, met) := child.key.resolve met
    let (below, met) := child.statements met
    let (others, met) := childStatements parent met rest
    (.edge parent name none :: (below ++ others), met)

end

end Tree

def planTree : Plan → Handles → Except Error Tree
  | .scan r _, handles => do
    return .node (.handle handles.top) (.text (← r.shown)) (.object [("style", .text "bold")]) []
  | .join left right tuples, .join n l r => do
    let label := "⨝\n" ++ (← tuples.written) ++ " tuples"
    return .node (.handle n) (.text label) (.object []) [← planTree left l, ← planTree right r]
  | .join .., .scan _ => .error .outOfRange

/-- What is drawn: the text, and the path and format of a picture if one is wanted. -/
structure Drawing where
  source : String
  picture : Option (Value × Value)

namespace Drawing

/-- Draws statements. Two options are about the picture, all others about the text. -/
def draw (options : List (String × Value)) (statements : Except Error (List Statement)) :
    Except Error Drawing := do
  let preamble ← Preamble.ofOptions (options.filter fun option =>
    option.1 ≠ "out_path" && option.1 ≠ "out_format")
  let lines ← (← statements).mapM Statement.line
  let path := (options.lookup "out_path").getD (.text "")
  let format := (options.lookup "out_format").getD (.text "svg")
  return ⟨← preamble.enclose lines, if path.truthy then some (path, format) else none⟩

/-- A drawing of the same kind that is to be carried on. Only nothing can be. -/
def carriedName : String := "_graph"

/-- Draws a tree, whose top node is looked at before anything is carried on. -/
def drawTree (options : List (String × Value)) (top : Except Error Unit)
    (statements : Except Error (List Statement)) : Except Error Drawing :=
  match options.lookup carriedName with
  | none | some .null => draw (options.filter fun option => option.1 ≠ carriedName) statements
  | some _ => do
    top
    throw .absentMember

def ofTree (options : List (String × Value)) (tree : Tree) : Except Error Drawing :=
  let top := match tree with
    | .node .. => .ok ()
    | .broken _ e => .error e
  drawTree options top (.ok (tree.statements []).1)

def ofPlan (options : List (String × Value)) (plan : Item) (handles : Handles) :
    Except Error Drawing :=
  match plan with
  | .plan p =>
    let top := match p with
      | .scan r _ => r.shown.map fun _ => ()
      | .join _ _ tuples => tuples.written.map fun _ => ()
    drawTree options top do return ((← planTree p handles).statements []).1
  | _ => drawTree options (.error .absentMember) (.error .absentMember)

def edgeLabel (shared : Attributes) : Except Error String := do
  let names ← fitting ((← shared.sorted).mapM fun s => (Value.scalar s).text?)
  return ", ".intercalate names

def graphStatements (g : JoinGraph) : Except Error (List Statement) := do
  let nodes ← g.relations.mapM fun r => do
    return Statement.node (← (Value.scalar r.id).written) (.text (← r.shown)) (.object [])
  let edges ← g.walk.mapM fun e => do
    return Statement.edge e.first.id.shown e.second.id.shown (some (← edgeLabel e.shared))
  return nodes ++ edges

/-- Nodes are named by the identities of their relations, edges labelled with what they share. -/
def ofGraph (options : List (String × Value)) (g : JoinGraph) : Except Error Drawing :=
  draw options (graphStatements g)

end Drawing

end JoinOrder.Dot
