import JoinOrder.Item.Order
import JoinOrder.Pretty.Style
/-!
How an item reads on one line. Below the depth that is shown there are dots only, and nobody looks
what they stand for.

Every level takes steps, and there are only so many of them.
-/

namespace JoinOrder.Pretty

def fences (kind : Gathering) (members : Nat) : String × String :=
  match kind, members with
  | .tuple, 1 => ("(", ",)")
  | .tuple, _ => ("(", ")")
  | _, _ => ("[", "]")

def Style.ordered {α : Type} (style : Style) (entries : List (String × α)) : List (String × α) :=
  if style.sorted then entries.mergeSort fun a b => a.1 ≤ b.1 else entries

def line (style : Style) : Nat → Nat → Item → Except Error String
  | steps + 2, level, item => do
    let hidden := style.hides level
    match item with
    | .scalar (.int n) => return style.integerLiteral n
    | .group kind members =>
      if kind ≠ .list && kind ≠ .tuple then item.literal
      else
        let (first, last) := fences kind members.length
        if members.isEmpty then return first ++ last
        if hidden then return first ++ "..." ++ last
        let parts ← members.mapM (line style steps (level + 1))
        return first ++ ", ".intercalate parts ++ last
    | .object entries =>
      if hidden && !entries.isEmpty then return "\x7b...\x7d"
      let parts ← (style.ordered entries).mapM fun (name, x) => do
        return Text.quoted name ++ ": " ++ (← line style steps (level + 1) x)
      return "\x7b" ++ ", ".intercalate parts ++ "\x7d"
    | item => item.literal
  | _, _, _ => .error .tooDeep

end JoinOrder.Pretty
