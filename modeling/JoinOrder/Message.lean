import JoinOrder.Item
import JoinOrder.Writing
/-!
Messages: items written in a row, with something between them and something behind them.
-/

namespace JoinOrder

/-- How the items of a message are joined and ended. -/
structure MessageLayout where
  separator : String
  ending : String

namespace MessageLayout

def default : MessageLayout := ⟨" ", "\n"⟩

def optionNames : List String := ["sep", "end", "flush"]

def textOr (default : String) : Value → Except Error String
  | .null => .ok default
  | v => fitting v.text?

def ofOptions (options : List (String × Value)) : Except Error MessageLayout := do
  if options.any fun option => !optionNames.contains option.1 then throw .mismatch
  let option name := (options.lookup name).getD .null
  return ⟨← textOr default.separator (option "sep"), ← textOr default.ending (option "end")⟩

/-- Writes the items behind the first one. What comes before an item is written before it is known
whether the item can be. -/
def writeOthers (layout : MessageLayout) : List Item → Writing Unit
  | [] => Writing.text layout.ending
  | item :: rest => do
    Writing.text layout.separator
    Writing.text (← Writing.ofExcept item.shown)
    writeOthers layout rest

def write (layout : MessageLayout) : List Item → Writing Unit
  | [] => Writing.text layout.ending
  | item :: rest => do
    Writing.text (← Writing.ofExcept item.shown)
    layout.writeOthers rest

end MessageLayout

end JoinOrder
