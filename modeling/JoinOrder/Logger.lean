import JoinOrder.Message
import JoinOrder.Pretty.Print
/-!
Loggers print items with a heading before them, or one item at a time in pretty form, or nothing.
-/

namespace JoinOrder

/-- What comes before the items of a message. -/
inductive Heading where
  | none
  | fixed (s : String)
  /-- one heading for each message, until they are used up -/
  | drawn (values : List Value)
  | unusable

namespace Heading

def ofValue : Value → Heading
  | .text s => if s = "" then none else fixed s
  | v => if v.truthy then unusable else none

def take : Heading → Except Error (List Item) × Heading
  | none => (.ok [], none)
  | fixed s => (.ok [.text s], fixed s)
  | drawn (v :: rest) => (.ok [.ofValue v], drawn rest)
  | drawn [] => (.error .usedUp, drawn [])
  | unusable => (.error .mismatch, unusable)

end Heading

structure Logger where
  enabled : Bool
  pretty : Bool
  heading : Heading

namespace Logger

/-- Where pretty text goes instead, which has to be nothing or a place that can be written to. -/
def streamName : String := "stream"

def itemName : String := "object"

/-- The one item of a pretty message. It may come by name. -/
def prettyItem (items : List Item) (options : List (String × Value)) : Except Error Item :=
  match items, options.lookup itemName with
  | [item], none => .ok item
  | [], some v => .ok (.ofValue v)
  | _, _ => .error .mismatch

/-- Writes the pretty form of exactly one item. -/
def writePretty (machine : Machine) (items : List Item) (options : List (String × Value)) :
    Writing Unit := do
  let item ← Writing.ofExcept (prettyItem items options)
  let names := [streamName, itemName] ++ Pretty.Style.optionNames
  if options.any fun option => !names.contains option.1 then throw .mismatch
  Pretty.print (← Writing.ofExcept (Pretty.Style.ofOptions machine options)) item

/-- What a pretty message comes to. Nothing is seen of what is written elsewhere. -/
def printPretty (machine : Machine) (items : List Item) (options : List (String × Value)) :
    String × Except Error Unit :=
  let (text, result) := (writePretty machine items options).output
  match options.lookup streamName with
  | none => (text, result)
  | some .null => ("", result)
  -- As soon as anything is written, the place turns out to be none.
  | some _ => ("", if text = "" then result else .error .absentMember)

def writePlain (heading : Except Error (List Item)) (items : List Item)
    (options : List (String × Value)) : Writing Unit := do
  let before ← Writing.ofExcept heading
  let layout ← Writing.ofExcept (MessageLayout.ofOptions options)
  layout.write (before ++ items)

/-- Logs a message: what is printed, whether it worked, and the logger for the next message. -/
def log (machine : Machine) (l : Logger) (items : List Item) (options : List (String × Value)) :
    String × Except Error Unit × Logger :=
  if !l.enabled then ("", .ok (), l)
  else if l.pretty then
    let (text, result) := printPretty machine items options
    (text, result, l)
  else
    let (heading, next) := l.heading.take
    let (text, result) := (writePlain heading items options).output
    (text, result, { l with heading := next })

end Logger

end JoinOrder
