/-!
Everything that can go wrong, as causes. Names, values and plans in them are already written out.
-/

namespace JoinOrder

inductive Error where
  /-- a value of another kind was needed -/
  | mismatch
  /-- the kind fits, the value does not -/
  | unfit
  | absentKey
  | absentMember
  | outOfRange
  | absentFile
  | malformedText
  | usedUp
  | tooLarge
  | outOfMemory
  /-- deeper nesting than can be followed -/
  | tooDeep
  | halfCharacter
  | unknownEncoding
  | notRelations (shown : String)
  | notRelation (kind shown : String)
  | countNotInteger (name shown : String)
  | countNegative (name shown : String)
  | attributesNotText (name shown : String)
  | noRelations
  | repeatedIds (shown : String)
  | tooManyRelations (size : Nat) (limit : String)
  | timedOut (limit : String)
  | boundElsewhere (bound configuration : String)
  | otherRelations (plan relations : String)
  /-- what was looked for is written out where that can be done -/
  | notStored (shown : Option String)
  | unknownModel (name : String)
  | unknownSettings (names : String)
  | notPositive (setting shown : String)
  | planNeedsInput
  | planAmbiguous
  | notAScan
  | notAJoin
  | notJoinable (kind shown : String)
  | singleMapping (shown : String)
  /-- a model that a caller brought along has failed, with an error of its own class -/
  | modelFailed (kind message : String)
deriving DecidableEq, Repr

/-- What callers tell errors apart by, as far as checks of what they hand over go. -/
inductive Fault where
  /-- something of another kind was needed -/
  | kind
  /-- the kind fits, the value does not -/
  | value
  /-- too much of what is fine by itself -/
  | excess
  | other
deriving DecidableEq, Repr

namespace Error

def fault : Error → Fault
  | mismatch | notRelations _ | notRelation .. | notJoinable .. | singleMapping _ => .kind
  | unfit | countNotInteger .. | countNegative .. | attributesNotText .. | noRelations
  | repeatedIds _ | boundElsewhere .. | unknownModel _ | unknownSettings _ | notPositive ..
  | planNeedsInput | planAmbiguous => .value
  | tooManyRelations .. => .excess
  | _ => .other

def tooManyText (size limit : String) : String :=
  s!"Cannot optimize {size} relations exhaustively (limit is {limit})"

def timedOutText (limit : String) : String :=
  s!"Optimization did not finish within {limit} seconds"

/-- Faults of the first kinds have no text of their own. -/
def message : Error → Option String
  | mismatch | unfit | absentKey | absentMember | outOfRange | absentFile | malformedText | usedUp
  | tooLarge | outOfMemory | tooDeep | halfCharacter | unknownEncoding => none
  | notRelations shown => some s!"Expected an iterable of relations, not {shown}"
  | notRelation kind shown => some s!"Expected a Relation, not {kind}: {shown}"
  | countNotInteger name shown => some s!"Tuple count of {name} must be an integer, not {shown}"
  | countNegative name shown => some s!"Tuple count of {name} must be non-negative, not {shown}"
  | attributesNotText name shown => some s!"Attributes of {name} must be strings, not {shown}"
  | noRelations => some "Cannot optimize an empty set of relations"
  | repeatedIds shown => some <|
    s!"Relation identities must be unique, but the following ids occur multiple times: {shown}"
  | tooManyRelations size limit => some (tooManyText (toString size) limit)
  | timedOut limit => some (timedOutText limit)
  | boundElsewhere bound configuration => some <|
    s!"Memo table was populated using {bound} and cannot be re-used with {configuration}. " ++
      "Reset the table or use a new one."
  | otherRelations plan relations => some s!"Plan {plan} does not join relations {relations}"
  | notStored shown => shown
  | unknownModel name => some <|
    s!"Unknown cost model '{name}'. Available models are ['cross_product', 'shared_attributes']"
  | unknownSettings names => some s!"Unknown optimizer settings: {names}"
  | notPositive setting shown => some s!"{setting} must be positive, not {shown}"
  | planNeedsInput => some "A join plan requires either a relation or two children"
  | planAmbiguous => some "A join plan cannot be both a leaf and a join node"
  | notAScan => some "This join plan does not represent a base relation."
  | notAJoin => some "This join plan does not represent a join."
  | notJoinable kind shown => some s!"Cannot join object of type {kind}: {shown}"
  | singleMapping shown => some <|
    s!"Expected a collection of rows, not a single mapping: {shown}"
  | modelFailed _ message => some message

end Error

end JoinOrder
