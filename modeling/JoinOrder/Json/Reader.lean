import JoinOrder.Json.Limits
/-!
Reading JSON text. A number with a fraction or an exponent is a float, any other an integer; of two
entries with one name the later value counts, in the place of the earlier one. The words `NaN`,
`Infinity` and `-Infinity` are numbers too. Of several faults the first in the text is reported.
-/

namespace JoinOrder.Json

/-- Replaces the value of a name, or adds a new entry at the end. -/
def setEntry (name : String) (value : Value) : List (String × Value) → List (String × Value)
  | [] => [(name, value)]
  | entry :: rest =>
    if entry.1 = name then (name, value) :: rest else entry :: setEntry name value rest

def isSpace (c : Char) : Bool := c = ' ' || c = '\t' || c = '\n' || c = '\r'

def skipSpace (cs : List Char) : List Char := cs.dropWhile isSpace

def hexDigit? (c : Char) : Option Nat :=
  if '0' ≤ c && c ≤ '9' then some (c.toNat - 48)
  else if 'a' ≤ c && c ≤ 'f' then some (c.toNat - 87)
  else if 'A' ≤ c && c ≤ 'F' then some (c.toNat - 55)
  else none

def unit? : List Char → Option (Nat × List Char)
  | a :: b :: c :: d :: rest => do
    return (((← hexDigit? a) * 16 + (← hexDigit? b)) * 256 + (← hexDigit? c) * 16 + (← hexDigit? d),
      rest)
  | _ => none

/-- The code point of a 16-bit unit; two halves in a row make one, any other half stands alone. -/
def unicode? (cs : List Char) : Option (Nat × List Char) := do
  let (unit, rest) ← unit? cs
  if !Text.isHighHalf unit then return (unit, rest)
  match rest with
  | '\\' :: 'u' :: more =>
    let (low, beyond) ← unit? more
    return if Text.isLowHalf low then (Text.joinHalves unit low, beyond) else (unit, rest)
  | _ => return (unit, rest)

def escape? : Char → Option Char
  | '"' => some '"'
  | '\\' => some '\\'
  | '/' => some '/'
  | 'b' => some '\x08'
  | 'f' => some '\x0c'
  | 'n' => some '\n'
  | 'r' => some '\r'
  | 't' => some '\t'
  | _ => none

/-- Reads up to the closing quote, given the characters read so far in reverse. -/
def string? : Nat → List Char → List Char → Option (String × List Char)
  | 0, _, _ => none
  | _ + 1, read, '"' :: rest => some (String.ofList read.reverse, rest)
  | fuel + 1, read, '\\' :: 'u' :: rest => do
    let (n, rest) ← unicode? rest
    string? fuel ((Text.spell n).reverse ++ read) rest
  | fuel + 1, read, '\\' :: c :: rest => do
    let c ← escape? c
    string? fuel (c :: read) rest
  | fuel + 1, read, c :: rest => if c.toNat < 32 || c = '\\' then none else string? fuel (c :: read) rest
  | _ + 1, _, [] => none

def isDigit (c : Char) : Bool := '0' ≤ c && c ≤ '9'

def digitsValue (digits : List Char) : Nat := digits.foldl (fun n c => 10 * n + (c.toNat - 48)) 0

/-- A point counts only with digits after it. -/
def fraction (cs : List Char) : List Char × List Char :=
  match cs with
  | '.' :: rest =>
    let digits := rest.takeWhile isDigit
    if digits.isEmpty then ([], cs) else (digits, rest.dropWhile isDigit)
  | _ => ([], cs)

/-- An exponent counts only with digits in it. -/
def exponent (cs : List Char) : Option Int × List Char :=
  match cs with
  | mark :: rest =>
    if mark = 'e' || mark = 'E' then
      let (negative, unsigned) :=
        match rest with
        | '-' :: more => (true, more)
        | '+' :: more => (false, more)
        | _ => (false, rest)
      let digits := unsigned.takeWhile isDigit
      if digits.isEmpty then (none, cs)
      else
        let size : Int := digitsValue digits
        (some (if negative then -size else size), unsigned.dropWhile isDigit)
    else (none, cs)
  | [] => (none, cs)

/-- The float nearest to `digits * 10 ^ e`, where there are so many digits. What is beyond all floats
or below them is not worked out. -/
def scaled (digits : Nat) (length : Nat) (e : Int) : Float :=
  if digits = 0 || length + e < -400 then 0.0
  else if e < 0 then Float.ofScientific digits true e.natAbs
  else Float.ofScientific digits false (min e.natAbs 400)

/-- A number without its sign. Integers may have so many digits. -/
def unsigned (limit : Nat) (negative : Bool) (cs : List Char) : Except Error (Value × List Char) :=
  let whole :=
    match cs with
    | '0' :: _ => ['0']
    | _ => cs.takeWhile isDigit
  if whole.isEmpty then .error .malformedText
  else
    let rest := cs.drop whole.length
    let (places, rest) := fraction rest
    let (power, rest) := exponent rest
    if places.isEmpty && power.isNone then
      if limit < whole.length then .error .unfit
      else
        let n : Int := digitsValue whole
        .ok (.int (if negative then -n else n), rest)
    else
      let digits := whole ++ places
      let x := scaled (digitsValue digits) digits.length (power.getD 0 - places.length)
      .ok (.real (if negative then -x else x), rest)

def wellFormed {α : Type} : Option α → Except Error α
  | some a => .ok a
  | none => .error .malformedText

def word (word : String) (value : Value) (cs : List Char) : Except Error (Value × List Char) :=
  if word.toList.isPrefixOf cs then .ok (value, cs.drop word.length) else .error .malformedText

def infinity : Float := 1.0 / 0.0

/-- A value that is neither an array nor an object nor a text. -/
def plain (limit : Nat) (cs : List Char) : Except Error (Value × List Char) :=
  match cs with
  | 't' :: _ => word "true" (.bool true) cs
  | 'f' :: _ => word "false" (.bool false) cs
  | 'n' :: _ => word "null" .null cs
  | 'N' :: _ => word "NaN" (.real (0.0 / 0.0)) cs
  | 'I' :: _ => word "Infinity" (.real infinity) cs
  | '-' :: 'I' :: rest => word "Infinity" (.real (-infinity)) ('I' :: rest)
  | '-' :: rest => unsigned limit true rest
  | _ => unsigned limit false cs

mutual

/-- Every call gives one unit of fuel to each call it makes. -/
def value (limits : Limits) : Nat → List Char → Except Error (Value × List Char)
  | 0, _ => .error .malformedText
  | fuel + 1, '"' :: rest => do
    let (s, rest) ← wellFormed (string? (fuel + 1) [] rest)
    return (.text s, rest)
  | fuel + 1, '[' :: rest => do
    let inner ← limits.enter
    match skipSpace rest with
    | ']' :: rest => return (.array [], rest)
    | rest => do
      let (read, rest) ← items inner fuel rest
      return (.array read, rest)
  | fuel + 1, '\x7b' :: rest => do
    let inner ← limits.enter
    match skipSpace rest with
    | '\x7d' :: rest => return (.object [], rest)
    | rest => do
      let (read, rest) ← entries inner fuel [] rest
      return (.object read, rest)
  | _ + 1, cs => plain limits.digits cs

def items (limits : Limits) : Nat → List Char → Except Error (List Value × List Char)
  | 0, _ => .error .malformedText
  | fuel + 1, cs => do
    let (item, rest) ← value limits fuel (skipSpace cs)
    match skipSpace rest with
    | ',' :: rest =>
      let (others, rest) ← items limits fuel rest
      return (item :: others, rest)
    | ']' :: rest => return ([item], rest)
    | _ => throw .malformedText

/-- The entries of an object that has some, added to those read before. -/
def entries (limits : Limits) : Nat → List (String × Value) → List Char →
    Except Error (List (String × Value) × List Char)
  | 0, _, _ => .error .malformedText
  | fuel + 1, read, cs =>
    match skipSpace cs with
    | '"' :: rest => do
      let (name, rest) ← wellFormed (string? (fuel + 1) [] rest)
      match skipSpace rest with
      | ':' :: rest =>
        let (v, rest) ← value limits fuel (skipSpace rest)
        let read := setEntry name v read
        match skipSpace rest with
        | ',' :: rest => entries limits fuel read rest
        | '\x7d' :: rest => return (read, rest)
        | _ => throw .malformedText
      | _ => throw .malformedText
    | _ => .error .malformedText

end

def parseWithin (limits : Limits) (s : String) : Except Error Value := do
  let cs := s.toList
  let (v, rest) ← value limits (cs.length + 1) (skipSpace cs)
  if (skipSpace rest).isEmpty then return v
  throw .malformedText

/-- Reads a text of any extent: no value has more levels or digits than its text has characters. -/
def parse (s : String) : Except Error Value := parseWithin ⟨s.length, s.length⟩ s

def read (machine : Machine) (s : String) : Except Error Value := parseWithin (.ofMachine machine) s

end JoinOrder.Json
