import JoinOrder.SortKey
import JoinOrder.Text.Decomposed
import JoinOrder.Text.Digit
import JoinOrder.Value
/-!
The natural order of names: texts are split into words and numerals, and numerals compare as
numbers, so `T2` comes before `T10`.
-/

namespace JoinOrder.Natural

inductive Piece where
  | word (letters : List Char)
  | numeral (n : Nat)
deriving DecidableEq, Repr

/-- Puts a character in front of the word that a list of pieces begins with, if it does. -/
def consLetter (c : Char) : List Piece → List Piece
  | .word letters :: rest => .word (c :: letters) :: rest
  | pieces => .word [c] :: pieces

def closeNumeral : Option Nat → List Piece → List Piece
  | some n, pieces => .numeral n :: pieces
  | none, pieces => pieces

/-- Splits a text, given the value of the decimal digits read just before it. -/
def split : Option Nat → List Char → List Piece
  | pending, [] => closeNumeral pending []
  | pending, c :: rest =>
    match Text.decimalDigit? c with
    | some d => split (some (10 * pending.getD 0 + d)) rest
    -- Any other digit is a numeral by itself, also next to others.
    | none =>
      closeNumeral pending <|
        match Text.loneDigit? c with
        | some d => .numeral d :: split none rest
        | none => consLetter c (split none rest)

/-- Words and numerals take turns, beginning with a word: an empty one stands wherever a numeral has
no word before it. -/
def keys : Bool → List Piece → List SortKey
  | _, [] => []
  | _, .word letters :: rest => .text (String.ofList letters) :: keys true rest
  | true, .numeral n :: rest => .atom (.number n 0) :: keys false rest
  | false, .numeral n :: rest => .text "" :: .atom (.number n 0) :: keys false rest

def ofText (s : String) : SortKey :=
  .tuple (keys false (split none (Text.decomposed s.toList)))

/-- Other scalars sort like numerals, and nothing before all of them. -/
def ofScalar : Scalar → SortKey
  | .text s => ofText s
  | .null => .tuple [.text "", .atom .lowest, .text "2"]
  | s => .tuple [.text "", .atom s.atom]

mutual

def ofValue : Value → SortKey
  | .scalar s => ofScalar s
  | .array items => .tuple (ofItems items)
  | .object entries => .tuple (entries.map fun e => ofText e.1)

def ofItems : List Value → List SortKey
  | [] => []
  | x :: xs => ofValue x :: ofItems xs

end

end JoinOrder.Natural
