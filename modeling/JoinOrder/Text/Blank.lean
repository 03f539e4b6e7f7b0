/-!
Blanks and line breaks of all scripts.
-/

namespace JoinOrder.Text

/-- Code points of white space: the first and last of each run. -/
def blankRuns : List (Nat × Nat) := [
  (0x09, 0x0d), (0x1c, 0x20), (0x85, 0x85), (0xa0, 0xa0), (0x1680, 0x1680), (0x2000, 0x200a),
  (0x2028, 0x2029), (0x202f, 0x202f), (0x205f, 0x205f), (0x3000, 0x3000)]

def isBlank (c : Char) : Bool :=
  blankRuns.any fun (first, last) => first ≤ c.toNat && c.toNat ≤ last

def breaks : List Nat := [0x0a, 0x0b, 0x0c, 0x0d, 0x1c, 0x1d, 0x1e, 0x85, 0x2028, 0x2029]

def isBreak (c : Char) : Bool := breaks.contains c.toNat

/-- The lines of a text, each with the break that ends it. A carriage return and a line feed are one
break. -/
def lines : List Char → List (List Char)
  | [] => []
  | '\r' :: '\n' :: rest => ['\r', '\n'] :: lines rest
  | c :: rest =>
    if isBreak c then [c] :: lines rest
    else
      match rest, lines rest with
      | _ :: _, line :: others => (c :: line) :: others
      | _, others => [c] :: others

def splitLines (s : String) : List String :=
  (lines s.toList).map fun line => String.ofList (line.filter (!isBreak ·))

/-- The words of a line, each with the blanks after it. Blanks at the beginning are a word too. -/
def words : List Char → List (List Char)
  | [] => []
  | c :: rest =>
    match words rest with
    | (d :: word) :: others =>
      if isBlank c && !isBlank d then [c] :: (d :: word) :: others else (c :: d :: word) :: others
    | others => [c] :: others

end JoinOrder.Text
