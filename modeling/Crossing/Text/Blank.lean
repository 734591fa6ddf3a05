/-!
# Blank characters

What counts as blank at the ends of a text and between its fields: the ASCII separators and the
spaces of Unicode. `trim` drops the characters of a class from both ends, and `strip` drops blanks;
`runs` cuts a text at the characters of any class, and `fields` cuts it at blanks.
-/

namespace Crossing.Text

/-- Blank characters: tab to carriage return, the four information separators, space, and the
spaces and line separators beyond ASCII. -/
def isBlank (c : Char) : Bool :=
  let n := c.toNat
  if n < 128 then (decide (9 ≤ n) && decide (n ≤ 13)) || (decide (28 ≤ n) && decide (n ≤ 32))
  else n == 0x85 || n == 0xA0 || n == 0x1680 || (decide (0x2000 ≤ n) && decide (n ≤ 0x200A))
    || n == 0x2028 || n == 0x2029 || n == 0x202F || n == 0x205F || n == 0x3000

/-- The text without the characters of a class at its ends. -/
def trim (p : Char → Bool) (s : List Char) : List Char :=
  ((s.dropWhile p).reverse.dropWhile p).reverse

/-- The text without the blanks at its ends. -/
def strip (s : List Char) : List Char := trim isBlank s

/-- The blanks that may stand around a number: all but the information separators. -/
def isNumberBlank (c : Char) : Bool := isBlank c && !(28 ≤ c.toNat && c.toNat ≤ 31)

/-- The run that a text starts with, and the other runs, where `sep` ends a run. -/
def runsFrom (sep : Char → Bool) : List Char → List Char × List (List Char)
  | [] => ([], [])
  | c :: rest =>
    let (run, others) := runsFrom sep rest
    if sep c then ([], if run.isEmpty then others else run :: others) else (c :: run, others)

/-- The maximal non-empty runs of characters outside `sep`, in order. -/
def runs (sep : Char → Bool) (s : List Char) : List (List Char) :=
  let (run, others) := runsFrom sep s
  if run.isEmpty then others else run :: others

/-- The parts of a text between blanks. -/
def fields (s : List Char) : List (List Char) := runs isBlank s

end Crossing.Text
