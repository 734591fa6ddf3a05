import Crossing.Text.LetterTable
import Crossing.Text.ClassTable

/-!
# Capital and small letters

The letter classes and the two case conversions. The first 128 characters follow a plain rule and
all others the tables. A capital may become several characters (`ß` gives `SS`), and the small
form of capital sigma depends on its neighbours: at the end of a word it is the final one.
-/

namespace Crossing.Text

def isAsciiUpper (c : Char) : Bool := decide (65 ≤ c.toNat) && decide (c.toNat ≤ 90)

def isAsciiLower (c : Char) : Bool := decide (97 ≤ c.toNat) && decide (c.toNat ≤ 122)

def isAsciiDigit (c : Char) : Bool := decide (48 ≤ c.toNat) && decide (c.toNat ≤ 57)

def isAsciiLetter (c : Char) : Bool := isAsciiUpper c || isAsciiLower c

/-- Capital letters. -/
def isUpper (c : Char) : Bool :=
  if c.toNat < 128 then isAsciiUpper c else upperRuns.any (·.contains c.toNat)

/-- Small letters. -/
def isLower (c : Char) : Bool :=
  if c.toNat < 128 then isAsciiLower c else lowerRuns.any (·.contains c.toNat)

/-- Digits, superscripts and circled digits included. -/
def isDigit (c : Char) : Bool :=
  if c.toNat < 128 then isAsciiDigit c else inBands digitBands c.toNat

/-- Letters, digits and other numerals. -/
def isAlphanumeric (c : Char) : Bool :=
  if c.toNat < 128 then isAsciiLetter c || isAsciiDigit c
  else inBands alphanumericBands c.toNat

/-- Characters that can be shown as they are. -/
def isPrintable (c : Char) : Bool :=
  if c.toNat < 128 then decide (32 ≤ c.toNat) && decide (c.toNat < 127)
  else !inBands unprintableBands c.toNat

/-- What a digit of a positional system stands for. -/
def digitValue? (c : Char) : Option Nat :=
  if c.toNat < 128 then if isAsciiDigit c then some (c.toNat - 48) else none
  else (decimalZeros.find? fun z => decide (z ≤ c.toNat) && decide (c.toNat < z + 10)).map
    (c.toNat - ·)

/-- The number that a text of positional digits spells; none for any other text. -/
def natural? (s : List Char) : Option Nat :=
  if s.isEmpty then none
  else s.foldl (fun n c => n.bind fun n => (digitValue? c).map (10 * n + ·)) (some 0)

/-- Letters with a case: capital, small or title. -/
def isCased (c : Char) : Bool :=
  isUpper c || isLower c || (!decide (c.toNat < 128) && titleRuns.any (·.contains c.toNat))

/-- Characters passed over when looking for the letters next to a capital sigma. -/
def isSkipped (c : Char) : Bool :=
  if c.toNat < 128 then "'.:^`".toList.contains c else inBands skippedBands c.toNat

/-- The capital form of a character. -/
def upperOf (c : Char) : List Char :=
  if c.toNat < 128 then [if isAsciiLower c then Char.ofNat (c.toNat - 32) else c]
  else (upperExpansions.lookup c).getD [shifted toUpperShifts c]

/-- The small form of a character other than capital sigma; dotted capital I keeps its dot. -/
def lowerOf (c : Char) : List Char :=
  if c.toNat < 128 then [if isAsciiUpper c then Char.ofNat (c.toNat + 32) else c]
  else if c = 'İ' then ['i', '\u0307'] else [shifted toLowerShifts c]

def upper (s : List Char) : List Char := s.flatMap upperOf

/-- Whether a place ends a word: a letter is the first thing before it (nearest first) and none
the first thing after it, marks aside. -/
def endsWord (before after : List Char) : Bool :=
  (before.dropWhile isSkipped).head?.any isCased && !(after.dropWhile isSkipped).head?.any isCased

/-- The small form of a text that follows `before`, given nearest first. -/
def lowerAfter (before : List Char) : List Char → List Char
  | [] => []
  | c :: rest =>
    (if c = 'Σ' then [if endsWord before rest then 'ς' else 'σ'] else lowerOf c)
      ++ lowerAfter (c :: before) rest

def lower (s : List Char) : List Char := lowerAfter [] s

end Crossing.Text
