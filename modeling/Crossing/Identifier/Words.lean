import Crossing.Text.Blank
import Crossing.Text.Letter

/-!
# The words of an identifier

An identifier in any style is a sequence of words: `makePoint`, `make_point` and `MakePoint` all
hold `make` and `point`. Underscores, colons and blanks separate words, and a word starts at a
capital behind a small letter or a digit, and at the last capital of a run of capitals that a
small letter follows (`HTTPServer` holds `http` and `server`). The words are given in small
letters.
-/

namespace Crossing.Identifier

/-- Characters that stand between words. -/
def isSeparator (c : Char) : Bool := c == '_' || c == ':' || Text.isBlank c

/-- Whether `c`, between `before` and `after`, is the first character of a word. -/
def startsWord (before c : Char) (after : Option Char) : Bool :=
  Text.isUpper c
    && (Text.isLower before || Text.isDigit before
      || (Text.isUpper before && after.any Text.isLower))

/-- Cuts what follows `before` into the rest of its word and the words after that. -/
def cutAfter (before : Char) : List Char → List Char × List (List Char)
  | [] => ([], [])
  | c :: rest =>
    let (word, others) := cutAfter c rest
    if startsWord before c rest.head? then ([], (c :: word) :: others) else (c :: word, others)

/-- The words of a text without separators, as they are spelled. -/
def cut : List Char → List (List Char)
  | [] => []
  | c :: rest =>
    let (word, others) := cutAfter c rest
    (c :: word) :: others

/-- The words of an identifier, in small letters. -/
def words (name : List Char) : List (List Char) :=
  ((Text.runs isSeparator name).flatMap cut).map Text.lower

end Crossing.Identifier
