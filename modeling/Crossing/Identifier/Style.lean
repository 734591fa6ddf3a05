import Crossing.Identifier.Words

/-!
# Styles of identifiers

The three spellings of a sequence of words, the test for each, and the symbol under which an item
is exported: the snake case of its module path and name.
-/

namespace Crossing.Identifier

inductive Style where
  | snake
  | camel
  | pascal
  deriving DecidableEq

/-- All styles, in the order they are tried. -/
def Style.all : List Style := [.snake, .camel, .pascal]

def Style.name : Style → String
  | .snake => "snake_case"
  | .camel => "camelCase"
  | .pascal => "PascalCase"

/-- The parts with a separator between them. -/
def joined (separator : List Char) (parts : List (List Char)) : List Char :=
  separator.intercalate parts

/-- A word with a capital first letter. -/
def capitalized : List Char → List Char
  | [] => []
  | c :: rest => Text.upperOf c ++ rest

def toSnake (name : List Char) : List Char := joined ['_'] (words name)

def toPascal (name : List Char) : List Char := (words name).flatMap capitalized

def toCamel (name : List Char) : List Char :=
  match words name with
  | [] => []
  | first :: rest => first ++ rest.flatMap capitalized

def Style.convert : Style → List Char → List Char
  | .snake => toSnake
  | .camel => toCamel
  | .pascal => toPascal

/-- Small ASCII letters and digits. -/
def isSnakeChar (c : Char) : Bool := Text.isAsciiLower c || Text.isAsciiDigit c

/-- Words of small ASCII letters and digits with single underscores between them. The first
argument tells whether a word has begun. -/
def isSnakeFrom : Bool → List Char → Bool
  | begun, [] => begun
  | begun, c :: rest =>
    if isSnakeChar c then isSnakeFrom true rest
    else c == '_' && begun && isSnakeFrom false rest

/-- The text without a line feed at its end. -/
def dropNewline (name : List Char) : List Char :=
  if name.getLast? = some '\n' then name.dropLast else name

/-- Snake case; one line feed at the end is overlooked. -/
def isSnake (name : List Char) : Bool := isSnakeFrom false (dropNewline name)

/-- A non-empty text of letters and digits without underscores. -/
def isSolid (name : List Char) : Bool := !name.isEmpty && name.all Text.isAlphanumeric

/-- Solid texts that start with a small letter; what is snake case is no camel case. -/
def isCamel (name : List Char) : Bool :=
  !name.contains '_' && !isSnake name && name.head?.any Text.isLower && isSolid name

/-- Solid texts that start with a capital. -/
def isPascal (name : List Char) : Bool :=
  !name.contains '_' && name.head?.any Text.isUpper && isSolid name

def Style.matches : Style → List Char → Bool
  | .snake => isSnake
  | .camel => isCamel
  | .pascal => isPascal

/-- The styles that an identifier is in. -/
def stylesOf (name : List Char) : List Style := Style.all.filter (·.matches name)

/-- The first style that an identifier is in. -/
def detect (name : List Char) : Option Style := Style.all.find? (·.matches name)

/-- The exported symbol of an item: its module path and name in snake case. -/
def exportSymbol (modulePath : List String) (name : String) : String :=
  let parts := (modulePath ++ [name]).filter fun part => !part.isEmpty
  String.ofList (joined ['_'] (parts.map fun part => toSnake part.toList))

end Crossing.Identifier
