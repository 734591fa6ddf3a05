import Crossing.Text.Letter

/-!
# Tokens of type expressions

A type is spelled with names, keywords, numbers, lifetimes, quoted texts and marks, with blanks
between them where one likes: space, tab, form feed, carriage return and line feed. Names, numbers
and lifetimes are as long as possible, and a keyword is a name of its own, never the start of one.
-/

namespace Crossing

inductive Keyword where
  | function
  | abi
  | object
  | anonymous
  | mutable
  | constant
  | unchecked
  | underscore
  deriving DecidableEq

def Keyword.all : List Keyword :=
  [.function, .abi, .object, .anonymous, .mutable, .constant, .unchecked, .underscore]

def Keyword.text : Keyword → String
  | .function => "fn"
  | .abi => "extern"
  | .object => "dyn"
  | .anonymous => "impl"
  | .mutable => "mut"
  | .constant => "const"
  | .unchecked => "unsafe"
  | .underscore => "_"

inductive Mark where
  | pathSep
  | arrow
  | less
  | greater
  | comma
  | semicolon
  | plus
  | question
  | ampersand
  | star
  | bang
  | openParen
  | closeParen
  | openBracket
  | closeBracket
  deriving DecidableEq

inductive Token where
  | name (text : String)
  | keyword (word : Keyword)
  | number (text : String)
  /-- With the mark in front of its name. -/
  | lifetime (text : String)
  /-- Without the quotes. -/
  | quoted (text : String)
  | mark (mark : Mark)
  deriving DecidableEq

namespace Token

/-- The blanks between tokens. -/
def isSpace (c : Char) : Bool := c = ' ' || c = '\t' || c = '\x0c' || c = '\r' || c = '\n'

def isNameStart (c : Char) : Bool := Text.isAsciiLetter c || c = '_'

def isNameChar (c : Char) : Bool := isNameStart c || Text.isAsciiDigit c

def isNumberChar (c : Char) : Bool := Text.isAsciiDigit c || c = '_'

/-- A name or the keyword that it spells. -/
def ofName (text : String) : Token :=
  match Keyword.all.find? (·.text == text) with
  | some word => .keyword word
  | none => .name text

/-- The types that may stand behind the digits of a number. -/
def suffixes : List (List Char) :=
  [['u', 's', 'i', 'z', 'e'], ['u', '8'], ['u', '1', '6'], ['u', '3', '2'], ['u', '6', '4']]

/-- The suffix at the start of a text, if there is one. -/
def suffixOf (s : List Char) : List Char := (suffixes.find? (·.isPrefixOf s)).getD []

/-- The marks of one character. -/
def markOf? (c : Char) : Option Mark :=
  if c = '<' then some .less
  else if c = '>' then some .greater
  else if c = ',' then some .comma
  else if c = ';' then some .semicolon
  else if c = '+' then some .plus
  else if c = '?' then some .question
  else if c = '&' then some .ampersand
  else if c = '*' then some .star
  else if c = '!' then some .bang
  else if c = '(' then some .openParen
  else if c = ')' then some .closeParen
  else if c = '[' then some .openBracket
  else if c = ']' then some .closeBracket
  else none

/-- The token that a non-blank character starts, and the text behind it. -/
def next (c : Char) (rest : List Char) : Option (Token × List Char) :=
  if isNameStart c then
    some (ofName (String.ofList (c :: rest.takeWhile isNameChar)), rest.dropWhile isNameChar)
  else if Text.isAsciiDigit c then
    let digits := rest.takeWhile isNumberChar
    let behind := rest.dropWhile isNumberChar
    let suffix := suffixOf behind
    some (.number (String.ofList (c :: digits ++ suffix)), behind.drop suffix.length)
  else if c = '\'' then
    match rest with
    | d :: _ =>
      if isNameStart d then
        some (.lifetime (String.ofList (c :: rest.takeWhile isNameChar)),
          rest.dropWhile isNameChar)
      else none
    | [] => none
  else if c = '"' then
    match rest.dropWhile (· != '"') with
    | _ :: behind => some (.quoted (String.ofList (rest.takeWhile (· != '"'))), behind)
    | [] => none
  else if c = ':' then
    match rest with
    | ':' :: behind => some (.mark .pathSep, behind)
    | _ => none
  else if c = '-' then
    match rest with
    | '>' :: behind => some (.mark .arrow, behind)
    | _ => none
  else (markOf? c).map fun m => (.mark m, rest)

/-- The tokens of a text, of which the first argument bounds the length. -/
def scanFrom : Nat → List Char → Option (List Token)
  | _, [] => some []
  | 0, _ :: _ => none
  | fuel + 1, c :: rest =>
    if isSpace c then scanFrom fuel rest
    else do
      let (token, behind) ← next c rest
      let tokens ← scanFrom fuel behind
      pure (token :: tokens)

/-- The tokens of a text; none when some part of it is no token. -/
def scan (s : List Char) : Option (List Token) := scanFrom s.length s

end Token

end Crossing
