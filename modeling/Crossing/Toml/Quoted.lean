import Crossing.Json.Parser

/-!
# Quoted texts in TOML

Texts between quotation marks, with escapes, and texts between apostrophes, as they stand. Between
marks written three times a text may go over several lines: a line end right behind the opening
marks is dropped, a backslash at the end of a line takes the blanks and line ends behind it away,
and up to two marks more before the closing ones belong to the text.
-/

namespace Crossing.Toml

/-- What is left to read. -/
abbrev Input := List Char

def isGap (c : Char) : Bool := c == ' ' || c == '\t'

def skipGap (s : Input) : Input := s.dropWhile isGap

/-- Control characters other than tab, which no text may hold. -/
def isControl (c : Char) : Bool := (decide (c.toNat < 32) && c != '\t') || c.toNat == 127

/-- The character of a number, if it is one. -/
def scalar? (n : Nat) : Option Char :=
  if n < 0xD800 ∨ (0xE000 ≤ n ∧ n < 0x110000) then some (Char.ofNat n) else none

/-- The character whose number some hexadecimal digits spell. -/
def hexChar? (ds : List Char) : Option Char :=
  (ds.foldl (fun n c => n.bind fun n => (Json.Parser.hexValue? c).map (16 * n + ·))
    (some 0)).bind scalar?

/-- The characters that an escape names by a letter or a mark. -/
def namedEscapes : List (Char × Char) :=
  [('b', '\x08'), ('t', '\t'), ('n', '\n'), ('f', '\x0c'), ('r', '\r'), ('e', '\x1b'),
    ('"', '"'), ('\\', '\\')]

/-- The character that is escaped behind a backslash. -/
def escape? : Input → Option (Char × Input)
  | [] => none
  | 'x' :: a :: b :: s => (hexChar? [a, b]).map (·, s)
  | 'u' :: a :: b :: c :: d :: s => (hexChar? [a, b, c, d]).map (·, s)
  | 'U' :: a :: b :: c :: d :: e :: f :: g :: h :: s =>
    (hexChar? [a, b, c, d, e, f, g, h]).map (·, s)
  | c :: s => (namedEscapes.lookup c).map (·, s)

/-- The characters of a text up to its closing quotation mark. The first argument bounds their
number. -/
def basicString? : Nat → Input → Option (List Char × Input)
  | 0, _ => none
  | fuel + 1, s =>
    match s with
    | [] => none
    | '"' :: s => some ([], s)
    | '\\' :: s => do
      let (c, s) ← escape? s
      let (cs, s) ← basicString? fuel s
      pure (c :: cs, s)
    | c :: s =>
      if isControl c then none else do
        let (cs, s) ← basicString? fuel s
        pure (c :: cs, s)

/-- The characters of a text up to its closing apostrophe. -/
def literalString? : Input → Option (List Char × Input)
  | [] => none
  | c :: s =>
    if c = '\'' then some ([], s)
    else if isControl c then none else do
      let (cs, s) ← literalString? s
      pure (c :: cs, s)

/-- Up to two marks behind the closing ones, which belong to the text. -/
def furtherMarks (mark : Char) (s : Input) : List Char × Input :=
  let marks := (s.take 2).takeWhile (· == mark)
  (marks, s.drop marks.length)

/-- The text behind a backslash that is the last of its line. -/
def continued? (s : Input) : Option Input :=
  match skipGap s with
  | '\n' :: s => some (s.dropWhile fun c => isGap c || c == '\n')
  | _ => none

def isLongControl (c : Char) : Bool := isControl c && c != '\n'

/-- The characters of a text up to its three closing quotation marks. The first argument bounds
their number. -/
def longBasicString? : Nat → Input → Option (List Char × Input)
  | 0, _ => none
  | fuel + 1, s =>
    match s with
    | [] => none
    | '"' :: '"' :: '"' :: s => some (furtherMarks '"' s)
    | '\\' :: s =>
      match continued? s with
      | some s => longBasicString? fuel s
      | none => do
        let (c, s) ← escape? s
        let (cs, s) ← longBasicString? fuel s
        pure (c :: cs, s)
    | c :: s =>
      if isLongControl c then none else do
        let (cs, s) ← longBasicString? fuel s
        pure (c :: cs, s)

/-- The characters of a text up to its three closing apostrophes. -/
def longLiteralString? : Input → Option (List Char × Input)
  | [] => none
  | '\'' :: '\'' :: '\'' :: s => some (furtherMarks '\'' s)
  | c :: s =>
    if isLongControl c then none else do
      let (cs, s) ← longLiteralString? s
      pure (c :: cs, s)

/-- The text without a line end at its start. -/
def dropLineEnd : Input → Input
  | '\n' :: s => s
  | s => s

/-- A text on one line, as keys and values may hold it. -/
def shortString? : Input → Option (String × Input)
  | '"' :: s => (basicString? (s.length + 1) s).map fun (cs, s) => (String.ofList cs, s)
  | '\'' :: s => (literalString? s).map fun (cs, s) => (String.ofList cs, s)
  | _ => none

/-- A text in any form. -/
def string? : Input → Option (String × Input)
  | '"' :: '"' :: '"' :: s =>
    (longBasicString? (s.length + 1) (dropLineEnd s)).map fun (cs, s) => (String.ofList cs, s)
  | '\'' :: '\'' :: '\'' :: s =>
    (longLiteralString? (dropLineEnd s)).map fun (cs, s) => (String.ofList cs, s)
  | s => shortString? s

end Crossing.Toml
