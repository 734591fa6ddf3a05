import Crossing.Text.Quoted

/-!
# Name templates

A template is a text in which `\x7bsymbol\x7d` stands for one given text. Braces written twice
stand for themselves. Between its braces the name may be followed by an index into the text in
square brackets, by `!` and a conversion (`s` as it is, `r` between quotes, `a` between quotes in
ASCII), and by `:` and a width and cut: fill character, side, width, precision. `expand` gives the
filled text or says what is wrong with the template.
-/

namespace Crossing.Text.Template

/-- What is wrong with a template. -/
inductive Fault where
  /-- Braces, conversion or width that do not make a field, or a number beyond the greatest. -/
  | malformed
  /-- A field with another name. -/
  | unknownName
  /-- A field by number or without a name, or an index behind the end of the text. -/
  | missingPosition
  /-- An attribute of the text. -/
  | missingAttribute
  /-- An index that is no number. -/
  | indexNotNumber
  /-- A text too long to be made. -/
  | tooLong
  deriving DecidableEq

def Fault.message : Fault → String
  | .malformed => "malformed template"
  | .unknownName => "a template names an unknown field"
  | .missingPosition => "a template asks for a missing part"
  | .missingAttribute => "a template asks for a missing attribute"
  | .indexNotNumber => "a template has an index that is no number"
  | .tooLong => "a template makes too long a text"

/-- The greatest number in a template. -/
def maxNumber : Nat := 9223372036854775807

/-- The greatest width of a field. -/
def maxWidth : Nat := 999999999

/-- The digits at the start of a text as a number behind the digits of another one, and the
rest. Digits that lead beyond the greatest number are refused. -/
def numberFrom : Nat → List Char → Except Fault (Nat × List Char)
  | n, [] => .ok (n, [])
  | n, c :: rest =>
    match digitValue? c with
    | none => .ok (n, c :: rest)
    | some d => if maxNumber < 10 * n + d then .error .malformed else numberFrom (10 * n + d) rest

/-- A number at the start of a text, if there is one, and the rest. -/
def leadingNumber (s : List Char) : Except Fault (Option Nat × List Char) := do
  let (n, rest) ← numberFrom 0 s
  pure (if rest.length = s.length then none else some n, rest)

/-- The number that a whole text spells, if it is one. -/
def number? (s : List Char) : Except Fault (Option Nat) := do
  let (n, rest) ← leadingNumber s
  pure (if rest.isEmpty then n else none)

/-- How a field was given: its name with indices, its conversion, and its width text with whether
that text holds fields of its own. -/
structure Field where
  name : List Char
  conversion : Option Char
  width : List Char
  nested : Bool

/-- Where the name of a field ends. -/
inductive NameEnd where
  | brace
  | colon
  | exclamation

/-- The name of a field, what ended it, and the rest. Inside square brackets only the closing
bracket counts. -/
def fieldName : Bool → List Char → Except Fault (List Char × NameEnd × List Char)
  | _, [] => .error .malformed
  | true, c :: rest => do
    let (name, stop, rest') ← fieldName (c != ']') rest
    pure (c :: name, stop, rest')
  | false, c :: rest =>
    if c = '\x7b' then .error .malformed
    else if c = '\x7d' then .ok ([], .brace, rest)
    else if c = ':' then .ok ([], .colon, rest)
    else if c = '!' then .ok ([], .exclamation, rest)
    else do
      let (name, stop, rest') ← fieldName (c == '[') rest
      pure (c :: name, stop, rest')

/-- The width text up to the brace that closes the field, and whether it holds fields itself. The
first argument counts the open braces inside it. -/
def widthText : Nat → List Char → Except Fault (List Char × Bool × List Char)
  | _, [] => .error .malformed
  | depth, c :: rest =>
    if c = '\x7b' then do
      let (text, _, rest') ← widthText (depth + 1) rest
      pure (c :: text, true, rest')
    else if c = '\x7d' then
      match depth with
      | 0 => .ok ([], false, rest)
      | depth + 1 => do
        let (text, nested, rest') ← widthText depth rest
        pure (c :: text, nested, rest')
    else do
      let (text, nested, rest') ← widthText depth rest
      pure (c :: text, nested, rest')

/-- The field behind an opening brace, and the rest of the template. -/
def field (s : List Char) : Except Fault (Field × List Char) := do
  let (name, stop, rest) ← fieldName false s
  match stop with
  | .brace => pure (⟨name, none, [], false⟩, rest)
  | .colon => do
    let (width, nested, rest) ← widthText 0 rest
    pure (⟨name, none, width, nested⟩, rest)
  | .exclamation =>
    match rest with
    | [] => .error .malformed
    | conversion :: '\x7d' :: rest => pure (⟨name, some conversion, [], false⟩, rest)
    | conversion :: ':' :: rest => do
      let (width, nested, rest) ← widthText 0 rest
      pure (⟨name, some conversion, width, nested⟩, rest)
    | _ :: _ => .error .malformed

/-- The parts of the name of a field: the first name and the steps behind it. -/
def isStep (c : Char) : Bool := c == '.' || c == '['

/-- Follows the steps of a field from a text. The first argument bounds their number. -/
def follow : Nat → List Char → List Char → Except Fault (List Char)
  | _, [], value => .ok value
  | 0, _ :: _, _ => .error .malformed
  | fuel + 1, c :: rest, value =>
    if c = '.' then
      if (rest.takeWhile fun c => !isStep c).isEmpty then .error .malformed
      else .error .missingAttribute
    else if c = '[' then
      let index := rest.takeWhile (· != ']')
      match rest.dropWhile (· != ']') with
      | [] => .error .malformed
      | _ :: rest =>
        if index.isEmpty then .error .malformed
        else do
          match ← number? index with
          | none => throw .indexNotNumber
          | some i =>
            match value[i]? with
            | some v => follow fuel rest [v]
            | none => throw .missingPosition
    else .error .malformed

/-- The text that the name of a field stands for. -/
def lookup (value : List Char) (name : List Char) : Except Fault (List Char) := do
  let first := name.takeWhile fun c => !isStep c
  let number ← number? first
  if first = "symbol".toList then
    follow (name.length + 1) (name.dropWhile fun c => !isStep c) value
  else if first.isEmpty || number.isSome then throw .missingPosition
  else throw .unknownName

def convert (value : List Char) : Option Char → Except Fault (List Char)
  | none => .ok value
  | some c =>
    if c = 's' then .ok value
    else if c = 'r' then .ok (quoted value)
    else if c = 'a' then .ok (asciiOnly (quoted value))
    else .error .malformed

/-- The side that a text stands on when it is padded. -/
inductive Side where
  | left
  | right
  | middle

def sideOf? (c : Char) : Option Side :=
  if c = '<' then some .left else if c = '>' then some .right
  else if c = '^' then some .middle else none

/-- A text cut to a precision and padded to a width. -/
def pad (fill : Char) (side : Side) (width precision : Option Nat) (value : List Char) :
    List Char :=
  let value := match precision with
    | some n => value.take n
    | none => value
  let missing := width.getD 0 - value.length
  let before := match side with
    | .left => 0
    | .right => missing
    | .middle => missing / 2
  List.replicate before fill ++ value ++ List.replicate (missing - before) fill

/-- The fill character and the side at the start of a width text. Both may be left out; the side
`=` is refused, as it is for numbers only. -/
def fillAndSide (s : List Char) : Except Fault (Option Char × Side × List Char) :=
  match s with
  | f :: c :: rest =>
    if c = '=' then .error .malformed
    else match sideOf? c with
      | some side => .ok (some f, side, rest)
      | none => single s
  | s => single s
where
  /-- The side alone. -/
  single : List Char → Except Fault (Option Char × Side × List Char)
    | [] => .ok (none, .left, [])
    | c :: rest =>
      if c = '=' then .error .malformed
      else match sideOf? c with
        | some side => .ok (none, side, rest)
        | none => .ok (none, .left, c :: rest)

/-- A text in the width that a width text asks for. Signs, separators of thousands and types other
than `s` are refused. -/
def render (value width : List Char) : Except Fault (List Char) := do
  let (fill, side, rest) ← fillAndSide width
  let (fill, rest) := match fill, rest with
    | some f, rest => (f, rest)
    | none, '0' :: rest => ('0', rest)
    | none, rest => (' ', rest)
  let (columns, rest) ← leadingNumber rest
  let (precision, rest) ← match rest with
    | '.' :: rest => do
      match ← leadingNumber rest with
      | (some n, rest) => pure (some n, rest)
      | (none, _) => throw .malformed
    | rest => pure (none, rest)
  if rest ≠ [] ∧ rest ≠ ['s'] then throw .malformed
  else if columns.any (maxWidth < ·) then throw .tooLong
  else pure (pad fill side columns precision value)

/-- The template with the text put in. `depth` bounds how deeply fields nest, and `fuel` their
number. -/
def expandFrom (value : List Char) : Nat → Nat → List Char → Except Fault (List Char)
  | 0, _, _ => .error .malformed
  | _, 0, _ => .error .malformed
  | _, _, [] => .ok []
  | depth + 1, fuel + 1, c :: rest =>
    if c = '\x7b' then
      match rest with
      | [] => .error .malformed
      | '\x7b' :: rest => ('\x7b' :: ·) <$> expandFrom value (depth + 1) fuel rest
      | rest => do
        let (f, rest) ← field rest
        let text ← lookup value f.name
        let text ← convert text f.conversion
        let width ← if f.nested then expandFrom value depth fuel f.width else pure f.width
        let shown ← render text width
        (shown ++ ·) <$> expandFrom value (depth + 1) fuel rest
    else if c = '\x7d' then
      match rest with
      | '\x7d' :: rest => ('\x7d' :: ·) <$> expandFrom value (depth + 1) fuel rest
      | _ => .error .malformed
    else (c :: ·) <$> expandFrom value (depth + 1) fuel rest

end Template

/-- The template with `value` for its symbol. A field may hold fields in its width, and these none
in theirs. -/
def expand (template : List Char) (value : List Char) : Except Template.Fault (List Char) :=
  Template.expandFrom value 2 (template.length + 1) template

end Crossing.Text
