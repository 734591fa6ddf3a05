import Crossing.Json.Basic
import Crossing.Decimal.Notation

/-!
# Reading JSON

A reader of one document by recursive descent. Blanks are space, tab, carriage return and line
feed; strings hold no control characters; the words `NaN`, `Infinity` and `-Infinity` are numbers.
Every nested value starts behind a character of its own, so the length of the text bounds the
depth of the descent.
-/

namespace Crossing.Json.Parser

/-- What is left to read. -/
abbrev Input := List Char

def skipBlanks (s : Input) : Input :=
  s.dropWhile fun c => c = ' ' || c = '\t' || c = '\n' || c = '\r'

/-- The rest of the text behind a word, if the text starts with it. -/
def word? : List Char → Input → Option Input
  | [], s => some s
  | _ :: _, [] => none
  | w :: ws, c :: s => if w = c then word? ws s else none

def hexValue? (c : Char) : Option Nat :=
  let n := c.toNat
  if 48 ≤ n ∧ n ≤ 57 then some (n - 48)
  else if 97 ≤ n ∧ n ≤ 102 then some (n - 87)
  else if 65 ≤ n ∧ n ≤ 70 then some (n - 55)
  else none

/-- The code unit that four hexadecimal digits spell. -/
def unit? (a b c d : Char) : Option Nat := do
  let a ← hexValue? a
  let b ← hexValue? b
  let c ← hexValue? c
  let d ← hexValue? d
  pure (4096 * a + 256 * b + 16 * c + d)

/-- The characters that an escape names by a letter or a mark. -/
def namedEscapes : List (Char × Char) :=
  [('"', '"'), ('\\', '\\'), ('/', '/'), ('b', '\x08'), ('f', '\x0c'), ('n', '\n'), ('r', '\r'),
    ('t', '\t')]

/-- The code points of a string up to its closing quote. An escape by number gives a code unit,
which may be half of a pair. -/
def points? : Input → Option (List Nat × Input)
  | [] => none
  | '"' :: s => some ([], s)
  | '\\' :: 'u' :: a :: b :: c :: d :: s => do
    let n ← unit? a b c d
    let (ns, s) ← points? s
    pure (n :: ns, s)
  | '\\' :: e :: s => do
    let c ← namedEscapes.lookup e
    let (ns, s) ← points? s
    pure (c.toNat :: ns, s)
  | c :: s =>
    if c.toNat < 32 then none else do
      let (ns, s) ← points? s
      pure (c.toNat :: ns, s)

def isHigh (n : Nat) : Bool := decide (0xD800 ≤ n) && decide (n < 0xDC00)

def isLow (n : Nat) : Bool := decide (0xDC00 ≤ n) && decide (n < 0xE000)

/-- The character of a code point. Half of a pair has none of its own. -/
def pointChar (n : Nat) : Char := if isHigh n || isLow n then '\ufffd' else Char.ofNat n

/-- The characters of code points, with the halves of pairs joined. -/
def joinPairs : List Nat → List Char
  | high :: low :: ns =>
    if isHigh high && isLow low then
      Char.ofNat (0x10000 + (high - 0xD800) * 1024 + (low - 0xDC00)) :: joinPairs ns
    else pointChar high :: joinPairs (low :: ns)
  | [n] => [pointChar n]
  | [] => []

/-- A string behind its opening quote. -/
def string? (s : Input) : Option (String × Input) :=
  (points? s).map fun (ns, s) => (String.ofList (joinPairs ns), s)

def isDigit (c : Char) : Bool := decide (48 ≤ c.toNat) && decide (c.toNat ≤ 57)

def natOf (ds : List Char) : Nat := ds.foldl (fun n c => 10 * n + (c.toNat - 48)) 0

/-- A point with at least one digit behind it. -/
def fraction? : Input → Option (List Char × Input)
  | '.' :: s =>
    let ds := s.takeWhile isDigit
    if ds.isEmpty then none else some (ds, s.dropWhile isDigit)
  | _ => none

/-- An exponent mark with at least one digit behind it. -/
def exponent? : Input → Option (Int × Input)
  | e :: s =>
    if e = 'e' ∨ e = 'E' then
      let (negative, s) := match s with
        | '-' :: s => (true, s)
        | '+' :: s => (false, s)
        | s => (false, s)
      let ds := s.takeWhile isDigit
      if ds.isEmpty then none
      else some (if negative then -(natOf ds : Int) else natOf ds, s.dropWhile isDigit)
    else none
  | [] => none

/-- A number behind its sign: digits without needless zeros in front, then a fraction and an
exponent if they are there. -/
def number? (negative : Bool) (s : Input) : Option (Json × Input) :=
  let ds := match s with
    | '0' :: _ => ['0']
    | s => s.takeWhile isDigit
  if ds.isEmpty then none
  else
    let s := s.drop ds.length
    let (fraction, s, hasFraction) := match fraction? s with
      | some (fs, s) => (fs, s, true)
      | none => ([], s, false)
    let (exponent, s, hasExponent) := match exponent? s with
      | some (e, s) => (e, s, true)
      | none => (0, s, false)
    if hasFraction || hasExponent then
      some (.float (Decimal.readFloat negative (natOf (ds ++ fraction))
        (exponent - fraction.length)), s)
    else some (.int (if negative then -(natOf ds : Int) else natOf ds), s)

mutual

/-- A value at the start of the text. -/
def value? : Nat → Input → Option (Json × Input)
  | 0, _ => none
  | fuel + 1, s =>
    match s with
    | '"' :: s => (string? s).map fun (text, s) => (.str text, s)
    | '[' :: s =>
      match skipBlanks s with
      | ']' :: s => some (.arr [], s)
      | s => (items? fuel s).map fun (items, s) => (.arr items, s)
    | '\x7b' :: s =>
      match skipBlanks s with
      | '\x7d' :: s => some (.obj [], s)
      | s => (fields? fuel [] s).map fun (fields, s) => (.obj fields, s)
    | 'n' :: s => (word? ['u', 'l', 'l'] s).map fun s => (.null, s)
    | 't' :: s => (word? ['r', 'u', 'e'] s).map fun s => (.bool true, s)
    | 'f' :: s => (word? ['a', 'l', 's', 'e'] s).map fun s => (.bool false, s)
    | 'N' :: s => (word? ['a', 'N'] s).map fun s => (.float (0 / 0), s)
    | 'I' :: s => (word? "nfinity".toList s).map fun s => (.float (1 / 0), s)
    | '-' :: 'I' :: s => (word? "nfinity".toList s).map fun s => (.float (-1 / 0), s)
    | '-' :: s => number? true s
    | s => number? false s

/-- The items of a list up to its closing bracket, at least one. -/
def items? : Nat → Input → Option (List Json × Input)
  | 0, _ => none
  | fuel + 1, s => do
    let (item, s) ← value? fuel s
    match skipBlanks s with
    | ']' :: s => pure ([item], s)
    | ',' :: s =>
      let (items, s) ← items? fuel (skipBlanks s)
      pure (item :: items, s)
    | _ => none

/-- The fields of an object up to its closing brace, at least one, set one after another. -/
def fields? : Nat → Fields → Input → Option (Fields × Input)
  | 0, _, _ => none
  | fuel + 1, before, s =>
    match s with
    | '"' :: s => do
      let (key, s) ← string? s
      match skipBlanks s with
      | ':' :: s =>
        let (value, s) ← value? fuel (skipBlanks s)
        let fields := setField before key value
        match skipBlanks s with
        | '\x7d' :: s => pure (fields, s)
        | ',' :: s => fields? fuel fields (skipBlanks s)
        | _ => none
      | _ => none
    | _ => none

end

end Parser

/-- The value of a document; none when the text is not one JSON value between blanks. -/
def parse? (text : String) : Option Json :=
  let s := text.toList
  match Parser.value? (s.length + 1) (Parser.skipBlanks s) with
  | some (value, rest) => if (Parser.skipBlanks rest).isEmpty then some value else none
  | none => none

end Crossing.Json
