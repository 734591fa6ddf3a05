import Crossing.Decimal.Notation
import Crossing.Toml.Moment

/-!
# Reading TOML

Configuration files: tables under plain, quoted and dotted headers, lists of tables under doubled
headers, and keys with strings, numbers, booleans, dates, times, arrays and inline tables. The
result is a document of objects. A key is given once, a table is opened once, and what was written
as a whole (an array or an inline table) is not added to later. A path through a list of tables
leads through its last one. Dates and times are read as lists of their numbers.
-/

namespace Crossing.Toml

/-- The names from a table to a value in it. -/
abbrev Key := List String

def isBareKeyChar (c : Char) : Bool :=
  let n := c.toNat
  (decide (48 ≤ n) && decide (n ≤ 57)) || (decide (65 ≤ n) && decide (n ≤ 90))
    || (decide (97 ≤ n) && decide (n ≤ 122)) || c == '-' || c == '_'

/-- One name of a key. -/
def keyPart? (s : Input) : Option (String × Input) :=
  let name := s.takeWhile isBareKeyChar
  if name.isEmpty then shortString? s
  else some (String.ofList name, s.dropWhile isBareKeyChar)

/-- The names of a key with dots between them, and the gap behind. The first argument bounds their
number. -/
def key? : Nat → Input → Option (Key × Input)
  | 0, _ => none
  | fuel + 1, s => do
    let (name, s) ← keyPart? s
    match skipGap s with
    | '.' :: s => do
      let (names, s) ← key? fuel (skipGap s)
      pure (name :: names, s)
    | s => pure ([name], s)

/-- Digits of a base with single underscores between them. -/
def digits? (isDigit : Char → Bool) : List Char → Option (List Char)
  | [] => none
  | [d] => if isDigit d then some [d] else none
  | d :: '_' :: rest => if isDigit d then (digits? isDigit rest).map (d :: ·) else none
  | d :: rest => if isDigit d then (digits? isDigit rest).map (d :: ·) else none

/-- The integer that digits of a base spell. -/
def based? (base : Nat) (ds : List Char) : Option Nat :=
  (digits? (fun c => (Json.Parser.hexValue? c).any (· < base)) ds).map fun ds =>
    ds.foldl (fun n c => base * n + (Json.Parser.hexValue? c).getD 0) 0

/-- Decimal digits without needless zeros in front. -/
def decimal? (ds : List Char) : Option (List Char) :=
  (digits? Json.Parser.isDigit ds).filter fun all => all.head? != some '0' || all.length == 1

def signed (s : List Char) : Bool × List Char :=
  match s with
  | '-' :: s => (true, s)
  | '+' :: s => (false, s)
  | s => (false, s)

/-- A number with a fraction or an exponent. -/
def float? (s : List Char) : Option Float := do
  let (negative, s) := signed s
  let isMark := fun c => c == 'e' || c == 'E'
  let mantissa := s.takeWhile fun c => !isMark c
  let whole ← decimal? (mantissa.takeWhile (· != '.'))
  let fraction ← match mantissa.dropWhile (· != '.') with
    | [] => some []
    | _ :: fs => digits? Json.Parser.isDigit fs
  let exponent ← match s.dropWhile fun c => !isMark c with
    | [] => some 0
    | _ :: es =>
      let (negative, es) := signed es
      (digits? Json.Parser.isDigit es).map fun ds =>
        if negative then -(Json.Parser.natOf ds : Int) else Json.Parser.natOf ds
  pure (Decimal.readFloat negative (Json.Parser.natOf (whole ++ fraction))
    (exponent - fraction.length))

/-- The numbers that are called by a name. -/
def namedFloats : List (String × Float) := [("inf", 1 / 0), ("nan", 0 / 0)]

/-- The value of a word without quotes. -/
def word? (s : List Char) : Option Json :=
  match s with
  | '0' :: 'x' :: ds => (based? 16 ds).map fun n => .int n
  | '0' :: 'o' :: ds => (based? 8 ds).map fun n => .int n
  | '0' :: 'b' :: ds => (based? 2 ds).map fun n => .int n
  | s =>
    if s = "true".toList then some (.bool true)
    else if s = "false".toList then some (.bool false)
    else
      let (negative, ds) := signed s
      match decimal? ds with
      | some ds =>
        let n : Int := Json.Parser.natOf ds
        some (.int (if negative then -n else n))
      | none =>
        match namedFloats.lookup (String.ofList ds) with
        | some x => some (.float (if negative then -x else x))
        | none => (float? s).map .float

def isWordChar (c : Char) : Bool := isBareKeyChar c || c == '+' || c == '.'

/-- A comment up to the end of its line. -/
def skipComment? : Input → Option Input
  | '#' :: s =>
    let comment := s.takeWhile (· != '\n')
    if comment.any isControl then none else some (s.dropWhile (· != '\n'))
  | s => some s

/-- Gaps, comments and line ends inside an array or an inline table. The first argument bounds
their number. -/
def skipLines? : Nat → Input → Option Input
  | 0, _ => none
  | fuel + 1, s =>
    match skipGap s with
    | '\n' :: s => skipLines? fuel s
    | '#' :: s => (skipComment? ('#' :: s)).bind (skipLines? fuel)
    | s => some s

/-- Whether a key leads into one of some values that were written as a whole. -/
def isClosed (closed : List Key) (key : Key) : Bool := closed.any fun k => k.isPrefixOf key

/-- Whether a value is written as a whole. -/
def isWhole : Json → Bool
  | .obj _ | .arr _ => true
  | _ => false

/-- The value of a key in a table, made by `change` from the one before it. -/
def alter (name : String) (change : Option Json → Option Json) (fields : Json.Fields) :
    Option Json.Fields :=
  (change (Json.field? fields name)).map (Json.setField fields name)

/-- Changes a table: one that is missing is made, and a list of tables stands for its last one. -/
def inTable (change : Json.Fields → Option Json.Fields) : Option Json → Option Json
  | none => (change []).map .obj
  | some (.obj fields) => (change fields).map .obj
  | some (.arr items) =>
    match items.getLast? with
    | some (.obj fields) => (change fields).map fun fields => .arr (items.dropLast ++ [.obj fields])
    | _ => none
  | some _ => none

/-- Changes the table that a key leads to, and makes the tables on the way that are missing. -/
def alterAt : Key → (Json.Fields → Option Json.Fields) → Json.Fields → Option Json.Fields
  | [], change, fields => change fields
  | name :: rest, change, fields => alter name (inTable (alterAt rest change)) fields

/-- A value at a place where none is yet. -/
def asNew (v : Json) : Option Json → Option Json
  | none => some v
  | some _ => none

/-- A list of tables with an empty one behind the others. -/
def withTable : Option Json → Option Json
  | none => some (.arr [.obj []])
  | some (.arr items) => some (.arr (items ++ [.obj []]))
  | some _ => none

/-- Changes the value that a key leads to. -/
def changeAt (key : Key) (change : Option Json → Option Json) (fields : Json.Fields) :
    Option Json.Fields :=
  match key.getLast? with
  | some name => alterAt key.dropLast (alter name change) fields
  | none => none

mutual

/-- A value at the start of the text. -/
def value? : Nat → Input → Option (Json × Input)
  | 0, _ => none
  | fuel + 1, s =>
    match s with
    | '"' :: _ | '\'' :: _ => (string? s).map fun (text, s) => (.str text, s)
    | '[' :: s => (items? fuel s).map fun (items, s) => (.arr items, s)
    | '\x7b' :: s =>
      (inline? fuel [] [] s).map fun (fields, s) => (.obj fields, s)
    | s =>
      match moment? s with
      | some (parts, s) => some (.arr (parts.map fun (n : Nat) => .int n), s)
      | none => (word? (s.takeWhile isWordChar)).map fun v => (v, s.dropWhile isWordChar)

/-- The items of an array up to its closing bracket. -/
def items? : Nat → Input → Option (List Json × Input)
  | 0, _ => none
  | fuel + 1, s => do
    match ← skipLines? (s.length + 1) s with
    | ']' :: s => pure ([], s)
    | s => do
      let (item, s) ← value? fuel s
      match ← skipLines? (s.length + 1) s with
      | ']' :: s => pure ([item], s)
      | ',' :: s => do
        let (items, s) ← items? fuel s
        pure (item :: items, s)
      | _ => none

/-- The keys of an inline table up to its closing brace. -/
def inline? : Nat → Json.Fields → List Key → Input → Option (Json.Fields × Input)
  | 0, _, _, _ => none
  | fuel + 1, fields, closed, s => do
    match ← skipLines? (s.length + 1) s with
    | '\x7d' :: s => pure (fields, s)
    | s => do
      let (key, s) ← key? (s.length + 1) s
      match s with
      | '=' :: s => do
        let (v, s) ← value? fuel (skipGap s)
        if isClosed closed key then none
        else
          let fields ← changeAt key (asNew v) fields
          let closed := if isWhole v then key :: closed else closed
          match ← skipLines? (s.length + 1) s with
          | '\x7d' :: s => pure (fields, s)
          | ',' :: s => inline? fuel fields closed s
          | _ => none
      | _ => none

end

/-- A document that is being read. -/
structure Draft where
  fields : Json.Fields := []
  /-- The table that keys are added to. -/
  table : Key := []
  /-- The tables that were opened, and those on the way of dotted keys since the last header. -/
  opened : List Key := []
  onWay : List Key := []
  /-- The values that were written as a whole. -/
  closed : List Key := []

namespace Draft

/-- Opens a table. -/
def header (d : Draft) (key : Key) : Option Draft :=
  let opened := d.onWay ++ d.opened
  if opened.contains key || isClosed d.closed key then none
  else (alterAt key some d.fields).map fun fields =>
    { d with fields, table := key, opened := key :: opened, onWay := [] }

/-- Opens one more table of a list. What was opened or closed in the table before it counts no
longer. -/
def addTable (d : Draft) (key : Key) : Option Draft :=
  if isClosed d.closed key then none
  else (changeAt key withTable d.fields).map fun fields =>
    let others := (d.onWay ++ d.opened).filter fun k => !key.isPrefixOf k
    { fields, table := key, opened := key :: others
      closed := d.closed.filter fun k => !key.isPrefixOf k }

/-- The tables on the way from the open table to a value. -/
def way (d : Draft) (key : Key) : List Key :=
  (List.range (key.length - 1)).map fun n => d.table ++ key.take (n + 1)

/-- Adds a value to the open table. -/
def assign (d : Draft) (key : Key) (v : Json) : Option Draft :=
  let whole := d.table ++ key
  let way := d.way key
  if way.any d.opened.contains || isClosed d.closed whole.dropLast then none
  else (changeAt whole (asNew v) d.fields).map fun fields =>
    { d with fields, onWay := way ++ d.onWay
             closed := if isWhole v then whole :: d.closed else d.closed }

end Draft

/-- One statement at the start of a line: a header of either kind, or a key with its value. -/
def statement? (d : Draft) (s : Input) : Option (Draft × Input) :=
  match s with
  | '[' :: '[' :: s => do
    let (key, s) ← key? (s.length + 1) (skipGap s)
    match s with
    | ']' :: ']' :: s => do
      let d ← d.addTable key
      pure (d, s)
    | _ => none
  | '[' :: s => do
    let (key, s) ← key? (s.length + 1) (skipGap s)
    match s with
    | ']' :: s => do
      let d ← d.header key
      pure (d, s)
    | _ => none
  | s => do
    let (key, s) ← key? (s.length + 1) s
    match s with
    | '=' :: s => do
      let (v, s) ← value? (s.length + 1) (skipGap s)
      let d ← d.assign key v
      pure (d, s)
    | _ => none

/-- The lines of a document. The first argument bounds their number. -/
def lines? : Nat → Draft → Input → Option Draft
  | 0, _, _ => none
  | fuel + 1, d, s =>
    match skipGap s with
    | [] => some d
    | '\n' :: s => lines? fuel d s
    | '#' :: s => (skipComment? ('#' :: s)).bind (lines? fuel d)
    | s => do
      let (d, s) ← statement? d s
      match ← skipComment? (skipGap s) with
      | [] => pure d
      | '\n' :: s => lines? fuel d s
      | _ => none

/-- The text with plain line ends. -/
def plainLines : Input → Input
  | '\r' :: '\n' :: s => '\n' :: plainLines s
  | c :: s => c :: plainLines s
  | [] => []

/-- The document of a text, if it is one. -/
def parse? (text : String) : Option Json.Fields :=
  let s := plainLines text.toList
  (lines? (s.length + 1) {} s).map (·.fields)

end Crossing.Toml
