import Crossing.Json.Basic
import Crossing.Decimal.Notation
import Crossing.Text.Quoted

/-!
# Writing JSON

Two forms of a document: on one line, and spread over lines with two blanks of indentation per
level. Both write characters beyond ASCII by their codes. `sortKeys` puts the fields of every
object in ascending order first.
-/

namespace Crossing.Json

/-- A code unit as an escape. -/
def unitEscape (n : Nat) : List Char := '\\' :: 'u' :: Text.hex 4 n

/-- A character inside a string: escaped when it is a quote, a backslash or outside printable
ASCII, by two code units when one cannot hold it. -/
def escapeChar (c : Char) : List Char :=
  if c = '"' ∨ c = '\\' then ['\\', c]
  else if c = '\n' then ['\\', 'n']
  else if c = '\r' then ['\\', 'r']
  else if c = '\t' then ['\\', 't']
  else if c = '\x08' then ['\\', 'b']
  else if c = '\x0c' then ['\\', 'f']
  else if 32 ≤ c.toNat ∧ c.toNat < 127 then [c]
  else if c.toNat < 0x10000 then unitEscape c.toNat
  else
    let n := c.toNat - 0x10000
    unitEscape (0xD800 + n / 1024) ++ unitEscape (0xDC00 + n % 1024)

def writeString (s : String) : String :=
  String.ofList ('"' :: s.toList.flatMap escapeChar ++ ['"'])

/-- The names of the values that JSON itself has no number for. -/
def numberNames : Decimal.Names := ⟨"Infinity", "NaN"⟩

mutual

/-- The value with the fields of every object in ascending order. -/
def sortKeys : Json → Json
  | .arr items => .arr (sortItems items)
  | .obj fields => .obj ((sortFields fields).mergeSort fun a b => decide (a.1 ≤ b.1))
  | v => v

def sortItems : List Json → List Json
  | [] => []
  | v :: vs => sortKeys v :: sortItems vs

def sortFields : Fields → Fields
  | [] => []
  | (k, v) :: fs => (k, sortKeys v) :: sortFields fs

end

/-- How the parts of a list or an object are set apart: what opens and closes a non-empty one and
what stands between two parts. -/
structure Spacing where
  before : String
  between : String
  after : String

/-- On one line. -/
def Spacing.inline : Spacing := ⟨"", ", ", ""⟩

/-- A line for each part, `depth` levels deep. -/
def Spacing.lines (depth : Nat) : Spacing :=
  let inner := "\n" ++ String.ofList (List.replicate (2 * (depth + 1)) ' ')
  ⟨inner, "," ++ inner, "\n" ++ String.ofList (List.replicate (2 * depth) ' ')⟩

/-- The parts of a list or an object between its brackets. -/
def enclose (opening closing : String) (spacing : Spacing) (parts : List String) : String :=
  if parts.isEmpty then opening ++ closing
  else opening ++ spacing.before ++ spacing.between.intercalate parts ++ spacing.after ++ closing

mutual

/-- The text of a value `depth` levels deep, with the spacing chosen by the level. -/
def write (spacing : Nat → Spacing) (depth : Nat) : Json → String
  | .null => "null"
  | .bool b => if b then "true" else "false"
  | .int n => toString n
  | .float x => Decimal.writeFloat numberNames x
  | .str s => writeString s
  | .arr items => enclose "[" "]" (spacing depth) (writeItems spacing (depth + 1) items)
  | .obj fields =>
    enclose "\x7b" "\x7d" (spacing depth) (writeFields spacing (depth + 1) fields)

def writeItems (spacing : Nat → Spacing) (depth : Nat) : List Json → List String
  | [] => []
  | v :: vs => write spacing depth v :: writeItems spacing depth vs

def writeFields (spacing : Nat → Spacing) (depth : Nat) : Fields → List String
  | [] => []
  | (k, v) :: fs =>
    (writeString k ++ ": " ++ write spacing depth v) :: writeFields spacing depth fs

end

/-- The value on one line. -/
def compact (v : Json) : String := write (fun _ => .inline) 0 v

/-- The value over several lines. -/
def pretty (v : Json) : String := write .lines 0 v

end Crossing.Json
