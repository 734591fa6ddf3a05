import Crossing.Json.Basic

/-!
# Source spans

Where a declaration stands in its source, as far as it is known.
-/

namespace Crossing

/-- A file, a line and a column, with the end if it is known. The empty span is unknown. -/
structure Span where
  file : Option String := none
  line : Option Int := none
  column : Option Int := none
  endLine : Option Int := none
  endColumn : Option Int := none
  deriving DecidableEq, Inhabited

namespace Span

def unknown : Span := {}

def isKnown (s : Span) : Bool := s.file.isSome || s.line.isSome

/-- The file, line and column with colons between them, up to the first that is missing. -/
def render (s : Span) : String :=
  if !s.isKnown then "<unknown>"
  else
    let file := s.file.getD "<unknown>"
    match s.line, s.column with
    | none, _ => file
    | some line, none => file ++ ":" ++ toString line
    | some line, some column => file ++ ":" ++ toString line ++ ":" ++ toString column

def toJson (s : Span) : Json :=
  .obj [("file", .ofString? s.file), ("line", .ofInt? s.line), ("column", .ofInt? s.column)]

/-- The name of the kind of a value that is no object. -/
def shapeName : Json → String
  | .null => "NoneType"
  | .bool _ => "bool"
  | .int _ => "int"
  | .float _ => "float"
  | .str _ => "str"
  | .arr _ => "list"
  | .obj _ => "dict"

/-- Why a value is no span. -/
def refusal (v : Json) : String := "span must be an object, got " ++ shapeName v

/-- The span that a value describes. Null is the unknown span; fields that are no integers, or an
empty file name, are dropped rather than guessed. Only a value that is no object is refused. -/
def ofJson? : Json → Option Span
  | .null => some unknown
  | .obj fields =>
    let number := fun key => (Json.field fields key).int?
    some {
      file := (Json.field fields "file").string?.filter fun s => !s.isEmpty
      line := number "line"
      column := number "column"
      endLine := number "end_line"
      endColumn := number "end_column" }
  | _ => none

end Span

end Crossing
