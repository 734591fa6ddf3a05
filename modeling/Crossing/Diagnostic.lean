import Crossing.Span

/-!
# Diagnostics

A problem with one item of a module. Diagnostics are collected, never thrown, so that one run
reports every problem of the module.
-/

namespace Crossing

inductive Diagnostic.Kind where
  /-- A type or a combination of type and ownership without a rule. -/
  | unsupported
  /-- Ownership that is neither declared nor implied. -/
  | ambiguousOwnership
  /-- One type under constraints that exclude each other. -/
  | layoutConflict
  deriving DecidableEq

namespace Diagnostic.Kind

def all : List Kind := [.unsupported, .ambiguousOwnership, .layoutConflict]

def name : Kind → String
  | .unsupported => "Unsupported"
  | .ambiguousOwnership => "AmbiguousOwnership"
  | .layoutConflict => "LayoutConflict"

def ofName? (s : String) : Option Kind := all.find? (·.name == s)

end Diagnostic.Kind

/-- A problem: its message, and where they are known the item, the type, the stage that found it
and the place in the source. -/
structure Diagnostic where
  kind : Diagnostic.Kind
  message : String
  item : Option String := none
  type : Option String := none
  stage : Option String := none
  span : Span := {}
  notes : List String := []
  deriving DecidableEq

namespace Diagnostic

/-- A text between an opening and a closing part; nothing for an empty text. -/
def around (opening closing : String) : Option String → String
  | some s => if s.isEmpty then "" else opening ++ s ++ closing
  | none => ""

/-- The diagnostic for people: one line, and one more for each note. -/
def render (d : Diagnostic) : String :=
  (if d.span.isKnown then d.span.render ++ ": " else "") ++ d.kind.name
    ++ around " in `" "`" d.item ++ ": " ++ d.message ++ around " (type `" "`)" d.type
    ++ String.join (d.notes.map ("\n  note: " ++ ·))

def fields (d : Diagnostic) : Json.Fields :=
  [("kind", .str d.kind.name), ("message", .str d.message), ("item", .ofString? d.item),
    ("type", .ofString? d.type), ("stage", .ofString? d.stage), ("span", d.span.toJson),
    ("notes", .arr (d.notes.map .str))]

def toJson (d : Diagnostic) : Json := .obj d.fields

end Diagnostic

end Crossing
