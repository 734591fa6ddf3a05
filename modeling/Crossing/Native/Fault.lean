import Crossing.Json.Display
import Crossing.Json.Place
import Crossing.Report
import Crossing.Span

/-!
# Documents that are no module

Why a document is refused as a native module, and at which place.
-/

namespace Crossing.NativeModule

inductive Refusal where
  | notObject
  | unknownFields (names : List String)
  | notNonEmptyString
  | notStringOrNull
  | notNonEmptyStringOrNull
  | notBoolean
  | notStrings
  | notList
  | notTypeString
  | visibilityNotString
  | unknownVisibility (text : String)
  | unknownStyle (value : Json)
  | notSpan (value : Json)
  | notIntegerOrNull
  | unknownKind (value : Json)
  /-- A kind that is a list or an object, which no table of kinds can be asked for. -/
  | compoundKind
  | unsupportedFormat
  | noModule

def Refusal.message : Refusal → String
  | .notObject => "must be an object"
  | .unknownFields names => "unknown fields: " ++ ", ".intercalate names
  | .notNonEmptyString => "must be a non-empty string"
  | .notStringOrNull => "must be a string or null"
  | .notNonEmptyStringOrNull => "must be a non-empty string or null"
  | .notBoolean => "must be a boolean"
  | .notStrings => "must be a list of non-empty strings"
  | .notList => "must be a list"
  | .notTypeString => "must be a type string"
  | .visibilityNotString => "must be a string"
  | .unknownVisibility text => "unknown visibility '" ++ text ++ "'"
  | .unknownStyle value => "unknown style '" ++ value.display ++ "'"
  | .notSpan value => Span.refusal value
  | .notIntegerOrNull => "must be an integer or null"
  | .unknownKind value => "unknown item kind '" ++ value.display ++ "'"
  | .compoundKind => "item kind must not be a list or an object"
  | .unsupportedFormat => "unsupported native module format/version"
  | .noModule => "missing root module"

/-- A refusal at a place of the document. -/
structure Fault where
  place : Json.Place
  refusal : Refusal

/-- The fault as the report of a run, with the file if there is one. -/
def Fault.report (f : Fault) (path : Option String) : Report :=
  { reason := Report.Kind.moduleFormat.code
    message := f.refusal.message
    path
    place := some f.place.render }

end Crossing.NativeModule
