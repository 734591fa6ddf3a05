import Crossing.Json.Basic

/-!
# Reports of failed runs

A run that cannot go on ends with a report: a stable code for the reason, a message, and where
there is one the file and the place inside it.
-/

namespace Crossing

structure Report where
  reason : String
  message : String
  path : Option String
  place : Option String
  deriving DecidableEq

/-- The kinds of failure, each with a code of its own. -/
inductive Report.Kind where
  | configuration
  | moduleFormat
  | capabilityFormat
  | internalFault
  deriving DecidableEq

def Report.Kind.code : Report.Kind → String
  | .configuration => "config"
  | .moduleFormat => "native-module-format"
  | .capabilityFormat => "capability-format"
  | .internalFault => "internal-fault"

/-- A part of a line, which is left out when it is empty. -/
def labelled (label : String) : Option String → String
  | some value => if value.isEmpty then "" else label ++ value
  | none => ""

/-- The report on one line. -/
def Report.line (r : Report) : String :=
  "[" ++ r.reason ++ "] " ++ r.message ++ labelled " path=" r.path ++ labelled " at=" r.place

def Report.toJson (r : Report) : Json :=
  .obj [("reason_code", .str r.reason), ("message", .str r.message),
    ("path", .ofString? r.path), ("where", .ofString? r.place)]

end Crossing
