import Crossing.Json.Display
import Crossing.Log.Logger
import Crossing.Text.Blank
import Crossing.Text.Letter

/-!
# Where log records go

A configuration sets a level for the console and one for a file. Records below the error level go
to the standard output and the others to the error output, and the file takes what reaches its own
level. The logger that hands them out has the lower of the levels in use.
-/

namespace Crossing.Log

/-- Why a configuration is refused. -/
inductive Refusal where
  | unknownLevel (value : Json)
  /-- A level of digits that make no number. -/
  | notNumber (text : String)
  | fileNotPath
  deriving Inhabited

def Refusal.message : Refusal → String
  | .unknownLevel value => "Unknown log level: " ++ value.display
  | .notNumber text => "invalid literal for int() with base 10: " ++ Json.quoteText text
  | .fileNotPath => "a log file is named by a string"

/-- The named levels. -/
def levelNames : List (String × Int) :=
  [("CRITICAL", criticalLevel), ("FATAL", criticalLevel), ("ERROR", errorLevel),
    ("WARN", warningLevel), ("WARNING", warningLevel), ("INFO", infoLevel), ("DEBUG", debugLevel),
    ("NOTSET", 0)]

/-- The level that a value spells: a number, its digits or a name in any case. Null is none. -/
def levelOf : Json → Except Refusal (Option Int)
  | .null => .ok none
  | .int n => .ok (some n)
  | v =>
    let text := Text.upper (Text.strip v.display.toList)
    if !text.isEmpty && text.all Text.isDigit then
      match Text.natural? text with
      | some n => .ok (some n)
      | none => .error (.notNumber (String.ofList text))
    else match levelNames.lookup (String.ofList text) with
      | some n => .ok (some n)
      | none => .error (.unknownLevel v)

structure Settings where
  consoleLevel : Int
  fileLevel : Int
  file : Option String := none
  deriving DecidableEq

/-- The file that a configuration names. Whatever counts as nothing names none. -/
def fileOf : Json → Except Refusal (Option String)
  | .null | .bool false | .arr [] | .obj [] => .ok none
  | .str s => .ok (if s.isEmpty then none else some s)
  | v => if v.isZero then .ok none else .error .fileNotPath

/-- The settings of a configuration. A level given apart from it counts before that of the
console. -/
def Settings.ofConfig (config : Json.Fields) (level : Json) : Except Refusal Settings := do
  let console ← levelOf (Json.field config "console_level")
  let given ← levelOf level
  let file ← levelOf (Json.field config "file_level")
  let path ← fileOf (Json.field config "file")
  pure {
    consoleLevel := given.getD (console.getD infoLevel)
    fileLevel := file.getD debugLevel
    file := path }

namespace Settings

/-- The handlers of the console. -/
def console (s : Settings) : List Handler :=
  [⟨.out, s.consoleLevel, some errorLevel⟩, ⟨.error, max s.consoleLevel errorLevel, none⟩]

/-- The handler of the log file, if there is one. -/
def mirror (s : Settings) : List Handler :=
  (s.file.map fun path => ⟨.file path, s.fileLevel, none⟩).toList

/-- The lowest level in use. -/
def lowest (s : Settings) : Int :=
  if s.file.isSome then min s.consoleLevel s.fileLevel else s.consoleLevel

/-- The logger that the settings ask for. -/
def logger (s : Settings) : Logger := ⟨s.lowest, s.console ++ s.mirror⟩

end Settings

def rootName : String := "rua"

/-- The full name of a logger. -/
def loggerName (name : Option String) : String :=
  match name with
  | none => rootName
  | some name =>
    if name.isEmpty || name == rootName then rootName
    else if (rootName ++ ".").toList.isPrefixOf name.toList then name
    else rootName ++ "." ++ name

end Crossing.Log
