import Crossing.Capability.Document
import Crossing.CommandLine.Arguments
import Crossing.CommandLine.Project
import Crossing.Json.Parser
import Crossing.Json.Printer
import Crossing.Native.Document

/-!
# The program

`check` takes a module through a run for a target, and reports its diagnostics or writes the model
for an emitter. `caps` shows the capability table of a target. Settings on the command line count
before those of the project.

A program that is asked for JSON writes one document to the standard output, also about its
failures, and logs only errors unless told otherwise.
-/

namespace Crossing.CommandLine

/-- How a program ends. -/
inductive Outcome where
  | success
  | diagnostics
  | failure
  deriving DecidableEq

def Outcome.code : Outcome → Nat
  | .success => 0
  | .diagnostics => 1
  | .failure => 2

/-- The outcome of a command line that is no request. -/
def Outcome.ofAside : Aside → Outcome
  | .refused => .failure
  | .help => .success

namespace Request

/-- Whether failures are told in JSON. -/
def wantsJson (r : Request) : Bool :=
  match r.command with
  | .check request => request.json
  | .caps _ => false

/-- Whether the standard output is for a document. -/
def isQuiet (r : Request) : Bool :=
  match r.command with
  | .check request => request.json
  | .caps _ => true

/-- The level of the console, where the command line sets one. -/
def consoleLevel (r : Request) : Json :=
  match r.logLevel.filter fun level => !level.isEmpty with
  | some level => .str level
  | none => if r.isQuiet then .str "ERROR" else .null

end Request

variable {m : Type → Type} [Monad m]

/-- Settings that a configuration asks for, if it is in order. -/
def settingsOf (config : Json.Fields) (level : Json) (path : Option String) (place : String) :
    Session m Log.Settings :=
  match Log.Settings.ofConfig config level with
  | .ok settings => pure settings
  | .error .fileNotPath => throw .logFileNotPath
  | .error refusal => Session.fail (Config.reportAt refusal.message path (some place))

/-- The settings with their log file from the root and in its place. A name that no file can have
is the fault of the configuration. -/
def openLog (host : Host m) (settings : Log.Settings) (config : Option String) :
    Session m Log.Settings := do
  match settings.file with
  | none => pure settings
  | some file => do
    let path := Path.absolute (← host.directory) file
    match ← host.openLog path with
    | .ok () => pure { settings with file := some path }
    | .error .nullInName =>
      Session.fail (Config.reportAt FileFault.nullInName.message config (some "logging"))
    | .error fault => throw (.file path fault)

/-- The configuration of the project, and the settings of the log from there on. -/
def setUp (host : Host m) (r : Request) : Session m (Config × Log.Settings) := do
  let first ← settingsOf [] r.consoleLevel none "--log-level"
  let config ← findConfig host first r.config
  let settings ← settingsOf config.logging r.consoleLevel config.path "logging"
  let settings ← openLog host settings config.path
  if let some path := config.path then
    emit host settings (Log.debug "rua.ruac" ("using configuration " ++ path))
  pure (config, settings)

/-- The target to work for: the one given, unless it is empty, or that of the project. -/
def targetOf (config : Config) (given : Option String) : String :=
  (given.filter fun target => !target.isEmpty).getD config.resolvedTarget

/-- The capability table with a name or in a file. -/
def readTable (host : Host m) (target : String) : Session m CapabilityTable := do
  match CapabilityTable.builtin? target with
  | some table => pure table
  | none => do
    let path := Path.plain target
    unless ← isFile host path do Session.fail (CapabilityTable.unknownTarget target)
    let read : Except CapabilityTable.Fault CapabilityTable :=
      match Json.parse? (← host.read path) with
      | none => .error ⟨.root, .invalidJson⟩
      | some document => CapabilityTable.ofDocument document
    match read with
    | .ok table => pure table
    | .error fault => Session.fail (fault.report (some path))

/-- A report about the file of a module. -/
def moduleReport (path message : String) : Report where
  reason := Report.Kind.moduleFormat.code
  message
  path := some path
  place := none

/-- The module in a file. -/
def readModule (host : Host m) (path : String) : Session m NativeModule := do
  unless ← isFile host path do
    Session.fail (moduleReport path "native module file not found")
  match Json.parse? (← host.read path) with
  | none => Session.fail (moduleReport path "invalid JSON")
  | some document =>
    match NativeModule.ofDocument document with
    | .ok module => pure module
    | .error ⟨_, .compoundKind⟩ => throw .compoundKind
    | .error fault => Session.fail (fault.report (some path))

/-- A diagnostic for tools, placed in the file of the module where it has no other. -/
def diagnosticJson (source : String) (d : Diagnostic) : Json :=
  let file := (d.span.file.filter fun file => !file.isEmpty).getD source
  .obj (d.fields ++ [("file", .str file), ("line", .ofInt? d.span.line),
    ("column", .ofInt? d.span.column), ("severity", .str "error")])

/-- A diagnostic for people. -/
def diagnosticText (source : String) (d : Diagnostic) : String :=
  (if d.span.isKnown then "" else source ++ ":?:?: ") ++ "error: " ++ d.render

/-- The model of a run for an emitter, written to a file if one is named. -/
def emitModel (host : Host m) (settings : Log.Settings) (result : RunResult)
    (capabilities : CapabilityTable) (path : Option String) : Session m (Option Json) := do
  let (answer, log) := handOff result capabilities.target
  emitAll host settings log
  match answer with
  | .error report => Session.fail report
  | .ok none => pure none
  | .ok (some model) => do
    if let some path := path then
      Session.file path (host.write path model.sortKeys.pretty)
    pure (some model)

/-- Writes the result of a run in the form that was asked for. -/
def showResult (host : Host m) (request : CheckRequest) (result : RunResult)
    (model : Option Json) (outcome : Outcome) : Session m Unit := do
  if request.json then
    let diagnostics := result.diagnostics.map (diagnosticJson request.module)
    let fields : Json.Fields :=
      [("exit_code", .int outcome.code), ("diagnostics", .arr diagnostics)]
        ++ (model.map fun model => ("model", model)).toList
    host.out (.text (Json.obj fields).sortKeys.compact)
  else if result.ok then
    host.out (.text (result.module ++ ": " ++ toString result.items.length
      ++ " item(s) ready for target " ++ result.target))
  else
    result.diagnostics.forM fun d => host.err (.text (diagnosticText request.module d))

/-- Takes a module through a run. -/
def check (host : Host m) (config : Config) (settings : Log.Settings) (request : CheckRequest) :
    Session m Outcome := do
  let capabilities ← readTable host (targetOf config request.target)
  let module ← readModule host request.module
  let (answer, log) := run module {
    capabilities
    word := request.word.getD config.word
    markers := config.markers
    hints := config.ownership }
  emitAll host settings log
  match answer with
  | .error fault => throw (.ofRunFault fault)
  | .ok result => do
    let outcome : Outcome := if result.ok then .success else .diagnostics
    let model ←
      if result.ok then emitModel host settings result capabilities request.model else pure none
    showResult host request result model outcome
    pure outcome

/-- Shows the capability table of a target. -/
def showTable (host : Host m) (config : Config) (target : Option String) : Session m Outcome := do
  let table ← readTable host (targetOf config target)
  host.out (.text table.toJson.sortKeys.pretty)
  pure .success

/-- Does what a command line asks for. -/
def perform (host : Host m) (r : Request) : Session m Outcome := do
  let (config, settings) ← setUp host r
  match r.command with
  | .check request => check host config settings request
  | .caps target => showTable host config target

/-- The report of a failure as a document. -/
def failureJson (report : Report) : Json :=
  .obj [("exit_code", .int Outcome.failure.code), ("error", report.toJson),
    ("diagnostics", .arr [])]

/-- Does what a command line asks for, and shows the report of a failure. Only a stop without a
report is left. -/
def execute (host : Host m) (r : Request) : m (Except Stop Outcome) := do
  match ← (perform host r).run with
  | .ok outcome => pure (.ok outcome)
  | .error (.report report) => do
    if r.wantsJson then host.out (.text (failureJson report).sortKeys.compact)
    else host.err (.text ("rua: error: " ++ report.line))
    pure (.ok .failure)
  | .error stop => pure (.error stop)

end Crossing.CommandLine
