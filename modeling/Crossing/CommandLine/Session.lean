import Crossing.CommandLine.Host
import Crossing.Log.Settings
import Crossing.Native.Fault
import Crossing.Path
import Crossing.Report
import Crossing.Run

/-!
# Sessions on a host

A command works in a session: it reads and writes through the host, and may stop before its end.
Most stops are reports, which the program shows. The others are faults that no report covers.
-/

namespace Crossing

namespace RunFault

/-- The report of a fault of a run, if it has one. -/
def report? : RunFault → Option Report
  | .validation fault => some fault.report
  | .ownership (.tags range) => some {
      reason := Report.Kind.internalFault.code
      message := range.message
      path := none
      place := none }
  | .ownership (.helper _) | .ownership (.misheld _) | .building _ => none

def message : RunFault → String
  | .validation fault => fault.report.message
  | .ownership (.tags range) => range.message
  | .ownership (.helper fault) => fault.message
  | .ownership (.misheld misheld) => misheld.message
  | .building fault => fault.message

end RunFault

namespace CommandLine

/-- What ends a command before its end. -/
inductive Stop where
  | report (report : Report)
  /-- A run that ended with a fault without a report. -/
  | run (fault : RunFault)
  /-- An item of a module whose kind is no name. -/
  | compoundKind
  /-- A log file that is named by no string. -/
  | logFileNotPath
  /-- A user without a home directory. -/
  | homeless (user : String)
  | file (path : String) (fault : FileFault)

def Stop.ofRunFault (fault : RunFault) : Stop :=
  match fault.report? with
  | some r => .report r
  | none => .run fault

def Stop.message : Stop → String
  | .report r => r.line
  | .run fault => fault.message
  | .compoundKind => NativeModule.Refusal.compoundKind.message
  | .logFileNotPath => Log.Refusal.fileNotPath.message
  | .homeless user => "no home directory of `" ++ user ++ "`"
  | .file path fault => path ++ ": " ++ fault.message

/-- Work on a host that may stop. -/
abbrev Session (m : Type → Type) := ExceptT Stop m

variable {m : Type → Type} [Monad m] {α : Type}

def Session.fail (report : Report) : Session m α := throw (.report report)

/-- Work on a file that may fail. -/
def Session.file (path : String) (act : m (Except FileFault α)) : Session m α := do
  match ← act with
  | .ok a => pure a
  | .error fault => throw (.file path fault)

/-- Whether a path leads to a file. -/
def isFile (host : Host m) (path : String) : Session m Bool :=
  Session.file path (host.isFile path)

/-- The path with the home directory in place of a leading `~`, or of `~` and the name of a
user. -/
def expandHome (host : Host m) (path : String) : Session m String := do
  match Path.home? path with
  | none => pure path
  | some (user, rest) =>
    match ← host.home user with
    | some home => pure (Path.plain (Path.join home ("/".intercalate rest)))
    | none => throw (.homeless user)

/-- Writes a record to the places that the settings give it. -/
def emit (host : Host m) (settings : Log.Settings) (r : Log.Record) : Session m Unit :=
  (settings.logger.sinks r.level).forM fun
    | .out => host.out (.record r)
    | .error => host.err (.record r)
    | .file path => host.writeLog path r

def emitAll (host : Host m) (settings : Log.Settings) (rs : List Log.Record) : Session m Unit :=
  rs.forM (emit host settings)

end CommandLine

end Crossing
