import Crossing.Log.Settings
import Crossing.Path

/-!
# Configuring the log

The log is configured once, and again only where that is forced. A configuration that is refused
changes nothing. The log file is opened last: where it cannot be opened, the console is already
configured anew, and the settings in force are still the old ones.
-/

namespace Crossing.Log

/-- What is asked of the log, and the machine that it is asked on. -/
structure Request where
  config : Json.Fields
  /-- A level given apart from the configuration. -/
  level : Json
  force : Bool
  /-- The working directory, from the root. -/
  directory : String
  /-- Whether a log file can be opened. -/
  opens : String → Bool

/-- The settings that are asked for, with their log file from the root. -/
def Request.settings (r : Request) : Except Refusal Settings :=
  (Settings.ofConfig r.config r.level).map fun s =>
    { s with file := s.file.map (Path.absolute r.directory) }

inductive Failure where
  | refused (why : Refusal)
  /-- A log file that cannot be opened. -/
  | unopened (path : String)

/-- The settings in force, if there are any yet, and the logger as it was set up last. -/
structure Setup where
  active : Option Settings := none
  logger : Logger := {}
  deriving DecidableEq

namespace Setup

/-- The settings that stay in force whatever is asked for. -/
def kept (s : Setup) (r : Request) : Option Settings :=
  s.active.filter fun _ => !s.logger.handlers.isEmpty && !r.force

/-- Sets the logger up for some settings. -/
def install (s : Setup) (settings : Settings) (opens : String → Bool) :
    Except Failure Settings × Setup :=
  match settings.file.filter fun path => !opens path with
  | some path => (.error (.unopened path), { s with logger := ⟨settings.lowest, settings.console⟩ })
  | none => (.ok settings, ⟨some settings, settings.logger⟩)

/-- Configures the log and answers with the settings in force. -/
def configure (s : Setup) (r : Request) : Except Failure Settings × Setup :=
  match s.kept r, r.settings with
  | some settings, _ => (.ok settings, s)
  | none, .error why => (.error (.refused why), s)
  | none, .ok settings => s.install settings r.opens

end Setup

end Crossing.Log
