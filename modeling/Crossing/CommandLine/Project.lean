import Crossing.CommandLine.Session
import Crossing.Config.Document
import Crossing.Toml.Parser

/-!
# The configuration of a project

A configuration file is the one given on the command line, else the one that the environment
names, else the nearest one in the working directory and the directories around it. Without any
the defaults hold, with the working directory as the root.
-/

namespace Crossing.CommandLine

def configFileName : String := "ruaconf.toml"

/-- The variable that names a configuration file. -/
def configVariable : String := "RUA_CONFIG"

variable {m : Type → Type} [Monad m]

/-- Reads a configuration file. Its directory is the root. -/
def readConfig (host : Host m) (path : String) : Session m Config := do
  let path ← expandHome host path
  unless ← isFile host path do
    Session.fail (Config.reportAt "config file not found" (some path) (some "$"))
  match Toml.parse? (← host.read path) with
  | none => Session.fail (Config.reportAt "invalid TOML" (some path) (some "$"))
  | some document =>
    let root := Path.parent (Path.absolute (← host.directory) path)
    match Config.ofDocument document root (some path) with
    | .ok config => pure config
    | .error fault => Session.fail (fault.report (some path))

/-- Reads the configuration file that the environment names. -/
def readNamedConfig (host : Host m) (name : String) : Session m Config := do
  let path ← expandHome host (Path.plain name)
  unless ← isFile host path do
    Session.fail (Config.reportAt ("$" ++ configVariable ++ " does not point to a readable file")
      (some name) (some "$"))
  readConfig host path

/-- The first of some paths that is a file. -/
def firstFile? (host : Host m) : List String → Session m (Option String)
  | [] => pure none
  | path :: rest => do
    if ← isFile host path then pure (some path) else firstFile? host rest

/-- Reads the nearest configuration file, if there is any. -/
def readNearestConfig (host : Host m) (settings : Log.Settings) : Session m Config := do
  let directory ← host.directory
  match ← firstFile? host ((Path.upwards directory).map (Path.join · configFileName)) with
  | some path => readConfig host path
  | none => do
    emit host settings (Log.warning "rua.config"
      ("Failed to find " ++ configFileName ++ ", using default configuration"))
    pure { rootDirectory := directory }

/-- The configuration of a project, given the path on the command line. -/
def findConfig (host : Host m) (settings : Log.Settings) : Option String → Session m Config
  | some path => readConfig host path
  | none => do
    match (← host.environment configVariable).filter fun name => !name.isEmpty with
    | some name => readNamedConfig host name
    | none => readNearestConfig host settings

end Crossing.CommandLine
