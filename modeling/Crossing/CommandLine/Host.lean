import Crossing.Log.Record

/-!
# Hosts of the command line

What the commands need of the machine they run on: its files, its environment and two outputs.
The commands are written for any host, so that the machine may also be one that is held in memory
(`Machine`).
-/

namespace Crossing

/-- A record on a line of its own. -/
def Log.Record.line (r : Log.Record) : String :=
  let level := Log.levelName r.level
  level ++ String.ofList (List.replicate (8 - level.length) ' ') ++ " | " ++ r.logger ++ " | "
    ++ r.message

namespace CommandLine

/-- What is written to an output: a text, with the end of its line behind it, or a log record. -/
inductive Output where
  | text (text : String)
  | record (record : Log.Record)
  deriving DecidableEq

def Output.line : Output → String
  | .text s => s
  | .record r => r.line

/-- Why a file cannot be looked for or written. -/
inductive FileFault where
  | isDirectory
  /-- The directory around it is a file. -/
  | directoryIsFile
  /-- A directory further out is a file. -/
  | insideFile
  | nameTooLong
  /-- Its name holds the null character. -/
  | nullInName
  deriving DecidableEq

def FileFault.message : FileFault → String
  | .isDirectory => "is a directory"
  | .directoryIsFile => "its directory is a file"
  | .insideFile => "lies inside a file"
  | .nameTooLong => "has too long a name"
  | .nullInName => "embedded null byte"

structure Host (m : Type → Type) where
  /-- The working directory, from the root. -/
  directory : m String
  /-- The home directory of a user; the empty name stands for the one who runs the program. -/
  home : String → m (Option String)
  /-- A variable of the environment. -/
  environment : String → m (Option String)
  isFile : String → m (Except FileFault Bool)
  read : String → m String
  /-- Writes a line as the whole of a file. Directories that are missing are made. -/
  write : String → String → m (Except FileFault Unit)
  /-- Makes sure that a log file is there. Directories that are missing are made. -/
  openLog : String → m (Except FileFault Unit)
  /-- Adds a record to a log file. -/
  writeLog : String → Log.Record → m Unit
  /-- Writes to the standard output. -/
  out : Output → m Unit
  /-- Writes to the error output. -/
  err : Output → m Unit

end CommandLine

end Crossing
