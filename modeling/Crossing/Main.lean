import Crossing.CommandLine.Program

/-!
# The command line

The program on the real machine: `rua check MODULE` and `rua caps [TARGET]`.
-/

namespace Crossing.CommandLine

/-- The home directory of a user by the list of accounts. -/
def homeIn (accounts user : String) : Option String :=
  ((accounts.splitOn "\n").map (·.splitOn ":")).findSome? fun fields =>
    if fields.head? = some user then fields[5]? else none

/-- The machine that the program runs on. Trouble with its files ends the program as it comes. -/
def machine : Host IO where
  directory := return (← IO.currentDir).toString
  home user :=
    if user.isEmpty then IO.getEnv "HOME"
    else do
      let accounts ← try IO.FS.readFile "/etc/passwd" catch _ => pure ""
      pure (homeIn accounts user)
  environment := fun name => IO.getEnv name
  isFile path := do
    if Path.isLong path || (Path.parts path).any Path.isLongName then
      pure (.error .nameTooLong)
    else
      try
        discard (IO.FS.readFile path)
        pure (.ok true)
      catch _ => pure (.ok false)
  read path := IO.FS.readFile path
  write path line := do
    IO.FS.createDirAll (Path.parent (Path.absolute (← IO.currentDir).toString path))
    IO.FS.writeFile path (line ++ "\n")
    pure (.ok ())
  openLog path := do
    IO.FS.createDirAll (Path.parent path)
    discard (IO.FS.Handle.mk path .append)
    pure (.ok ())
  writeLog path r := do (← IO.FS.Handle.mk path .append).putStrLn r.line
  out o := do (← IO.getStdout).putStrLn o.line
  err o := do (← IO.getStderr).putStrLn o.line

def usage : String :=
  "usage: rua [--help] [--config FILE] [--log-level LEVEL] [--no-color]\n"
    ++ "           check MODULE [--target TARGET] [--word-bits 32|64] [--workers N] [--json]\n"
    ++ "                        [--emit-model FILE]\n"
    ++ "           caps [TARGET]"

end Crossing.CommandLine

open Crossing.CommandLine in
def main (args : List String) : IO UInt32 := do
  match readRequest args with
  | .error .help =>
    (← IO.getStdout).putStrLn usage
    pure (Outcome.ofAside .help).code.toUInt32
  | .error .refused =>
    (← IO.getStderr).putStrLn usage
    pure (Outcome.ofAside .refused).code.toUInt32
  | .ok request =>
    match ← execute machine request with
    | .ok outcome => pure outcome.code.toUInt32
    | .error stop =>
      (← IO.getStderr).putStrLn ("rua: " ++ stop.message)
      pure 1
