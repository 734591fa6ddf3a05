import Crossing.CommandLine.Host
import Crossing.Path

/-!
# Machines held in memory

A host that is a value: a tree of files, an environment, and what was written to the two outputs.
Running a command on it gives the machine afterwards, so that everything the command did can be
looked at.
-/

namespace Crossing.CommandLine

/-- A file: its text, and the records added behind it as a log file. -/
structure File where
  text : String
  log : List Log.Record := []
  deriving DecidableEq

/-- What reading a file gives. -/
def File.read (f : File) : String := f.text ++ String.join (f.log.map (·.line ++ "\n"))

/-- The parts of a path from the root, without `..`. -/
abbrev Location := List String

structure Machine where
  directory : String
  /-- The home directories by users; the empty name is the one who runs the program. -/
  homes : List (String × String) := []
  environment : List (String × String) := []
  files : List (Location × File) := []
  /-- The directories that are there also without a file in them. -/
  directories : List Location := []
  out : List Output := []
  err : List Output := []

namespace Machine

def file? (m : Machine) (l : Location) : Option File := m.files.lookup l

def isDirectory (m : Machine) (l : Location) : Bool :=
  l.isEmpty || m.directories.contains l || m.files.any fun f => l != f.1 && l.isPrefixOf f.1

/-- The file at the end of a path from a directory, if there is one. Only directories lead on, and
a name too long is noticed where the path gets to it. -/
def follow (m : Machine) (l : Location) : List String → Except FileFault (Option File)
  | [] => .ok none
  | part :: rest =>
    if part = ".." then follow m l.dropLast rest
    else if Path.isLongName part then .error .nameTooLong
    else
      let next := l ++ [part]
      match m.file? next with
      | some f => .ok (if rest.isEmpty then some f else none)
      | none => if m.isDirectory next then follow m next rest else .ok none

/-- The parts of a path from the root. -/
def partsOf (m : Machine) (path : String) : List String :=
  Path.parts (Path.join m.directory path)

/-- The file that a path leads to. No path with a null character leads anywhere. -/
def find (m : Machine) (path : String) : Except FileFault (Option File) :=
  if Path.hasNull path then .ok none
  else if Path.isLong path then .error .nameTooLong
  else m.follow [] (m.partsOf path)

/-- The location that a path has when every `..` takes a part away. -/
def locate (m : Machine) (path : String) : Location := Path.climb [] (m.partsOf path)

/-- The directories from the root to a location. -/
def around (l : Location) : List Location := (List.range (l.length + 1)).map l.take

/-- Goes from a directory along some parts, and makes the directories that are missing. -/
def enter (m : Machine) (l : Location) : List String → Except FileFault (Machine × Location)
  | [] => .ok (m, l)
  | part :: rest =>
    if part = ".." then enter m l.dropLast rest
    else if Path.isLongName part then .error .nameTooLong
    else
      let next := l ++ [part]
      if (m.file? next).isSome then
        .error (if rest.isEmpty then .directoryIsFile else .insideFile)
      else if m.isDirectory next then enter m next rest
      else enter { m with directories := next :: m.directories } next rest

/-- Puts a file at a location. -/
def put (m : Machine) (l : Location) (f : File) : Machine :=
  { m with files := (l, f) :: m.files.filter (·.1 != l) }

/-- The machine with the file at the end of a path changed, and the directories before it made. -/
def changed (m : Machine) (path : String) (f : Option File → File) : Except FileFault Machine := do
  if Path.hasNull path then throw .nullInName
  if Path.isLong path then throw .nameTooLong
  let parts := m.partsOf path
  let (m, l) ← m.enter [] parts.dropLast
  match parts.getLast? with
  | none | some ".." => throw .isDirectory
  | some name =>
    let l := l ++ [name]
    if Path.isLongName name then throw .nameTooLong
    else if m.isDirectory l then throw .isDirectory
    else pure (m.put l (f (m.file? l)))

/-- Changes the file at the end of a path, unless something is in the way. -/
def change (path : String) (f : Option File → File) : StateM Machine (Except FileFault Unit) :=
  modifyGet fun m =>
    match m.changed path f with
    | .error fault => (.error fault, m)
    | .ok m => (.ok (), m)

/-- The machine in the state of a computation, as a host. -/
def host : Host (StateM Machine) where
  directory := do return (← get).directory
  home user := do return (← get).homes.lookup user
  environment name := do return (← get).environment.lookup name
  isFile path := do return ((← get).find path).map Option.isSome
  read path := do
    match (← get).find path with
    | .ok (some f) => pure f.read
    | _ => pure ""
  write path line := change path fun _ => { text := line ++ "\n" }
  openLog path := change path fun old => old.getD { text := "" }
  writeLog path r := do
    let _ ← change path fun old =>
      let f := old.getD { text := "" }
      { f with log := f.log ++ [r] }
  out o := modify fun m => { m with out := m.out ++ [o] }
  err o := modify fun m => { m with err := m.err ++ [o] }

end Machine

end Crossing.CommandLine
