/-!
# Paths

Paths as texts with `/` between their parts. A path is plain when it has no empty part, no `.` and
no `/` at its end; `..` is kept, because only the files themselves can tell where it leads, and is
taken away by `absolute`.
-/

namespace Crossing.Path

/-- The parts of a text between slashes. -/
def splitChars : List Char → List (List Char)
  | [] => [[]]
  | c :: rest =>
    if c = '/' then [] :: splitChars rest
    else match splitChars rest with
      | [] => [[c]]
      | part :: parts => (c :: part) :: parts

def parts (path : String) : List String :=
  ((splitChars path.toList).map String.ofList).filter fun p => !p.isEmpty && p != "."

def isAbsolute (path : String) : Bool := path.toList.head? == some '/'

/-- What a path starts with: nothing, one slash, or exactly two. -/
def root (path : String) : String :=
  match path.toList with
  | '/' :: '/' :: '/' :: _ => "/"
  | '/' :: '/' :: _ => "//"
  | '/' :: _ => "/"
  | _ => ""

/-- The plain form of a path; the empty path is the directory itself. -/
def plain (path : String) : String :=
  let text := root path ++ "/".intercalate (parts path)
  if text.isEmpty then "." else text

/-- A path inside a directory; an absolute path stays as it is. -/
def join (directory path : String) : String :=
  if isAbsolute path then path
  else if directory.isEmpty || directory.toList.getLast? == some '/' then directory ++ path
  else directory ++ "/" ++ path

/-- Parts without `..`, each of which takes away the part before it. -/
def climb : List String → List String → List String
  | before, [] => before.reverse
  | before, part :: rest =>
    if part = ".." then climb before.tail rest else climb (part :: before) rest

/-- The path from the root, given the working directory. -/
def absolute (directory path : String) : String :=
  "/" ++ "/".intercalate (climb [] (parts (join directory path)))

/-- The directory that a path from the root lies in. -/
def parent (path : String) : String := "/" ++ "/".intercalate (parts path).dropLast

/-- A directory with those around it, the innermost first. -/
def upwards (path : String) : List String :=
  let ps := parts path
  (List.range (ps.length + 1)).reverse.map fun n => "/" ++ "/".intercalate (ps.take n)

/-- The user in whose home directory a path starts, and the parts from there on. The empty name
stands for the user who runs the program. -/
def home? (path : String) : Option (String × List String) :=
  match isAbsolute path, parts path with
  | false, first :: rest =>
    match first.toList with
    | '~' :: user => some (String.ofList user, rest)
    | _ => none
  | _, _ => none

/-- Whether a name has more bytes than a directory can hold. -/
def isLongName (name : String) : Bool := decide (255 < name.utf8ByteSize)

/-- Whether a path has more bytes than can be asked for. -/
def isLong (path : String) : Bool := decide (4096 ≤ path.utf8ByteSize)

/-- Whether a text has the character that ends a text for the machine. -/
def hasNull (path : String) : Bool := path.toList.contains '\x00'

end Crossing.Path
