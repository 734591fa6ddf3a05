import Crossing.Layout.Basic
import Crossing.Path
import Crossing.Text.Blank
import Crossing.Text.Letter

/-!
# Command lines

Options stand before or behind the words they go with, and may be shortened to any start that only
one option has. A value follows its option as the next word or behind `=`. A word that looks like
an option is no value, unless it is a negative number, holds a blank, or stands behind `--`. A
command line that breaks a rule is refused as a whole, unless it asks for help before the place
where the rule is broken. Unknown options and words too many are refused only at the end.
-/

namespace Crossing.CommandLine

/-- What a command line can come to besides a request. -/
inductive Aside where
  /-- It breaks a rule. -/
  | refused
  /-- It asks how the program is used. -/
  | help
  deriving DecidableEq

abbrev Reading := Except Aside

/-- What an option takes. -/
inductive Arity where
  | flag
  | value
  /-- A flag that ends the reading. -/
  | help
  deriving DecidableEq

/-- The options of a command by their names. -/
abbrev OptionTable := List (String × Arity)

/-- A word of a command line by what it can be. -/
inductive Word where
  | plain (text : String)
  /-- An option, perhaps with a value behind `=`, or right behind it where the option is short. -/
  | option (name : String) (arity : Arity) (value : Option String)
  /-- A word like an option that is none. -/
  | unknown
  /-- A start that several options have. -/
  | ambiguous
  /-- The word behind which nothing is an option. -/
  | separator
  deriving DecidableEq

/-- Whether a text is a negative number: digits, perhaps with a point before the last of them, and
perhaps the end of a line behind them. -/
def isNegativeNumber (s : List Char) : Bool :=
  match s with
  | '-' :: s =>
    let isDigit := fun c => (Text.digitValue? c).isSome
    let isNumber := fun (s : List Char) =>
      s.head?.any isDigit && [[], ['\n']].contains (s.dropWhile isDigit)
    match s.dropWhile isDigit with
    | '.' :: fraction => isNumber fraction
    | _ => isNumber s
  | _ => false

/-- A text before and behind its first `=`. -/
def splitValue (s : List Char) : String × Option String :=
  let name := String.ofList (s.takeWhile (· != '='))
  match s.dropWhile (· != '=') with
  | [] => (name, none)
  | _ :: value => (name, some (String.ofList value))

/-- The short option that a word starts with. -/
def shortOption? (options : OptionTable) : List Char → Option Word
  | '-' :: c :: rest =>
    let name := String.ofList ['-', c]
    if c = '-' then none
    else (options.lookup name).map fun arity => .option name arity (some (String.ofList rest))
  | _ => none

/-- What a word is. -/
def Word.ofText (options : OptionTable) (text : String) : Word :=
  let s := text.toList
  if s.head? ≠ some '-' ∨ s.length = 1 then .plain text
  else
    let (name, value) := splitValue s
    match options.lookup text, options.lookup name with
    | some arity, _ => .option text arity none
    | none, some arity => .option name arity value
    | none, none =>
      let matching := if "--".toList.isPrefixOf s then
          options.filter fun o => name.toList.isPrefixOf o.1.toList
        else []
      match matching, shortOption? options s with
      | [(full, arity)], _ => .option full arity value
      | _ :: _ :: _, _ => .ambiguous
      | [], some short => short
      | [], none => if isNegativeNumber s || s.contains ' ' then .plain text else .unknown

/-- The words of a command line. -/
def wordsOf (options : OptionTable) : List String → List Word
  | [] => []
  | text :: rest =>
    if text = "--" then .separator :: rest.map .plain
    else .ofText options text :: wordsOf options rest

/-- The options that were given, the last first, the other words with their separator, and whether
an option is unknown. -/
structure Given where
  options : List (String × String) := []
  words : List Word := []
  hasUnknown : Bool := false

/-- The value of an option, the last if there are several. -/
def Given.value? (g : Given) (name : String) : Option String := g.options.lookup name

def Given.isSet (g : Given) (name : String) : Bool := (g.value? name).isSome

/-- Notes an option. Its value has to be one that the option can have. -/
def Given.add (isValid : String → String → Bool) (g : Given) (name value : String) :
    Reading Given :=
  if isValid name value then .ok { g with options := (name, value) :: g.options }
  else .error .refused

/-- What comes of a value that is written to help, which takes none. Only behind its short name may
that name be repeated. -/
def valueForHelp (name : String) (value : List Char) : Aside :=
  if !value.isEmpty && value.all fun c => name == String.ofList ['-', c] then .help else .refused

/-- Takes the options out of some words. Options in the middle part the other words: `unknown`
marks their places. -/
def takeOptions (isValid : String → String → Bool) : Given → List Word → Reading Given
  | g, [] => .ok g
  | g, .plain text :: rest => takeOptions isValid { g with words := g.words ++ [.plain text] } rest
  | g, .separator :: rest => takeOptions isValid { g with words := g.words ++ [.separator] } rest
  | _, .ambiguous :: _ => .error .refused
  | g, .unknown :: rest =>
    takeOptions isValid { g with words := g.words ++ [.unknown], hasUnknown := true } rest
  | _, .option _ .help none :: _ => .error .help
  | _, .option name .help (some v) :: _ => .error (valueForHelp name v.toList)
  | _, .option _ .flag (some _) :: _ => .error .refused
  | g, .option name .flag none :: rest => do
    let g ← g.add isValid name ""
    takeOptions isValid { g with words := g.words ++ [.unknown] } rest
  | g, .option name .value (some v) :: rest => do
    let g ← g.add isValid name v
    takeOptions isValid { g with words := g.words ++ [.unknown] } rest
  | g, .option name .value none :: .plain v :: rest => do
    let g ← g.add isValid name v
    takeOptions isValid { g with words := g.words ++ [.unknown] } rest
  | _, .option _ .value none :: _ => .error .refused

/-- The single word that is left, with the separator next to it; the places of options count only
as gaps. `none` stands for words that do not fit, and `some none` for no word at all. -/
def soleWord? (words : List Word) : Option (Option String) :=
  match words.dropWhile (· == .unknown) with
  | [] => some none
  | .plain text :: rest =>
    match rest with
    | .separator :: rest => if rest.all (· == .unknown) then some (some text) else none
    | rest => if rest.all (· == .unknown) then some (some text) else none
  | .separator :: .plain text :: rest =>
    if rest.all (· == .unknown) then some (some text) else none
  | [.separator] => some none
  | _ => none

/-- How many digits an integer can be written with. -/
def maxDigits : Nat := 4300

/-- The integer that a text spells: a sign, and digits with single underscores between them,
between blanks. -/
def integer? (text : String) : Option Int :=
  let s := Text.trim Text.isNumberBlank text.toList
  let (negative, ds) := match s with
    | '-' :: ds => (true, ds)
    | '+' :: ds => (false, ds)
    | ds => (false, ds)
  ((digits? ds).filter (·.length ≤ maxDigits)).bind fun ds =>
    (Text.natural? ds).map fun n => if negative then -(n : Int) else n
where
  /-- Digits without the underscores between them. -/
  digits? : List Char → Option (List Char)
    | [] => none
    | [c] => if c = '_' then none else some [c]
    | c :: '_' :: rest => if c = '_' then none else (digits? rest).map (c :: ·)
    | c :: rest => if c = '_' then none else (digits? rest).map (c :: ·)

/-- What a command line asks for. -/
structure CheckRequest where
  module : String
  target : Option String
  word : Option WordSize
  workers : Option Int
  json : Bool
  /-- The file that the model is written to. -/
  model : Option String
  deriving DecidableEq

inductive Command where
  | check (request : CheckRequest)
  /-- Shows the capability table of a target. -/
  | caps (target : Option String)
  deriving DecidableEq

structure Request where
  config : Option String
  logLevel : Option String
  command : Command
  deriving DecidableEq

def helpOptions : OptionTable := [("-h", .help), ("--help", .help)]

def mainOptions : OptionTable :=
  helpOptions ++ [("--config", .value), ("--log-level", .value), ("--no-color", .flag)]

def checkOptions : OptionTable :=
  helpOptions ++ [("--target", .value), ("--word-bits", .value), ("--workers", .value),
    ("--json", .flag), ("--emit-model", .value)]

def word? (text : String) : Option WordSize := (integer? text).bind WordSize.ofBits?

/-- Whether an option of `check` can have a value. -/
def isCheckValue (name value : String) : Bool :=
  if name = "--word-bits" then (word? value).isSome
  else if name = "--workers" then (integer? value).isSome
  else true

/-- The options of a command and the single word that is left. A word that could be several options
is refused before anything is read. -/
def readWords (options : OptionTable) (isValid : String → String → Bool) (args : List String) :
    Reading (Given × Option String) := do
  let words := wordsOf options args
  if words.contains .ambiguous then throw .refused
  let g ← takeOptions isValid {} words
  match g.hasUnknown, soleWord? g.words with
  | false, some word => pure (g, word)
  | _, _ => throw .refused

def readCheck (args : List String) : Reading CheckRequest := do
  let (g, module) ← readWords checkOptions isCheckValue args
  let workers := (g.value? "--workers").bind integer?
  match module with
  | none => throw .refused
  | some module =>
    if workers.any (· < 1) then throw .refused
    else pure {
      module := Path.plain module
      target := g.value? "--target"
      word := (g.value? "--word-bits").bind word?
      workers
      json := g.isSet "--json"
      model := (g.value? "--emit-model").map Path.plain }

/-- The command with its own words. -/
def readCommand : List String → Reading Command
  | "check" :: args => .check <$> readCheck args
  | "caps" :: args => do
    let (_, target) ← readWords helpOptions (fun _ _ => true) args
    pure (.caps target)
  | _ => .error .refused

/-- The options before the command, and the words from the command on. -/
def readLeading (g : Given) : List String → Reading (Given × List String)
  | [] => .error .refused
  | text :: rest =>
    match Word.ofText mainOptions text with
    | .plain _ => .ok (g, text :: rest)
    | .unknown => readLeading { g with hasUnknown := true } rest
    | .option _ .help none => .error .help
    | .option name .help (some v) => .error (valueForHelp name v.toList)
    | .option name .flag none =>
      readLeading { g with options := (name, "") :: g.options } rest
    | .option name .value (some v) =>
      readLeading { g with options := (name, v) :: g.options } rest
    | .option name .value none =>
      match rest with
      | v :: rest =>
        match Word.ofText mainOptions v with
        | .plain _ => readLeading { g with options := (name, v) :: g.options } rest
        | _ => .error .refused
      | [] => .error .refused
    | .option _ .flag (some _) | .ambiguous | .separator => .error .refused

/-- Whether a word before `--` could be several of the leading options. -/
def hasAmbiguous (args : List String) : Bool :=
  (args.takeWhile (· != "--")).any fun text => Word.ofText mainOptions text = .ambiguous

/-- What a command line asks for. -/
def readRequest (args : List String) : Reading Request := do
  if hasAmbiguous args then throw .refused
  let (g, words) ← readLeading {} args
  let command ← readCommand words
  if g.hasUnknown then throw .refused
  pure {
    config := (g.value? "--config").map Path.plain
    logLevel := g.value? "--log-level"
    command }

end Crossing.CommandLine
