import Crossing.Export.Collection
import Crossing.Json.Basic
import Crossing.Layout.Basic
import Crossing.Ownership.Resolver
import Crossing.Path
import Crossing.Report

/-!
# Project configurations

What a project says about its runs: where its sources lie, the target and its word size, the
markers of exports, who owns the raw pointers of its items, and how to log. A configuration is read
from a decoded document; everything in it is optional, and nothing unknown is allowed in it.
-/

namespace Crossing

structure Config where
  rootDirectory : String
  nativeEntry : String := "native"
  platformEntry : String := "lib"
  /-- The name of a built-in target, or a file. -/
  target : String := "dart"
  word : WordSize := .bits64
  workers : Int := 1
  markers : List String := Export.defaultMarkers
  ownership : OwnershipHints := []
  logging : Json.Fields := []
  /-- The file of the configuration; none for the defaults. -/
  path : Option String := none

namespace Config

/-- The target with a table in a file found from the root directory. -/
def resolvedTarget (c : Config) : String :=
  if ".json".toList.isSuffixOf c.target.toList then Path.join c.rootDirectory c.target else c.target

inductive Refusal where
  | unknownTables (names : List String)
  | unknownKeys (names : List String)
  | notTable
  | notNonEmptyString
  | notWordSize
  | notPositive
  | notStrings
  | notModes
  | modeNotString
  | unknownMode (name : String)
  deriving DecidableEq

def Refusal.message : Refusal → String
  | .unknownTables names => "unknown tables: " ++ ", ".intercalate names
  | .unknownKeys names => "unknown keys: " ++ ", ".intercalate names
  | .notTable => "must be a table"
  | .notNonEmptyString => "must be a non-empty string"
  | .notWordSize => "must be 32 or 64"
  | .notPositive => "must be a positive integer"
  | .notStrings => "must be a list of non-empty strings"
  | .notModes => "must be a non-empty inline table of slot = mode"
  | .modeNotString => "ownership mode must be a string"
  | .unknownMode name => OwnershipMode.refusal name

/-- A refusal with the keys that lead to the place, separated by dots. -/
structure Fault where
  place : String
  refusal : Refusal
  deriving DecidableEq

/-- A report about a configuration. -/
def reportAt (message : String) (path place : Option String) : Report where
  reason := Report.Kind.configuration.code
  message
  path
  place

def Fault.report (f : Fault) (path : Option String) : Report :=
  reportAt f.refusal.message path (some f.place)

abbrev Reading := Except Fault

def refuse {α : Type} (place : String) (refusal : Refusal) : Reading α := .error ⟨place, refusal⟩

/-- A table of the document; a missing one is empty. -/
def tableAt (fields : Json.Fields) (key : String) : Reading Json.Fields :=
  match Json.field? fields key with
  | none => pure []
  | some (.obj fields) => pure fields
  | some _ => refuse key .notTable

def onlyKeys (place : String) (fields : Json.Fields) (allowed : List String) : Reading Unit :=
  match Json.unknownFields fields allowed with
  | [] => pure ()
  | unknown => refuse place (.unknownKeys unknown)

def textAt (fields : Json.Fields) (key default : String) : Reading String :=
  match Json.field? fields key with
  | none => pure default
  | some (.str s) => if s.isEmpty then refuse ("rua." ++ key) .notNonEmptyString else pure s
  | some _ => refuse ("rua." ++ key) .notNonEmptyString

def wordAt (fields : Json.Fields) : Reading WordSize :=
  match Json.field? fields "target_word_bits" with
  | none => pure .bits64
  | some v =>
    match v.int?.bind WordSize.ofBits? with
    | some w => pure w
    | none => refuse "rua.target_word_bits" .notWordSize

def workersAt (fields : Json.Fields) : Reading Int :=
  match Json.field? fields "workers" with
  | none => pure 1
  | some (.int n) => if 0 < n then pure n else refuse "rua.workers" .notPositive
  | some _ => refuse "rua.workers" .notPositive

/-- A text that is not empty. -/
def marker? (v : Json) : Option String := v.string?.filter fun s => !s.isEmpty

def markersAt (fields : Json.Fields) : Reading (List String) :=
  match Json.field? fields "export_markers" with
  | none => pure Export.defaultMarkers
  | some v =>
    match v.items?.bind (·.mapM marker?) with
    | some markers => pure markers
    | none => refuse "rua.export_markers" .notStrings

/-- The mode that a value names. -/
def modeAt (place : String) : Json → Reading OwnershipMode
  | .str s =>
    match OwnershipMode.parse? s with
    | some mode => pure mode
    | none => refuse place (.unknownMode s)
  | _ => refuse place .modeNotString

/-- The modes of the slots of an item. -/
def modesAt (place : String) : Json → Reading (List (String × OwnershipMode))
  | .obj [] => refuse place .notModes
  | .obj slots => slots.mapM fun (slot, v) => do
    let mode ← modeAt (place ++ "." ++ slot) v
    pure (slot, mode)
  | _ => refuse place .notModes

def ownershipOf (items : Json.Fields) : Reading OwnershipHints :=
  items.mapM fun (item, v) => do
    let modes ← modesAt ("ownership." ++ item) v
    pure (item, modes)

def mainKeys : List String :=
  ["native_entry", "platform_entry", "target", "target_word_bits", "workers", "export_markers"]

def loggingKeys : List String := ["console_level", "file_level", "file", "color"]

/-- The configuration of a decoded document. -/
def ofDocument (document : Json.Fields) (rootDirectory : String) (path : Option String) :
    Reading Config := do
  match Json.unknownFields document ["rua", "ownership", "logging"] with
  | [] => pure ()
  | unknown => refuse "$" (.unknownTables unknown)
  let fields ← tableAt document "rua"
  onlyKeys "rua" fields mainKeys
  let nativeEntry ← textAt fields "native_entry" "native"
  let platformEntry ← textAt fields "platform_entry" "lib"
  let target ← textAt fields "target" "dart"
  let word ← wordAt fields
  let workers ← workersAt fields
  let markers ← markersAt fields
  let logging ← tableAt document "logging"
  onlyKeys "logging" logging loggingKeys
  let items ← tableAt document "ownership"
  let ownership ← ownershipOf items
  pure { rootDirectory, nativeEntry, platformEntry, target, word, workers, markers, ownership,
         logging, path }

end Config

end Crossing
