import Crossing.Capability.Builtin
import Crossing.Json.Display
import Crossing.Json.Place
import Crossing.Report

/-!
# Capability tables as documents

The strict reader of capability documents. What it accepts it can also write
(`CapabilityTable.toJson`), and reading that again gives the same answers for every type and mode.
-/

namespace Crossing.CapabilityTable

open Json (Fields Place)

/-- Why a document is no capability table. -/
inductive Refusal where
  | documentNotObject
  | unsupportedFormat
  | unknownTopFields (names : List String)
  | notNonEmptyString
  | notList
  | unknownEncoding (value : Json)
  | notObject
  | unknownKind (name : String)
  | unknownMode (name : String)
  | unknownFields (names : List String)
  | supportNotBoolean
  | helperNotString (key : String)
  | notPositiveIntegers
  | invalidJson

def Refusal.message : Refusal → String
  | .documentNotObject => "capability table must be a JSON object"
  | .unsupportedFormat => "unsupported capability table format/version"
  | .unknownTopFields names => "unknown top-level fields: " ++ ", ".intercalate names
  | .notNonEmptyString => "must be a non-empty string"
  | .notList => "must be a list"
  | .unknownEncoding value => "unknown text encoding '" ++ value.display ++ "'"
  | .notObject => "must be an object"
  | .unknownKind name => "unknown interface type variant '" ++ name ++ "'"
  | .unknownMode name => OwnershipMode.refusal name
  | .unknownFields names => "unknown fields: " ++ ", ".intercalate names
  | .supportNotBoolean => "'supported' must be a boolean"
  | .helperNotString key => "'" ++ key ++ "' must be a non-empty string"
  | .notPositiveIntegers => "must be a list of positive integers"
  | .invalidJson => "invalid JSON"

structure Fault where
  place : Place
  refusal : Refusal

def Fault.report (f : Fault) (path : Option String) : Report :=
  { reason := Report.Kind.capabilityFormat.code
    message := f.refusal.message
    path
    place := some f.place.render }

abbrev Reading := Except Fault

def refuse {α : Type} (place : Place) (refusal : Refusal) : Reading α := .error ⟨place, refusal⟩

/-- Adds a number to an ascending list that holds each number once. -/
def insertWidth (n : Int) : List Int → List Int
  | [] => [n]
  | m :: rest => if n < m then n :: m :: rest else if n = m then m :: rest
      else m :: insertWidth n rest

/-- The positive integer that a value is. -/
def positive? : Json → Option Int
  | .int n => if 0 < n then some n else none
  | _ => none

/-- The widths that a list names, each once, in ascending order. -/
def widthsOf? (items : List Json) : Option (List Int) :=
  (items.mapM positive?).map (·.foldl (fun widths n => insertWidth n widths) [])

def widthsAt (fields : Fields) (key : String) (default : List Int) : Reading (List Int) :=
  match Json.field? fields key with
  | none => pure default
  | some v =>
    match v.items?.bind widthsOf? with
    | some widths => pure widths
    | none => refuse (Place.root.field key) .notPositiveIntegers

def encodingOf (place : Place) (v : Json) : Reading TextEncoding :=
  match v.string?.bind fun s => TextEncoding.all.find? (·.name == s) with
  | some c => pure c
  | none => refuse place (.unknownEncoding v)

/-- The encodings that a list names, each once, in ascending order. -/
def encodingsAt (fields : Fields) : Reading (List TextEncoding) :=
  let place := Place.root.field "text_encodings"
  match Json.field? fields "text_encodings" with
  | none => pure [.utf8]
  | some (.arr items) => do
    let named ← items.zipIdx.mapM fun (v, i) => encodingOf (place.item i) v
    pure ([.cString, .utf8].filter named.contains)
  | some _ => refuse place .notList

/-- A helper template; missing and null are none. -/
def helperAt (place : Place) (fields : Fields) (key : String) : Reading (Option String) :=
  match Json.field fields key with
  | .null => pure none
  | .str s => if s.isEmpty then refuse place (.helperNotString key) else pure (some s)
  | _ => refuse place (.helperNotString key)

def entryOf (place : Place) : Json → Reading CapabilityEntry
  | .obj fields => do
    match Json.unknownFields fields ["supported", "release", "retain"] with
    | [] => pure ()
    | unknown => refuse place (.unknownFields unknown)
    let supported ← match Json.field? fields "supported" with
      | none => pure true
      | some (.bool b) => pure b
      | some _ => refuse place .supportNotBoolean
    let release ← helperAt place fields "release"
    let retain ← helperAt place fields "retain"
    pure { supported, release, retain }
  | _ => refuse place .notObject

/-- The entries by variant and mode. -/
abbrev Entries := TypeKind → OwnershipMode → Option CapabilityEntry

def setEntry (entries : Entries) (kind : TypeKind) (mode : OwnershipMode) (e : CapabilityEntry) :
    Entries :=
  fun k m => if k = kind ∧ m = mode then some e else entries k m

/-- Adds the entries of one variant, in the order they are given. -/
def addModes (place : Place) (kind : TypeKind) : Entries → Fields → Reading Entries
  | entries, [] => pure entries
  | entries, (name, v) :: rest => do
    let here := place.field name
    let some mode := OwnershipMode.ofName? name | refuse here (.unknownMode name)
    let e ← entryOf here v
    addModes place kind (setEntry entries kind mode e) rest

/-- Adds the entries of all variants, in the order they are given. -/
def addKinds (place : Place) : Entries → Fields → Reading Entries
  | entries, [] => pure entries
  | entries, (name, v) :: rest => do
    let here := place.field name
    let some kind := TypeKind.all.find? (·.name == name) | refuse here (.unknownKind name)
    match v with
    | .obj modes => do
      let entries ← addModes here kind entries modes
      addKinds place entries rest
    | _ => refuse here .notObject

def topFields : List String :=
  ["format", "version", "target", "int_bits", "float_bits", "text_encodings", "entries", "x"]

/-- The capability table of a document. -/
def ofDocument (document : Json) : Reading CapabilityTable :=
  match document with
  | .obj fields => do
    if (Json.field fields "format").string? ≠ some formatName
        ∨ (Json.field fields "version").isZero = false then
      refuse .root .unsupportedFormat
    match Json.unknownFields fields topFields with
    | [] => pure ()
    | unknown => refuse .root (.unknownTopFields unknown)
    let target ← match Json.field fields "target" with
      | .str s =>
        if s.isEmpty then refuse (Place.root.field "target") .notNonEmptyString else pure s
      | _ => refuse (Place.root.field "target") .notNonEmptyString
    let encodings ← encodingsAt fields
    let entries ← match Json.field fields "entries" with
      | .obj kinds => addKinds (Place.root.field "entries") (fun _ _ => none) kinds
      | _ => refuse (Place.root.field "entries") .notObject
    let intBits ← widthsAt fields "int_bits" [8, 16, 32, 64]
    let floatBits ← widthsAt fields "float_bits" [32, 64]
    pure { target, entries, intBits, floatBits, encodings }
  | _ => refuse .root .documentNotObject

end Crossing.CapabilityTable
