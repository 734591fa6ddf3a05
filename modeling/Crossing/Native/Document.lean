import Crossing.Native.Declaration
import Crossing.Native.Fault
import Crossing.TypeExpr.Parser

/-!
# Native modules as documents

The strict reader of module documents. Unknown fields, wrong shapes and unknown kinds are refused
at their place; the first refusal in the order of reading ends it. Types are read by
`TypeExpr.parse`, which refuses nothing. An item of the document is smaller than the object whose
list it stands in (`Json.sizeOf_item_lt`), so reading a tree of modules ends.
-/

namespace Crossing.NativeModule

open Json (Fields Place)

abbrev Reading := Except Fault

def refuse {α : Type} (place : Place) (refusal : Refusal) : Reading α := .error ⟨place, refusal⟩

def formatName : String := "rua-native-module"

/-- The fields of an object that has no other fields than those allowed. -/
def objectAt (place : Place) (allowed : List String) : Json → Reading Fields
  | .obj fields =>
    match Json.unknownFields fields allowed with
    | [] => pure fields
    | unknown => refuse place (.unknownFields unknown)
  | _ => refuse place .notObject

/-- A string that must be there and not be empty. -/
def stringAt (place : Place) (fields : Fields) (key : String) : Reading String :=
  match Json.field fields key with
  | .str s => if s.isEmpty then refuse (place.field key) .notNonEmptyString else pure s
  | _ => refuse (place.field key) .notNonEmptyString

/-- A string, empty or not, with a default for a missing one. -/
def stringOr (place : Place) (fields : Fields) (key default : String) : Reading String :=
  match Json.field fields key with
  | .str s => pure s
  | .null => pure default
  | _ => refuse (place.field key) .notNonEmptyString

def optionalString (place : Place) (fields : Fields) (key : String) : Reading (Option String) :=
  match Json.field fields key with
  | .str s => pure (some s)
  | .null => pure none
  | _ => refuse (place.field key) .notStringOrNull

def flagAt (place : Place) (fields : Fields) (key : String) : Reading Bool :=
  match Json.field? fields key with
  | none => pure false
  | some (.bool b) => pure b
  | some _ => refuse (place.field key) .notBoolean

/-- The string, if the value is one and it is not empty. -/
def nonEmptyString? : Json → Option String
  | .str s => if s.isEmpty then none else some s
  | _ => none

def stringsAt (place : Place) (fields : Fields) (key : String) : Reading (List String) :=
  match Json.field? fields key with
  | none => pure []
  | some (.arr items) =>
    match items.mapM nonEmptyString? with
    | some texts => pure texts
    | none => refuse (place.field key) .notStrings
  | some _ => refuse (place.field key) .notStrings

/-- The items of a list, which are smaller than the fields they come from. -/
def listAt (place : Place) (fields : Fields) (key : String) :
    Reading { items : List Json // ∀ v ∈ items, sizeOf v < sizeOf fields } :=
  match h : Json.field? fields key with
  | none => pure ⟨[], by simp⟩
  | some (.arr items) => pure ⟨items, fun _ hv => Json.sizeOf_item_lt h hv⟩
  | some _ => refuse (place.field key) .notList

/-- The visibility that a text spells, blanks aside. -/
def visibilityOf? (text : String) : Option Visibility :=
  let plain := String.ofList (text.toList.filter (· ≠ ' '))
  if plain = "pub" then some .everyone
  else if plain = "pub(crate)" then some .crate
  else if plain = "pub(super)" then some .restricted
  else if plain = "pub(self)" ∨ plain = "private" ∨ plain = "" then some .inherited
  else if "pub(in".toList.isPrefixOf text.toList then some .restricted
  else none

def visibilityAt (place : Place) (fields : Fields) (default : Visibility) : Reading Visibility :=
  match Json.field fields "visibility" with
  | .null => pure default
  | .str text =>
    match visibilityOf? text with
    | some v => pure v
    | none => refuse (place.field "visibility") (.unknownVisibility text)
  | _ => refuse (place.field "visibility") .visibilityNotString

def typeAt (place : Place) (fields : Fields) (key : String) : Reading TypeExpr :=
  match Json.field fields key with
  | .str text => pure (.parse text)
  | _ => refuse (place.field key) .notTypeString

def spanAt (place : Place) (fields : Fields) : Reading Span :=
  let value := Json.field fields "span"
  match Span.ofJson? value with
  | some span => pure span
  | none => refuse (place.field "span") (.notSpan value)

def styleAt (place : Place) (fields : Fields) (default : FieldStyle) : Reading FieldStyle :=
  match Json.field fields "style" with
  | .null => pure default
  | value =>
    match value.string?.bind fun s => FieldStyle.all.find? (·.name == s) with
    | some style => pure style
    | none => refuse (place.field "style") (.unknownStyle value)

/-- The results for the items of a list, each read at its own place. -/
def eachAt {α : Type} (place : Place) (read : Place → Json → Reading α) (items : List Json) :
    Reading (List α) :=
  items.zipIdx.mapM fun (v, i) => read (place.item i) v

def fieldOf (default : Visibility) (place : Place) (v : Json) : Reading NativeField := do
  let fields ← objectAt place ["name", "type", "visibility", "x"] v
  let name ← match Json.field fields "name" with
    | .null => pure none
    | value =>
      match nonEmptyString? value with
      | some s => pure (some s)
      | none => refuse (place.field "name") .notNonEmptyStringOrNull
  let type ← typeAt place fields "type"
  let visibility ← visibilityAt place fields default
  pure { name, type, visibility }

def fieldsAt (place : Place) (fields : Fields) (default : Visibility) :
    Reading (List NativeField) := do
  let items ← listAt place fields "fields"
  eachAt (place.field "fields") (fieldOf default) items.val

def parameterOf (place : Place) (v : Json) : Reading Parameter := do
  let fields ← objectAt place ["name", "type", "x"] v
  let name ← stringAt place fields "name"
  let type ← typeAt place fields "type"
  pure { name, type }

/-- The style of fields that none is given for. -/
def styleOf (fields : List NativeField) : FieldStyle := if fields.isEmpty then .unit else .named

/-- A variant; its fields are as visible as the enumeration. -/
def variantOf (place : Place) (v : Json) : Reading NativeVariant := do
  let object ← objectAt place ["name", "fields", "style", "discriminant", "x"] v
  let discriminant ← match Json.field object "discriminant" with
    | .null => pure none
    | .int n => pure (some n)
    | _ => refuse (place.field "discriminant") .notIntegerOrNull
  let fields ← fieldsAt place object .everyone
  let name ← stringAt place object "name"
  let style ← styleAt place object (styleOf fields)
  pure { name, fields, style, discriminant }

/-- The kinds of items that never cross the boundary. -/
def otherKinds : List String := ["const", "static", "trait", "impl", "macro", "union", "use"]

/-- The fields that every item may have. -/
def commonFields : List String := ["kind", "name", "visibility", "attrs", "span", "x"]

/-- The fields that only items of one of the known kinds may have. -/
def ownFields? (kind : String) : Option (List String) :=
  if kind = "fn" then
    some ["params", "ret", "generics", "receiver", "async", "unsafe", "abi"]
  else if kind = "struct" then some ["fields", "style", "generics"]
  else if kind = "enum" then some ["variants", "generics"]
  else if kind = "alias" then some ["target", "generics"]
  else none

def otherOf (place : Place) (kind : String) (v : Json) : Reading Declaration := do
  let fields ← objectAt place commonFields v
  let name ← stringOr place fields "name" "_"
  let visibility ← visibilityAt place fields .inherited
  let attrs ← stringsAt place fields "attrs"
  let span ← spanAt place fields
  pure { name, visibility, generics := [], attrs, span, body := .other kind }

def functionBody (place : Place) (fields : Fields) : Reading DeclarationBody := do
  let items ← listAt place fields "params"
  let params ← eachAt (place.field "params") parameterOf items.val
  let ret ← match Json.field fields "ret" with
    | .null => pure none
    | _ => some <$> typeAt place fields "ret"
  let receiver ← optionalString place fields "receiver"
  let isAsync ← flagAt place fields "async"
  let isUnsafe ← flagAt place fields "unsafe"
  let abi ← optionalString place fields "abi"
  pure (.function params ret receiver isAsync isUnsafe abi)

def structBody (place : Place) (object : Fields) : Reading DeclarationBody := do
  let fields ← fieldsAt place object .inherited
  let style ← styleAt place object (styleOf fields)
  pure (.struct fields style)

def enumerationBody (place : Place) (fields : Fields) : Reading DeclarationBody := do
  let items ← listAt place fields "variants"
  let variants ← eachAt (place.field "variants") variantOf items.val
  pure (.enumeration variants)

def bodyAt (place : Place) (kind : String) (fields : Fields) : Reading DeclarationBody :=
  if kind = "fn" then functionBody place fields
  else if kind = "struct" then structBody place fields
  else if kind = "enum" then enumerationBody place fields
  else .alias <$> typeAt place fields "target"

def itemOf (place : Place) (v : Json) : Reading Declaration :=
  match v with
  | .obj fields =>
    match Json.field fields "kind" with
    | .arr _ | .obj _ => refuse (place.field "kind") .compoundKind
    | .str kind =>
      if otherKinds.contains kind then otherOf place kind v
      else match ownFields? kind with
        | none => refuse (place.field "kind") (.unknownKind (.str kind))
        | some own => do
          let fields ← objectAt place (commonFields ++ own) v
          let name ← stringAt place fields "name"
          let visibility ← visibilityAt place fields .inherited
          let attrs ← stringsAt place fields "attrs"
          let span ← spanAt place fields
          let generics ← stringsAt place fields "generics"
          let body ← bodyAt place kind fields
          pure { name, visibility, generics, attrs, span, body }
    | kind => refuse (place.field "kind") (.unknownKind kind)
  | _ => refuse place .notObject

/-- A module and all modules inside it. -/
def ofValue (place : Place) (v : Json) : Reading NativeModule :=
  match v with
  | .obj fields => do
    let _ ← objectAt place ["name", "visibility", "items", "children", "span", "x"] (.obj fields)
    let declared ← listAt place fields "items"
    let items ← eachAt (place.field "items") itemOf declared.val
    let inner ← listAt place fields "children"
    let children ← inner.val.attach.zipIdx.mapM fun (⟨child, _⟩, i) =>
      ofValue ((place.field "children").item i) child
    let name ← stringAt place fields "name"
    let visibility ← visibilityAt place fields .everyone
    let span ← spanAt place fields
    pure { name, items, children, visibility, span }
  | _ => refuse place .notObject
termination_by sizeOf v
decreasing_by
  have := inner.property child ‹_›
  simp only [Json.obj.sizeOf_spec]
  omega

/-- The module of a document, which must name its format and its version, zero. -/
def ofDocument (document : Json) : Reading NativeModule := do
  let top ← objectAt .root ["format", "version", "module", "x"] document
  if (Json.field top "format").string? ≠ some formatName
      ∨ (Json.field top "version").isZero = false then
    refuse .root .unsupportedFormat
  else match Json.field? top "module" with
    | none => refuse (Place.root.field "module") .noModule
    | some v => ofValue (Place.root.field "module") v

end Crossing.NativeModule
