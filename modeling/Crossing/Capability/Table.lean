import Crossing.InterfaceType.Render
import Crossing.Ownership.Mode
import Crossing.Text.Template

/-!
# Capability tables

What a target can render: which variants of types in which ownership modes, which widths of
numbers and which encodings of texts, and the helpers that release and retain values. A helper is
given as a template, which is filled with the symbol of the type.
-/

namespace Crossing

/-- What a target says about one variant in one mode. -/
structure CapabilityEntry where
  supported : Bool := true
  release : Option String := none
  retain : Option String := none
  deriving DecidableEq

/-- The capabilities of a target. Widths and encodings are listed once each, in ascending order. -/
structure CapabilityTable where
  target : String
  entries : TypeKind → OwnershipMode → Option CapabilityEntry
  intBits : List Int
  floatBits : List Int
  encodings : List TextEncoding

namespace CapabilityTable

/-- The entry of a variant in a mode, if the target supports it. -/
def entry (table : CapabilityTable) (kind : TypeKind) (mode : OwnershipMode) :
    Option CapabilityEntry :=
  (table.entries kind mode).filter (·.supported)

/-- What a target lacks. -/
inductive Gap where
  | intWidth (bits : Int)
  | floatWidth (bits : Int)
  | encoding (encoding : TextEncoding)
  | combination (kind : TypeKind) (mode : OwnershipMode)
  deriving DecidableEq

def Gap.message (target : String) : Gap → String
  | .intWidth bits => "target `" ++ target ++ "` has no " ++ toString bits ++ "-bit integers"
  | .floatWidth bits => "target `" ++ target ++ "` has no " ++ toString bits ++ "-bit floats"
  | .encoding c => "target `" ++ target ++ "` cannot render " ++ c.name ++ " text"
  | .combination kind mode =>
    "target `" ++ target ++ "` cannot render " ++ kind.name ++ " values as " ++ mode.name

/-- Whether the target lacks the width or the encoding of a type itself. -/
def formGap? (table : CapabilityTable) : InterfaceType → Option Gap
  | .primitive .int bits _ => if bits ∈ table.intBits then none else some (.intWidth bits)
  | .primitive .float bits _ => if bits ∈ table.floatBits then none else some (.floatWidth bits)
  | .text c _ => if c ∈ table.encodings then none else some (.encoding c)
  | _ => none

/-- Why the target cannot render a type in a mode; none when it can. -/
def gap? (table : CapabilityTable) (t : InterfaceType) (mode : OwnershipMode) : Option Gap :=
  (table.formGap? t).or
    (if (table.entry t.kind mode).isSome then none else some (.combination t.kind mode))

/-- A helper name for a type: its template, if there is one, filled with the symbol. -/
def helper (template : Option String) (t : InterfaceType) :
    Except Text.Template.Fault (Option String) :=
  match template with
  | none => .ok none
  | some text =>
    if text.isEmpty then .ok none
    else do
      let name ← Text.expand text.toList t.symbol.toList
      pure (some (String.ofList name))

/-- The duty for a type in a mode, with the names of the helpers. -/
def obligation (table : CapabilityTable) (t : InterfaceType) (mode : OwnershipMode) :
    Except Text.Template.Fault Obligation :=
  match mode.obligation, table.entry t.kind mode with
  | .none, _ => .ok .free
  | kind, none => .ok { kind }
  | .retainRelease, some e => do
    let release ← helper e.release t
    let retain ← helper e.retain t
    pure { kind := .retainRelease, release, retain }
  | kind, some e => do
    let release ← helper e.release t
    pure { kind, release }

/-- Equality, entry by entry. -/
def same (a b : CapabilityTable) : Bool :=
  a.target == b.target && a.intBits == b.intBits && a.floatBits == b.floatBits
    && decide (a.encodings = b.encodings)
    && TypeKind.all.all fun k => OwnershipMode.all.all fun m =>
      decide (a.entries k m = b.entries k m)

/-- The variants in ascending order of their names. -/
def kindsByName : List TypeKind :=
  [.function, .handle, .pointer, .primitive, .record, .sequence, .taggedUnion, .text]

/-- The modes in ascending order of their names. -/
def modesByName : List OwnershipMode :=
  [.borrowed, .sharedCounted, .transferredIn, .transferredOut]

def helperField (name : String) (template : Option String) : Json.Fields :=
  match template with
  | some s => if s.isEmpty then [] else [(name, .str s)]
  | none => []

def entryJson (e : CapabilityEntry) : Json :=
  .obj (helperField "release" e.release ++ helperField "retain" e.retain)

/-- The supported entries of a variant, by mode. -/
def kindFields (table : CapabilityTable) (kind : TypeKind) : Json.Fields :=
  modesByName.filterMap fun m => (table.entry kind m).map fun e => (m.name, entryJson e)

/-- The supported entries, by variant and mode. -/
def entriesFields (table : CapabilityTable) : Json.Fields :=
  kindsByName.filterMap fun k =>
    let fields := table.kindFields k
    if fields.isEmpty then none else some (k.name, .obj fields)

def formatName : String := "rua-capabilities"

/-- The table as a document. -/
def toJson (table : CapabilityTable) : Json :=
  .obj [("format", .str formatName), ("version", .int 0), ("target", .str table.target),
    ("int_bits", .arr (table.intBits.map .int)),
    ("float_bits", .arr (table.floatBits.map .int)),
    ("text_encodings", .arr (table.encodings.map fun c => .str c.name)),
    ("entries", .obj table.entriesFields)]

end CapabilityTable

end Crossing
