import Crossing.InterfaceType.Basic
import Crossing.Json.Basic

/-!
# Layouts

The place that a value takes in memory: its size and alignment, for a record the offsets of the
fields, for a union the tag and the payloads of the variants. The rules are those of C: fields
stand in the order of their declaration, each at the next multiple of its alignment, and a size is
a multiple of the alignment of the whole.
-/

namespace Crossing

/-- Where a field stands. -/
structure FieldLayout where
  name : String
  offset : Int
  size : Int
  align : Int
  deriving DecidableEq

/-- Where the tag of a union stands, how many bytes it has and whether it is signed. -/
structure TagLayout where
  offset : Int
  width : Int
  signed : Bool
  deriving DecidableEq

/-- Where the payload of a variant stands, and its fields by their offsets in the union. -/
structure VariantLayout where
  name : String
  tag : Int
  payloadOffset : Int
  payloadSize : Int
  payloadAlign : Int
  fields : List FieldLayout
  deriving DecidableEq

/-- The layout of a type. -/
structure Layout where
  size : Int
  align : Int
  fields : List FieldLayout := []
  tag : Option TagLayout := none
  variants : List VariantLayout := []
  deriving DecidableEq, Inhabited

/-- The word sizes of the targets. -/
inductive WordSize where
  | bits32
  | bits64
  deriving DecidableEq, Inhabited

def WordSize.bits : WordSize → Nat
  | .bits32 => 32
  | .bits64 => 64

def WordSize.bytes : WordSize → Int
  | .bits32 => 4
  | .bits64 => 8

def WordSize.ofBits? (n : Int) : Option WordSize :=
  if n = 32 then some .bits32 else if n = 64 then some .bits64 else none

/-- Why a number of bits is no word size. -/
def WordSize.refusal (n : Int) : String := "unsupported target word size: " ++ toString n

/-- The least multiple of an alignment that is at least a value. Alignments up to one align
nothing. -/
def alignUp (value align : Int) : Int :=
  if align ≤ 1 then value else (value + align - 1) / align * align

/-- Tags that no tag of 64 bits can hold, by the least and the greatest of them. -/
structure TagRange where
  least : Int
  greatest : Int
  deriving DecidableEq

def TagRange.message (r : TagRange) : String :=
  "enum tags out of 64-bit range: " ++ toString r.least ++ ".." ++ toString r.greatest

/-- The least of some numbers; zero of none. -/
def leastOf : List Int → Int
  | [] => 0
  | n :: ns => ns.foldl min n

/-- The greatest of some numbers; zero of none. -/
def greatestOf : List Int → Int
  | [] => 0
  | n :: ns => ns.foldl max n

/-- How many numbers some bits can write. -/
def bitRange (bits : Nat) : Int := (Nat.pow 2 bits : Nat)

/-- Whether an integer of some bytes holds everything from `least` to `greatest`. -/
def fitsWidth (signed : Bool) (least greatest : Int) (width : Nat) : Bool :=
  if signed then
    decide (-bitRange (8 * width - 1) ≤ least) && decide (greatest < bitRange (8 * width - 1))
  else decide (greatest < bitRange (8 * width))

/-- The narrowest tag that holds all of some values, signed when one of them is negative. -/
def tagLayout (tags : List Int) : Except TagRange TagLayout :=
  let signed := tags.any (· < 0)
  let least := leastOf tags
  let greatest := greatestOf tags
  match [1, 2, 4, 8].find? (fitsWidth signed least greatest) with
  | some width => .ok ⟨0, width, signed⟩
  | none => .error ⟨least, greatest⟩

namespace Layout

def primitive (kind : PrimitiveKind) (bits : Int) : Layout :=
  match kind with
  | .unit => { size := 0, align := 1 }
  | _ =>
    let size := max 1 (bits / 8)
    { size, align := size }

/-- One word: pointers, functions and handles. -/
def word (w : WordSize) : Layout := { size := w.bytes, align := w.bytes }

/-- A pointer with a length beside it. -/
def wordPair (w : WordSize) : Layout :=
  { size := 2 * w.bytes
    align := w.bytes
    fields := [⟨"ptr", 0, w.bytes, w.bytes⟩, ⟨"len", w.bytes, w.bytes, w.bytes⟩] }

/-- Elements side by side. -/
def array (element : Layout) (length : Int) : Layout :=
  { size := alignUp element.size element.align * length, align := element.align }

/-- Fields one after another from an offset, each at the next multiple of its alignment. -/
def place (start : Int) : List (Field Layout) → List FieldLayout
  | [] => []
  | ⟨name, l⟩ :: rest =>
    let offset := alignUp start l.align
    ⟨name, offset, l.size, l.align⟩ :: place (offset + l.size) rest

/-- Where fields placed from an offset end. -/
def runEnd (start : Int) : List (Field Layout) → Int
  | [] => start
  | ⟨_, l⟩ :: rest => runEnd (alignUp start l.align + l.size) rest

/-- The greatest alignment of some fields; one when there are none. -/
def runAlign : List (Field Layout) → Int
  | [] => 1
  | ⟨_, l⟩ :: rest => max l.align (runAlign rest)

/-- The size of a record with some fields. -/
def runSize (parts : List (Field Layout)) : Int := alignUp (runEnd 0 parts) (runAlign parts)

def record (parts : List (Field Layout)) : Layout :=
  { size := runSize parts, align := runAlign parts, fields := place 0 parts }

/-- The greatest alignment of some payloads. -/
def payloadAlign : List (Variant Layout) → Int
  | [] => 1
  | v :: vs => max (runAlign v.fields) (payloadAlign vs)

/-- The greatest size of some payloads; zero of none. -/
def payloadSize (variants : List (Variant Layout)) : Int :=
  greatestOf (variants.map fun v => runSize v.fields)

/-- The layout of a union: the tag, and behind it the payloads of all variants in one place. -/
def union (tag : TagLayout) (variants : List (Variant Layout)) : Layout :=
  let offset := alignUp (tag.offset + tag.width) (payloadAlign variants)
  let align := max tag.width (payloadAlign variants)
  { size := alignUp (offset + payloadSize variants) align
    align
    tag := some tag
    variants := variants.map fun v =>
      { name := v.name
        tag := v.tag
        payloadOffset := offset
        payloadSize := runSize v.fields
        payloadAlign := runAlign v.fields
        fields := place offset v.fields } }

/-- The layout of a field, by its name. -/
def field? (l : Layout) (name : String) : Option FieldLayout := l.fields.find? (·.name == name)

def fieldsJson (fields : List FieldLayout) : Json :=
  .arr (fields.map fun f => .obj [("name", .str f.name), ("offset", .int f.offset),
    ("size", .int f.size), ("align", .int f.align)])

def tagJson (tag : TagLayout) : Json :=
  .obj [("offset", .int tag.offset), ("width", .int tag.width), ("signed", .bool tag.signed)]

def variantJson (v : VariantLayout) : Json :=
  .obj [("name", .str v.name), ("tag", .int v.tag), ("payload_offset", .int v.payloadOffset),
    ("payload_size", .int v.payloadSize), ("fields", fieldsJson v.fields)]

/-- The layout as a document. Variants are given with a tag only. -/
def toJson (l : Layout) : Json :=
  .obj ([("size", .int l.size), ("align", .int l.align), ("fields", fieldsJson l.fields)]
    ++ match l.tag with
      | none => []
      | some tag =>
        [("discriminant", tagJson tag), ("variants", .arr (l.variants.map variantJson))])

end Layout

end Crossing
