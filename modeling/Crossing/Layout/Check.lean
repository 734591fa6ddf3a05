import Crossing.Layout.Basic

/-!
# Checking a layout

What is inconsistent in the layout of a record or a union: fields off their alignment or on top of
each other, a size that does not close behind the last field, payloads that differ in place, cover
the tag or leave the union. A layout from any source can be checked.
-/

namespace Crossing.Layout

inductive Problem where
  | alignment (align : Int)
  /-- A field off its alignment; in a union with the name of the variant. -/
  | misaligned (variant : Option String) (field : String) (offset align : Int)
  | overlap (variant : Option String) (field : String)
  | size (found expected : Int)
  | noTag
  | payloadOffsets (offsets : List Int)
  | payloadOverTag (variant : String)
  | payloadTooLong (variant : String) (total : Int)
  deriving DecidableEq

def Problem.owner : Option String → String
  | some variant => "variant `" ++ variant ++ "` "
  | none => ""

def Problem.message : Problem → String
  | .alignment align => "alignment " ++ toString align ++ " is not a power of two"
  | .misaligned variant field offset align =>
    owner variant ++ "field `" ++ field ++ "` at offset " ++ toString offset
      ++ " violates alignment " ++ toString align
  | .overlap variant field =>
    owner variant ++ "field `" ++ field ++ "` overlaps the previous field"
  | .size found expected =>
    "size " ++ toString found ++ " != aligned end of last field " ++ toString expected
  | .noTag => "tagged union without discriminant"
  | .payloadOffsets offsets =>
    "payload offset differs across variants: [" ++ ", ".intercalate (offsets.map toString) ++ "]"
  | .payloadOverTag variant => "variant `" ++ variant ++ "` payload overlaps the discriminant"
  | .payloadTooLong variant total =>
    "variant `" ++ variant ++ "` payload exceeds union size " ++ toString total

def isPowerOfTwo (n : Int) : Bool :=
  decide (1 ≤ n) && (n.toNat &&& (n.toNat - 1)) == 0

/-- What is wrong with fields that follow each other from an offset. -/
def runProblems (variant : Option String) (start : Int) : List FieldLayout → List Problem
  | [] => []
  | f :: rest =>
    (if 1 < f.align ∧ f.offset % f.align ≠ 0
      then [.misaligned variant f.name f.offset f.align] else [])
      ++ (if f.offset < start then [.overlap variant f.name] else [])
      ++ runProblems variant (f.offset + f.size) rest

/-- Where the last of some fields ends. -/
def lastEnd (start : Int) : List FieldLayout → Int
  | [] => start
  | f :: rest => lastEnd (f.offset + f.size) rest

def recordProblems (l : Layout) : List Problem :=
  let expected := alignUp (lastEnd 0 l.fields) l.align
  runProblems none 0 l.fields ++ if expected ≠ l.size then [.size l.size expected] else []

def variantProblems (l : Layout) (tag : TagLayout) (v : VariantLayout) : List Problem :=
  (if v.payloadOffset < tag.offset + tag.width then [.payloadOverTag v.name] else [])
    ++ runProblems (some v.name) v.payloadOffset v.fields
    ++ if l.size < lastEnd v.payloadOffset v.fields then [.payloadTooLong v.name l.size] else []

/-- The payload offsets of the variants, each once, in ascending order. -/
def payloadOffsets (l : Layout) : List Int :=
  (l.variants.map (·.payloadOffset)).eraseDups.mergeSort fun a b => decide (a ≤ b)

def unionProblems (l : Layout) : List Problem :=
  match l.tag with
  | none => [.noTag]
  | some tag =>
    (if 1 < l.payloadOffsets.length then [.payloadOffsets l.payloadOffsets] else [])
      ++ l.variants.flatMap (variantProblems l tag)

/-- What is inconsistent in a layout for a type. -/
def problems (t : InterfaceType) (l : Layout) : List Problem :=
  (if isPowerOfTwo l.align then [] else [.alignment l.align])
    ++ match t with
      | .record .. => l.recordProblems
      | .taggedUnion .. => l.unionProblems
      | _ => []

end Crossing.Layout
