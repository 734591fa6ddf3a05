import Crossing.Building.Recipe
import Crossing.Layout.Basic

/-!
# The tags of an enumeration

A variant without a number of its own has the one after the variant before it, and the first has
zero. Two variants must not share a tag, and all tags together must fit an integer of 64 bits.
-/

namespace Crossing.Building

/-- A variant with its tag, and the latest variant before it that has the same tag. -/
structure TaggedVariant where
  variant : NativeVariant
  tag : Int
  clash : Option String

/-- Variants with their tags. `next` is the tag of a variant without a number, and `taken` holds
the tags so far, latest first. -/
def tagVariants (next : Int) (taken : List (Int × String)) :
    List NativeVariant → List TaggedVariant
  | [] => []
  | v :: vs =>
    let tag := v.discriminant.getD next
    ⟨v, tag, taken.lookup tag⟩ :: tagVariants (tag + 1) ((tag, v.name) :: taken) vs

/-- The problem of a variant whose tag is taken. -/
def TaggedVariant.problems (name : String) (v : TaggedVariant) : List Problem :=
  match v.clash with
  | none => []
  | some other =>
    [{ message := "enum `" ++ name ++ "`: variants `" ++ other ++ "` and `" ++ v.variant.name
        ++ "` share discriminant " ++ toString v.tag }]

/-- Whether no integer of 64 bits, signed for negative tags, holds everything from `least` to
`greatest`. -/
def exceedsTag (least greatest : Int) : Bool :=
  decide (bitRange 64 ≤ greatest)
    || decide (least < 0) && (decide (least < -bitRange 63) || decide (bitRange 63 ≤ greatest))

/-- The problem of tags that do not fit together. -/
def rangeProblems (name : String) (tags : List Int) : List Problem :=
  let least := leastOf tags
  let greatest := greatestOf tags
  if exceedsTag least greatest then
    [{ message := "enum `" ++ name ++ "`: discriminants " ++ toString least ++ ".."
        ++ toString greatest ++ " do not fit a 64-bit tag" }]
  else []

end Crossing.Building
