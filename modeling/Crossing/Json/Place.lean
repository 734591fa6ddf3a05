import Crossing.Json.Basic

/-!
# Places in a document

A place is the way from the root of a document to a value: the fields and the numbers of the items
on the way. It is written with a dollar sign for the root, as in `$.module.items[2].name`.
-/

namespace Crossing.Json

inductive Step where
  | field (name : String)
  | item (index : Nat)
  deriving DecidableEq

/-- A place, from the root down. -/
abbrev Place := List Step

namespace Place

def root : Place := []

/-- A field of the value at a place. -/
def field (p : Place) (name : String) : Place := p ++ [.field name]

/-- An item of the list at a place. -/
def item (p : Place) (index : Nat) : Place := p ++ [.item index]

def stepText : Step → String
  | .field name => "." ++ name
  | .item index => "[" ++ toString index ++ "]"

def render (p : Place) : String := "$" ++ String.join (p.map stepText)

end Place

theorem sizeOf_lookup_lt :
    ∀ {fields : Fields} {key : String} {v : Json}, fields.lookup key = some v →
      sizeOf v < sizeOf fields
  | [], _, _, h => by simp at h
  | (k, u) :: rest, key, v, h => by
    rw [List.lookup_cons] at h
    split at h
    · injection h with h
      subst h
      simp only [List.cons.sizeOf_spec, Prod.mk.sizeOf_spec]
      omega
    · have := sizeOf_lookup_lt h
      simp only [List.cons.sizeOf_spec]
      omega

/-- The items of a list are smaller than an object that holds the list in a field. -/
theorem sizeOf_item_lt {fields : Fields} {key : String} {items : List Json} {v : Json}
    (h : field? fields key = some (.arr items)) (hv : v ∈ items) : sizeOf v < sizeOf fields := by
  have hl := sizeOf_lookup_lt h
  have hi := List.sizeOf_lt_of_mem hv
  simp only [arr.sizeOf_spec] at hl
  omega

end Crossing.Json
