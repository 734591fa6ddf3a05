/-!
# JSON values

Documents as they are read: numbers written with a point or an exponent are kept apart from
integers, which have any size, and an object keeps its fields in the order they came. A field
given twice counts once, with the last value at the first place.
-/

namespace Crossing

/-- A JSON value. -/
inductive Json where
  | null
  | bool (value : Bool)
  | int (value : Int)
  | float (value : Float)
  | str (value : String)
  | arr (items : List Json)
  | obj (fields : List (String × Json))
  deriving Inhabited

namespace Json

/-- The fields of an object. -/
abbrev Fields := List (String × Json)

/-- The value of a field, if it is there. -/
def field? (fields : Fields) (key : String) : Option Json := fields.lookup key

def hasField (fields : Fields) (key : String) : Bool := fields.any (·.1 == key)

/-- The value of a field; null when it is missing. -/
def field (fields : Fields) (key : String) : Json := (field? fields key).getD .null

/-- Sets a field in place, or adds it at the end. -/
def setField (fields : Fields) (key : String) (value : Json) : Fields :=
  if hasField fields key then fields.map fun f => if f.1 == key then (key, value) else f
  else fields ++ [(key, value)]

/-- The names of the fields outside a list, in ascending order. -/
def unknownFields (fields : Fields) (allowed : List String) : List String :=
  ((fields.map (·.1)).filter fun k => !allowed.contains k).mergeSort (fun a b => decide (a ≤ b))

/-- The fields of an object; none for any other value. -/
def fields? : Json → Option Fields
  | .obj fields => some fields
  | _ => none

def items? : Json → Option (List Json)
  | .arr items => some items
  | _ => none

def string? : Json → Option String
  | .str s => some s
  | _ => none

def int? : Json → Option Int
  | .int n => some n
  | _ => none

def isNull : Json → Bool
  | .null => true
  | _ => false

/-- A text, or null for none. -/
def ofString? : Option String → Json
  | some s => .str s
  | none => .null

def ofInt? : Option Int → Json
  | some n => .int n
  | none => .null

/-- Whether the value counts as the number zero: zero in any spelling, and false. -/
def isZero : Json → Bool
  | .int n => n == 0
  | .float x => x == 0
  | .bool b => !b
  | _ => false

end Json

end Crossing
