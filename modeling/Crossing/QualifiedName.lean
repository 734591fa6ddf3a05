/-!
# Qualified names

Names of items with their modules, with `::` between the parts. `split` cuts a text at every
separator from the left; `last` is what stands behind the last separator.
-/

namespace Crossing.QualifiedName

/-- The parts with separators between them. -/
def join (parts : List String) : String := "::".intercalate parts

/-- The parts of a text between its separators. -/
def splitChars : List Char → List (List Char)
  | [] => [[]]
  | ':' :: ':' :: rest => [] :: splitChars rest
  | c :: rest =>
    match splitChars rest with
    | [] => [[c]]
    | part :: parts => (c :: part) :: parts

def split (name : String) : List String := (splitChars name.toList).map String.ofList

/-- What stands behind the last separator of a text, if it has one. -/
def afterLast : List Char → Option (List Char)
  | [] => none
  | c :: rest =>
    (afterLast rest).or
      (match c, rest with
        | ':', ':' :: behind => some behind
        | _, _ => none)

/-- The last part of a name. -/
def last (name : String) : String :=
  String.ofList ((afterLast name.toList).getD name.toList)

end Crossing.QualifiedName
