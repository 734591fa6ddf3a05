import Crossing.Native.Tree

/-!
# Nominal types

The structs, enumerations and aliases of a module tree by their qualified names, and the look-up
of a path from a scope. Of several declarations with one name the first counts.
-/

namespace Crossing

/-- A declared type with the modules around it. -/
structure Nominal where
  name : String
  scope : List String
  declaration : Declaration
  deriving DecidableEq

namespace Nominal

/-- The target of an alias. -/
def aliasTarget? (n : Nominal) : Option TypeExpr :=
  match n.declaration.body with
  | .alias target => some target
  | _ => none

def isAlias (n : Nominal) : Bool := n.aliasTarget?.isSome

/-- The fields of a struct. -/
def structFields? (n : Nominal) : Option (List NativeField) :=
  match n.declaration.body with
  | .struct fields _ => some fields
  | _ => none

/-- Whether it is a struct with a field that not everyone sees. -/
def hasPrivateFields (n : Nominal) : Bool :=
  match n.structFields? with
  | some fields => fields.any fun f => !f.visibility.crossesBoundary
  | none => false

/-- The types that the declaration is made of. -/
def types (n : Nominal) : List TypeExpr :=
  match n.declaration.body with
  | .struct fields _ => fields.map (·.type)
  | .enumeration variants => variants.flatMap fun v => v.fields.map (·.type)
  | .alias target => [target]
  | _ => []

end Nominal

def DeclarationBody.isNominal : DeclarationBody → Bool
  | .struct .. | .enumeration .. | .alias .. => true
  | .function .. | .other .. => false

/-- The nominal types of a module tree, in the order of their declaration. -/
structure NominalIndex where
  root : String
  nominals : List Nominal

/-- What a path means from a scope. -/
inductive Resolution where
  | found (nominal : Nominal)
  | ambiguous (path : String) (candidates : List String)
  | missing

namespace Resolution

def nominal? : Resolution → Option Nominal
  | .found n => some n
  | _ => none

/-- What is wrong with an ambiguous path. -/
def problem? : Resolution → Option String
  | .ambiguous path candidates =>
    some ("ambiguous type `" ++ path ++ "` (candidates: " ++ ", ".intercalate candidates ++ ")")
  | _ => none

def ofOption : Option Nominal → Resolution
  | some n => .found n
  | none => .missing

end Resolution

namespace NominalIndex

/-- Adds a nominal type unless its name is taken. -/
def insert (nominals : List Nominal) (n : Nominal) : List Nominal :=
  if nominals.any (·.name == n.name) then nominals else nominals ++ [n]

def ofModule (m : NativeModule) : NominalIndex where
  root := m.name
  nominals := ((m.declarations.filter fun d => d.2.body.isNominal).map fun (scope, d) =>
    ⟨scope.qualify d.name, scope.modules, d⟩).foldl insert []

/-- The nominal type with a qualified name. -/
def get? (index : NominalIndex) (name : String) : Option Nominal :=
  index.nominals.find? (·.name == name)

/-- The aliases of the index. -/
def aliases (index : NominalIndex) : List String :=
  (index.nominals.filter (·.isAlias)).map (·.name)

def names (index : NominalIndex) : List String := index.nominals.map (·.name)

/-- Goes from a scope along leading `self` and `super` parts. -/
def climb : List String → List String → List String × List String
  | base, [] => (base, [])
  | base, part :: rest =>
    if part == "self" then climb base rest
    else if part == "super" then climb base.dropLast rest
    else (base, part :: rest)

/-- The declaration that a path names in the innermost of the scopes that start a given one. The
first argument is the length of the scope to begin with. -/
def innermost (index : NominalIndex) (scope names : List String) : Nat → Option Nominal
  | 0 => none
  | depth + 1 =>
    (index.get? (QualifiedName.join (scope.take (depth + 1) ++ names))).or
      (innermost index scope names depth)

/-- Whether a name ends in a separator and another name. -/
def endsIn (name suffix : String) : Bool :=
  ("::".toList ++ suffix.toList).isSuffixOf name.toList

/-- The meaning of a path from a scope. `crate`, the name of the root, `self` and `super` fix the
place; any other path is looked for in the scope and the scopes around it, and then, as long as it
is the only one, anywhere. -/
def resolve (index : NominalIndex) (names scope : List String) : Resolution :=
  match names with
  | [] => .missing
  | first :: rest =>
    if first == "crate" || first == index.root then
      .ofOption (index.get? (QualifiedName.join (index.root :: rest)))
    else if first == "self" || first == "super" then
      let (base, names) := climb scope names
      .ofOption (index.get? (QualifiedName.join (base ++ names)))
    else match index.innermost scope names scope.length with
      | some n => .found n
      | none =>
        let path := QualifiedName.join names
        match index.nominals.filter fun n => endsIn n.name path with
        | [] => .missing
        | [n] => .found n
        | hits => .ambiguous path (hits.map (·.name))

end NominalIndex

end Crossing
