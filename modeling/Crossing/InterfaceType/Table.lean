import Crossing.InterfaceType.Graph

/-!
# The type table of a run

The table holds every type of a run once, in the order they were first met, and the registry of
the nominal types that are cut at handles, numbered in the order they were reserved.
-/

namespace Crossing

structure TypeTable where
  types : List InterfaceType := []
  nominals : List String := []

namespace TypeTable

def empty : TypeTable := {}

/-- Registers a type if no equal one is there. -/
def intern (table : TypeTable) (t : InterfaceType) : TypeTable :=
  if t ∈ table.types then table else { table with types := table.types ++ [t] }

/-- Registers a type behind all of its parts. -/
def internAll (table : TypeTable) (t : InterfaceType) : TypeTable :=
  t.postorder.foldl intern table

/-- The type of the table that equals a given one. -/
def find? (table : TypeTable) (t : InterfaceType) : Option InterfaceType :=
  table.types.find? (· = t)

def contains (table : TypeTable) (t : InterfaceType) : Bool := decide (t ∈ table.types)

def size (table : TypeTable) : Nat := table.types.length

/-- The number of a name, which is allocated on first use. -/
def reserve (table : TypeTable) (name : String) : Nat × TypeTable :=
  match table.nominals.idxOf? name with
  | some number => (number, table)
  | none => (table.nominals.length, { table with nominals := table.nominals ++ [name] })

/-- The handle of a name, registered as a type. -/
def handle (table : TypeTable) (name : String) : InterfaceType × TypeTable :=
  let (number, table) := table.reserve name
  let t := .handle (number : Int) name
  (t, table.intern t)

/-- The number and name at an index of the registry. Negative indices count from the end. -/
def nominal? (table : TypeTable) (index : Int) : Option (Nat × String) :=
  let place := if index < 0 then index + table.nominals.length else index
  if place < 0 then none else table.nominals[place.toNat]?.map fun name => (place.toNat, name)

end TypeTable

end Crossing
