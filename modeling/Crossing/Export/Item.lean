import Crossing.Native.Declaration
import Crossing.QualifiedName

/-!
# Export items

A declaration that crosses the boundary, with the place it was found at, its number in the order
of collection and the symbol under which it is exported.
-/

namespace Crossing

inductive ItemKind where
  | function
  | struct
  | enumeration
  | alias
  deriving DecidableEq

def ItemKind.name : ItemKind → String
  | .function => "function"
  | .struct => "struct"
  | .enumeration => "enum"
  | .alias => "alias"

/-- The kind of item that a declaration makes; none for those that never cross. -/
def DeclarationBody.itemKind? : DeclarationBody → Option ItemKind
  | .function .. => some .function
  | .struct .. => some .struct
  | .enumeration .. => some .enumeration
  | .alias .. => some .alias
  | .other .. => none

structure ExportItem where
  qualifiedName : String
  kind : ItemKind
  /-- Whether it carries an export marker. -/
  isExplicit : Bool
  symbol : String
  index : Nat
  /-- The modules that it lies in, below the root. -/
  modulePath : List String
  declaration : Declaration
  deriving DecidableEq

namespace ExportItem

def name (item : ExportItem) : String := QualifiedName.last item.qualifiedName

/-- The modules of the qualified name. -/
def scope (item : ExportItem) : List String := (QualifiedName.split item.qualifiedName).dropLast

def typeRefs (item : ExportItem) : List (String × TypeExpr) := item.declaration.typeRefs

def span (item : ExportItem) : Span := item.declaration.span

end ExportItem

end Crossing
