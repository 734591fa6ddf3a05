import Crossing.TypeExpr.Basic
import Crossing.Span
import Crossing.Text.Blank

/-!
# Native declarations

The surface of a native module as its front end reports it: a tree of modules whose declarations
have a visibility, attributes and type expressions. No name in it has been looked up yet.
-/

namespace Crossing

inductive Visibility where
  | everyone
  | crate
  | restricted
  | inherited
  deriving DecidableEq

def Visibility.name : Visibility → String
  | .everyone => "pub"
  | .crate => "pub(crate)"
  | .restricted => "pub(restricted)"
  | .inherited => "private"

/-- Whether an item can be seen from outside its crate. -/
def Visibility.crossesBoundary (v : Visibility) : Bool := v = .everyone

/-- How the fields of a struct or a variant are written. -/
inductive FieldStyle where
  | named
  | positional
  | unit
  deriving DecidableEq

def FieldStyle.all : List FieldStyle := [.named, .positional, .unit]

def FieldStyle.name : FieldStyle → String
  | .named => "named"
  | .positional => "tuple"
  | .unit => "unit"

structure Parameter where
  name : String
  type : TypeExpr
  deriving DecidableEq

/-- A field; a positional one has no name. -/
structure NativeField where
  name : Option String
  type : TypeExpr
  visibility : Visibility
  deriving DecidableEq

structure NativeVariant where
  name : String
  fields : List NativeField
  style : FieldStyle
  discriminant : Option Int
  deriving DecidableEq

/-- What is declared. -/
inductive DeclarationBody where
  /-- A function; `receiver` is there for methods, and no result means the unit type. -/
  | function (params : List Parameter) (ret : Option TypeExpr) (receiver : Option String)
      (isAsync isUnsafe : Bool) (abi : Option String)
  | struct (fields : List NativeField) (style : FieldStyle)
  | enumeration (variants : List NativeVariant)
  | alias (target : TypeExpr)
  /-- Something that never crosses the boundary: a constant, a trait, an implementation … -/
  | other (kind : String)
  deriving DecidableEq

structure Declaration where
  name : String
  visibility : Visibility
  generics : List String
  attrs : List String
  span : Span
  body : DeclarationBody
  deriving DecidableEq

/-- A module with its declarations and the modules inside it. -/
structure NativeModule where
  name : String
  items : List Declaration
  children : List NativeModule
  visibility : Visibility
  span : Span

/-- The name of a field, or its number when it has no name. -/
def NativeField.label (f : NativeField) (index : Nat) : String := f.name.getD (toString index)

/-- Fields with their labels, numbered from `first`. -/
def labelledFields : Nat → List NativeField → List (String × NativeField)
  | _, [] => []
  | first, f :: fs => (f.label first, f) :: labelledFields (first + 1) fs

/-- The types that a declaration mentions, each with a label, in the order of the text. -/
def Declaration.typeRefs (d : Declaration) : List (String × TypeExpr) :=
  match d.body with
  | .function params ret .. =>
    params.map (fun p => (p.name, p.type)) ++ [("return", ret.getD .unit)]
  | .struct fields _ => (labelledFields 0 fields).map fun f => (f.1, f.2.type)
  | .enumeration variants =>
    variants.flatMap fun v =>
      (labelledFields 0 v.fields).map fun f => (v.name ++ "." ++ f.1, f.2.type)
  | .alias target => [("target", target)]
  | .other _ => []

/-- The path of an attribute: what stands before its arguments or value, without blanks. -/
def attributePath (attr : List Char) : List Char :=
  let head := (attr.takeWhile (· != '(')).takeWhile (· != '=')
  (Text.fields head).flatten

end Crossing
