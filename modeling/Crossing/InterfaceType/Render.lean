import Crossing.InterfaceType.Basic
import Crossing.Identifier.Style

/-!
# The spellings of a type

`render` is the compact text that diagnostics and models show. `symbol` is the identifier that
helper names are made from; records and unions give the snake case of their qualified name without
its `crate::`, so that it names the declaration and not its parts.
-/

namespace Crossing

def Holding.all : List Holding := [.value, .borrowed, .owned, .raw, .counted, .optional]

def Holding.name : Holding → String
  | .value => "value"
  | .borrowed => "borrowed"
  | .owned => "owned"
  | .raw => "raw"
  | .counted => "counted"
  | .optional => "optional"

def TextEncoding.all : List TextEncoding := [.utf8, .cString]

def TextEncoding.name : TextEncoding → String
  | .utf8 => "utf8"
  | .cString => "c_string"

def PrimitiveKind.all : List PrimitiveKind := [.int, .float, .bool, .char, .unit]

def PrimitiveKind.name : PrimitiveKind → String
  | .int => "int"
  | .float => "float"
  | .bool => "bool"
  | .char => "char"
  | .unit => "unit"

def TypeKind.all : List TypeKind :=
  [.primitive, .pointer, .sequence, .text, .record, .taggedUnion, .function, .handle]

def TypeKind.name : TypeKind → String
  | .primitive => "Primitive"
  | .pointer => "Pointer"
  | .sequence => "Sequence"
  | .text => "Text"
  | .record => "Record"
  | .taggedUnion => "TaggedUnion"
  | .function => "Function"
  | .handle => "Opaque"

namespace InterfaceType

def renderPrimitive (kind : PrimitiveKind) (bits : Int) (signed : Bool) : String :=
  match kind with
  | .int => (if signed then "i" else "u") ++ toString bits
  | .float => "f" ++ toString bits
  | kind => kind.name

mutual

/-- The compact text of a type. Records and unions are shown by name, tuples by their parts. -/
def render : InterfaceType → String
  | .primitive k b s => renderPrimitive k b s
  | .pointer t n h _ =>
    "Pointer<" ++ render t ++ ", " ++ h.name ++ ">" ++ (if n then "?" else "")
  | .buffer e h => "Sequence<" ++ render e ++ ", " ++ h.name ++ ">"
  | .array e _ n => "Sequence<" ++ render e ++ "; " ++ toString n ++ ">"
  | .text c h => "Text<" ++ c.name ++ ", " ++ h.name ++ ">"
  | .record name fs =>
    if name.isEmpty then "(" ++ ", ".intercalate (renderFields fs) ++ ")" else name
  | .taggedUnion name _ => name
  | .function ps r f _ =>
    "fn(" ++ ", ".intercalate (renderList ps) ++ ") -> " ++ render r ++ renderFailure f
  | .handle n name => "Opaque#" ++ toString n ++ "<" ++ name ++ ">"
termination_by structural t => t

def renderList : List InterfaceType → List String
  | [] => []
  | t :: ts => render t :: renderList ts
termination_by structural ts => ts

def renderFields : List (Field InterfaceType) → List String
  | [] => []
  | ⟨_, t⟩ :: fs => render t :: renderFields fs
termination_by structural fs => fs

def renderFailure : Failure InterfaceType → String
  | .never => ""
  | .untyped => " throws"
  | .typed e => " throws " ++ render e
termination_by structural f => f

end

/-- The text without its `crate::` parts. -/
def withoutCrate : List Char → List Char
  | [] => []
  | 'c' :: 'r' :: 'a' :: 't' :: 'e' :: ':' :: ':' :: rest => withoutCrate rest
  | c :: rest => c :: withoutCrate rest

/-- The identifier of a nominal type. -/
def nominalSymbol (name : String) : String :=
  String.ofList (Identifier.toSnake (withoutCrate name.toList))

mutual

/-- The identifier of a type in helper names. -/
def symbol : InterfaceType → String
  | .primitive k b s => renderPrimitive k b s
  | .pointer t _ _ _ => "ptr_" ++ symbol t
  | .buffer e _ => "seq_" ++ symbol e
  | .array e _ n => "arr" ++ toString n ++ "_" ++ symbol e
  | .text .utf8 _ => "str"
  | .text .cString _ => "cstr"
  | .record name fs =>
    if !name.isEmpty then nominalSymbol name
    else if fs.isEmpty then "unit"
    else "tuple_" ++ "_".intercalate (symbolFields fs)
  | .taggedUnion name _ => if name.isEmpty then "unit" else nominalSymbol name
  | .function ps r _ _ => "fn_" ++ "_".intercalate (symbolList ps ++ [symbol r])
  | .handle _ name => nominalSymbol name
termination_by structural t => t

def symbolList : List InterfaceType → List String
  | [] => []
  | t :: ts => symbol t :: symbolList ts
termination_by structural ts => ts

def symbolFields : List (Field InterfaceType) → List String
  | [] => []
  | ⟨_, t⟩ :: fs => symbol t :: symbolFields fs
termination_by structural fs => fs

end

end InterfaceType

end Crossing
