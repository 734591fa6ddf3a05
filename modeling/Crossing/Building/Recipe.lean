import Crossing.Findings
import Crossing.InterfaceType.Basic
import Crossing.Nominal.Graph
import Crossing.TypeExpr.Render
import Crossing.TypeExpr.Size

/-!
# Recipes for interface types

A recipe says how a type expression becomes an interface type: outright, from the types of its
parts, or through the declaration of a nominal type. It holds no built types. The weight of a
recipe bounds the sizes of its parts, and `wrap` says what becomes of a single built part.
-/

namespace Crossing.Building

/-- What keeps a type expression from becoming an interface type. -/
structure Problem where
  message : String
  type : Option String := none
  notes : List String := []
  deriving DecidableEq

/-- A problem with a type expression. -/
def Problem.about (e : TypeExpr) (message : String) : Problem := { message, type := some e.render }

/-- What a function returns. -/
inductive Return where
  | value (type : TypeExpr)
  /-- A value, or else an error. -/
  | fallible (type error : TypeExpr)
  | malformed (problem : Problem)

/-- A `Result` at the place of a return type is what a failing function returns; no return type
stands for the unit type. -/
def Return.ofExpr (ret : Option TypeExpr) : Return :=
  let e := ret.getD .unit
  if e.standardName? = some "Result" then
    match e.args with
    | [t, error] => .fallible t error
    | _ =>
      .malformed (.about e ("`" ++ e.render ++ "` must name both the value and the error type"))
  else .value e

/-- What stands around a single part. -/
inductive Wrapper where
  | array (length : ArrayLength)
  | buffer (holding : Holding)
  /-- The value or nothing; the problem is told where nothing looks like a value. -/
  | optional (raw : Problem)
  | pointer (nullable : Bool) (holding : Holding) (mutable : Bool)

/-- How a type expression becomes an interface type. -/
inductive Recipe where
  | exact (type : InterfaceType)
  | refuse (problem : Problem)
  /-- A type that breaks a rule of its kind, and the parts of it that break none. -/
  | illFormed (parts : List InterfaceType) (reason : String)
  | wrap (via : Via) (part : TypeExpr) (wrapper : Wrapper)
  | tuple (parts : List TypeExpr)
  | function (params : List TypeExpr) (ret : Return) (holding : Holding)
  /-- A struct of a pointer and a length: a buffer of what the pointer points to. -/
  | buffer (struct : Nominal) (element : TypeExpr) (holding : Holding)
  /-- A nominal type, mentioned by an expression. -/
  | named (nominal : Nominal) (mention : TypeExpr)

noncomputable def Return.weight : Return → Nat
  | .value t => sizeOf t
  | .fallible t e => sizeOf t + sizeOf e
  | .malformed _ => 0

namespace Recipe

/-- What the parts of a recipe weigh together. -/
noncomputable def weight : Recipe → Nat
  | .wrap _ part _ => sizeOf part
  | .tuple parts => sizeOf parts
  | .function params ret _ => sizeOf params + ret.weight
  | .exact _ | .refuse _ | .illFormed .. | .buffer .. | .named .. => 0

end Recipe

theorem Return.weight_ofExpr_le (ret : Option TypeExpr) :
    (Return.ofExpr ret).weight ≤ sizeOf ret + 1 := by
  have hsize : sizeOf (ret.getD .unit) ≤ sizeOf ret + 1 := by
    cases ret <;> grind [TypeExpr.unit]
  simp only [Return.ofExpr]
  split
  · split
    · rename_i t e h
      have := TypeExpr.sizeOf_args_le (ret.getD .unit)
      rw [h] at this
      simp only [List.cons.sizeOf_spec] at this
      simp only [weight]
      omega
    · simp [weight]
  · exact hsize

/-- Why a recipe cannot be followed to an end. -/
inductive Fault where
  /-- A declaration needs itself. -/
  | endless (name : String)
  /-- An array whose length is not known. -/
  | lengthless
  /-- A fixed type that breaks a rule of its kind. -/
  | illFormed (reason : String)
  deriving DecidableEq

def Fault.message : Fault → String
  | .endless name => "`" ++ name ++ "` needs itself"
  | .lengthless => "Sequence.length is required for FIXED encoding and only for it"
  | .illFormed reason => reason

/-- The holdings of pointers that are never null, so that null is free to stand for nothing. -/
def Wrapper.leavesNull : Holding → Bool
  | .borrowed | .owned | .counted => true
  | .value | .raw | .optional => false

/-- An optional value: a pointer that may be null, or a place that may be empty. -/
def Wrapper.optionalOf (raw : Problem) : InterfaceType → Findings Problem InterfaceType
  | .pointer target nullable holding mutable =>
    if holding = .raw then .error [raw]
    else if !nullable && leavesNull holding then .ok (.pointer target true holding mutable)
    else .ok (.pointer (.pointer target nullable holding mutable) true .optional false)
  | t => .ok (.pointer t true .optional false)

/-- Puts a wrapper around a built part. -/
def Wrapper.around (part : InterfaceType) :
    Wrapper → Except Fault (Findings Problem InterfaceType)
  | .array length =>
    match length.value? with
    | some n => .ok (.ok (.array part .value n))
    | none => .error .lengthless
  | .buffer holding => .ok (.ok (.buffer part holding))
  | .optional raw => .ok (optionalOf raw part)
  | .pointer nullable holding mutable => .ok (.ok (.pointer part nullable holding mutable))

end Crossing.Building
