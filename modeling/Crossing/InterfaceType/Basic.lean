/-!
# Interface types

The language-neutral model of every value that crosses the boundary. Types are compared by
structure: two types are equal exactly when `same` says so, and `same` gives them decidable
equality. A recursive nominal type is cut at a handle, which names it without holding its parts.
-/

namespace Crossing

inductive PrimitiveKind where
  | int
  | float
  | bool
  | char
  | unit
  deriving DecidableEq, Inhabited

/-- How the native side holds a value. It is a part of the type: an owned sequence and a borrowed
one differ. -/
inductive Holding where
  /-- In place, copied. -/
  | value
  /-- Through a reference. -/
  | borrowed
  /-- Through a pointer or container that frees it. -/
  | owned
  /-- Through a bare pointer. -/
  | raw
  /-- Through a counted pointer. -/
  | counted
  /-- In place or absent, where no pointer is there to be null. -/
  | optional
  deriving DecidableEq, Inhabited

inductive TextEncoding where
  | utf8
  | cString
  deriving DecidableEq, Inhabited

/-- The variants of interface types. -/
inductive TypeKind where
  | primitive
  | pointer
  | sequence
  | text
  | record
  | taggedUnion
  | function
  | handle
  deriving DecidableEq, Inhabited

/-- A named part. -/
structure Field (α : Type) where
  name : String
  type : α
  deriving DecidableEq

/-- An alternative of a union: its name, its tag and the fields of its payload. -/
structure Variant (α : Type) where
  name : String
  tag : Int
  fields : List (Field α)
  deriving DecidableEq

/-- What a function reports besides its result. -/
inductive Failure (α : Type) where
  /-- It does not fail. -/
  | never
  /-- It fails without a value. -/
  | untyped
  /-- It fails with a value of a type. -/
  | typed (error : α)
  deriving DecidableEq

/-- The type of a value that crosses the boundary. -/
inductive InterfaceType where
  | primitive (kind : PrimitiveKind) (bits : Int) (signed : Bool)
  | pointer (target : InterfaceType) (nullable : Bool) (holding : Holding) (mutable : Bool)
  /-- A pointer with a length beside it. -/
  | buffer (element : InterfaceType) (holding : Holding)
  /-- A number of elements in place. Nothing keeps the number from being negative, and the size of
  the array with it. -/
  | array (element : InterfaceType) (holding : Holding) (length : Int)
  | text (encoding : TextEncoding) (holding : Holding)
  /-- A record with the qualified name of its declaration; the empty name is that of tuples. -/
  | record (name : String) (fields : List (Field InterfaceType))
  | taggedUnion (name : String) (variants : List (Variant InterfaceType))
  | function (params : List InterfaceType) (ret : InterfaceType) (failure : Failure InterfaceType)
      (holding : Holding)
  /-- A nominal type by its number in the registry, without its parts. -/
  | handle (number : Int) (name : String)
  deriving Inhabited

namespace InterfaceType

def unit : InterfaceType := .primitive .unit 0 false

def bool : InterfaceType := .primitive .bool 8 false

def char : InterfaceType := .primitive .char 32 false

def int (bits : Int) (signed : Bool) : InterfaceType := .primitive .int bits signed

def float (bits : Int) : InterfaceType := .primitive .float bits true

def kind : InterfaceType → TypeKind
  | .primitive .. => .primitive
  | .pointer .. => .pointer
  | .buffer .. | .array .. => .sequence
  | .text .. => .text
  | .record .. => .record
  | .taggedUnion .. => .taggedUnion
  | .function .. => .function
  | .handle .. => .handle

/-- How a value of the type is held; aggregates, primitives and handles are held in place. -/
def holding : InterfaceType → Holding
  | .pointer _ _ h _ | .buffer _ h | .array _ h _ | .text _ h | .function _ _ _ h => h
  | .primitive .. | .record .. | .taggedUnion .. | .handle .. => .value

mutual

/-- Equality by structure. -/
def same : InterfaceType → InterfaceType → Bool
  | .primitive k b s, .primitive k' b' s' => decide (k = k') && b == b' && s == s'
  | .pointer t n h m, .pointer t' n' h' m' =>
    same t t' && n == n' && decide (h = h') && m == m'
  | .buffer e h, .buffer e' h' => same e e' && decide (h = h')
  | .array e h n, .array e' h' n' => same e e' && decide (h = h') && n == n'
  | .text c h, .text c' h' => decide (c = c') && decide (h = h')
  | .record n fs, .record n' fs' => n == n' && sameFields fs fs'
  | .taggedUnion n vs, .taggedUnion n' vs' => n == n' && sameVariants vs vs'
  | .function ps r f h, .function ps' r' f' h' =>
    sameList ps ps' && same r r' && sameFailure f f' && decide (h = h')
  | .handle n s, .handle n' s' => n == n' && s == s'
  | _, _ => false
termination_by structural t => t

def sameList : List InterfaceType → List InterfaceType → Bool
  | [], [] => true
  | t :: ts, t' :: ts' => same t t' && sameList ts ts'
  | _, _ => false
termination_by structural t => t

def sameFields : List (Field InterfaceType) → List (Field InterfaceType) → Bool
  | [], [] => true
  | ⟨n, t⟩ :: fs, ⟨n', t'⟩ :: fs' => n == n' && same t t' && sameFields fs fs'
  | _, _ => false
termination_by structural t => t

def sameVariants : List (Variant InterfaceType) → List (Variant InterfaceType) → Bool
  | [], [] => true
  | ⟨n, g, fs⟩ :: vs, ⟨n', g', fs'⟩ :: vs' =>
    n == n' && g == g' && sameFields fs fs' && sameVariants vs vs'
  | _, _ => false
termination_by structural t => t

def sameFailure : Failure InterfaceType → Failure InterfaceType → Bool
  | .never, .never => true
  | .untyped, .untyped => true
  | .typed t, .typed t' => same t t'
  | _, _ => false
termination_by structural t => t

end

mutual

theorem same_eq : ∀ {t u : InterfaceType}, same t u = true → t = u
  | .primitive .., u, h => by cases u <;> simp_all [same]
  | .pointer .., u, h => by
    cases u <;> simp_all [same]
    exact same_eq h.1.1.1
  | .buffer .., u, h => by
    cases u <;> simp_all [same]
    exact same_eq h.1
  | .array .., u, h => by
    cases u <;> simp_all [same]
    exact same_eq h.1.1
  | .text .., u, h => by cases u <;> simp_all [same]
  | .record .., u, h => by
    cases u <;> simp_all [same]
    exact sameFields_eq h.2
  | .taggedUnion .., u, h => by
    cases u <;> simp_all [same]
    exact sameVariants_eq h.2
  | .function .., u, h => by
    cases u <;> simp_all [same]
    exact ⟨sameList_eq h.1.1.1, same_eq h.1.1.2, sameFailure_eq h.1.2⟩
  | .handle .., u, h => by cases u <;> simp_all [same]

theorem sameList_eq : ∀ {ts us : List InterfaceType}, sameList ts us = true → ts = us
  | [], us, h => by cases us <;> simp_all [sameList]
  | _ :: _, us, h => by
    cases us <;> simp_all [sameList]
    exact ⟨same_eq h.1, sameList_eq h.2⟩

theorem sameFields_eq : ∀ {fs gs : List (Field InterfaceType)}, sameFields fs gs = true → fs = gs
  | [], gs, h => by cases gs <;> simp_all [sameFields]
  | ⟨_, _⟩ :: _, gs, h => by
    rcases gs with _ | ⟨⟨_, _⟩, _⟩ <;> simp_all [sameFields]
    exact ⟨same_eq h.1.2, sameFields_eq h.2⟩

theorem sameVariants_eq :
    ∀ {vs ws : List (Variant InterfaceType)}, sameVariants vs ws = true → vs = ws
  | [], ws, h => by cases ws <;> simp_all [sameVariants]
  | ⟨_, _, _⟩ :: _, ws, h => by
    rcases ws with _ | ⟨⟨_, _, _⟩, _⟩ <;> simp_all [sameVariants]
    exact ⟨sameFields_eq h.1.2, sameVariants_eq h.2⟩

theorem sameFailure_eq : ∀ {f g : Failure InterfaceType}, sameFailure f g = true → f = g
  | .never, g, h => by cases g <;> simp_all [sameFailure]
  | .untyped, g, h => by cases g <;> simp_all [sameFailure]
  | .typed _, g, h => by
    cases g <;> simp_all [sameFailure]
    exact same_eq h

end

mutual

theorem same_self : ∀ t : InterfaceType, same t t = true
  | .primitive .. => by simp [same]
  | .pointer t .. => by simp [same, same_self t]
  | .buffer t _ => by simp [same, same_self t]
  | .array t _ _ => by simp [same, same_self t]
  | .text .. => by simp [same]
  | .record _ fs => by simp [same, sameFields_self fs]
  | .taggedUnion _ vs => by simp [same, sameVariants_self vs]
  | .function ps r f _ => by simp [same, sameList_self ps, same_self r, sameFailure_self f]
  | .handle .. => by simp [same]

theorem sameList_self : ∀ ts : List InterfaceType, sameList ts ts = true
  | [] => rfl
  | t :: ts => by simp [sameList, same_self t, sameList_self ts]

theorem sameFields_self : ∀ fs : List (Field InterfaceType), sameFields fs fs = true
  | [] => rfl
  | ⟨_, t⟩ :: fs => by simp [sameFields, same_self t, sameFields_self fs]

theorem sameVariants_self : ∀ vs : List (Variant InterfaceType), sameVariants vs vs = true
  | [] => rfl
  | ⟨_, _, fs⟩ :: vs => by simp [sameVariants, sameFields_self fs, sameVariants_self vs]

theorem sameFailure_self : ∀ f : Failure InterfaceType, sameFailure f f = true
  | .never => rfl
  | .untyped => rfl
  | .typed t => by simp [sameFailure, same_self t]

end

theorem same_iff {t u : InterfaceType} : same t u = true ↔ t = u :=
  ⟨same_eq, fun h => h ▸ same_self t⟩

instance : DecidableEq InterfaceType := fun _ _ => decidable_of_iff _ same_iff

end InterfaceType

end Crossing
