import Crossing.InterfaceType.Basic

/-!
# What a value holds on to

Two questions about the values of a type: whether they refer to memory that is not theirs, and
whether releasing them has to free something. Both look through what is held in place, and stop at
pointers, handles and functions.
-/

namespace Crossing.InterfaceType

/-- A reference borrows, a pointer that owns or is bare does not, and what is held in place
borrows when its contents do. -/
def borrowsThrough (h : Holding) (contents : Bool) : Bool :=
  match h with
  | .borrowed => true
  | .owned | .counted | .raw => false
  | .value | .optional => contents

mutual

/-- Whether a value of the type refers to memory that it does not own. -/
def borrows : InterfaceType → Bool
  | .pointer t _ h _ => borrowsThrough h (borrows t)
  | .buffer e h => borrowsThrough h (borrows e)
  | .array e h _ => borrowsThrough h (borrows e)
  | .text _ h => borrowsThrough h false
  | .record _ fs => borrowsFields fs
  | .taggedUnion _ vs => borrowsVariants vs
  | .function _ _ _ h => borrowsThrough h false
  | .primitive .. => false
  | .handle .. => false
termination_by structural t => t

def borrowsFields : List (Field InterfaceType) → Bool
  | [] => false
  | ⟨_, t⟩ :: fs => borrows t || borrowsFields fs
termination_by structural fs => fs

def borrowsVariants : List (Variant InterfaceType) → Bool
  | [] => false
  | ⟨_, _, fs⟩ :: vs => borrowsFields fs || borrowsVariants vs
termination_by structural vs => vs

end

/-- A type that is held as optional without being a pointer, and what was asked of it. No answer is
defined, since there is no null to stand for the missing value. -/
inductive Misheld where
  /-- How a value of the type is held. -/
  | holding (type : InterfaceType)
  /-- Whether a value of the type owns something. -/
  | resources (type : InterfaceType)
  deriving DecidableEq

/-- Whether something is freed behind a holding, given the answers for an optional copy and for the
contents. -/
def ownsThrough (h : Holding) (copy contents : Except Misheld Bool) : Except Misheld Bool :=
  match h with
  | .owned | .counted => .ok true
  | .borrowed | .raw => .ok false
  | .optional => copy
  | .value => contents

mutual

/-- Whether releasing a value of the type has to free something. An optional value is a copy that
is freed unless it borrows; functions held in place own nothing. Parts are asked in their order
until one owns something. -/
def ownsResources : InterfaceType → Except Misheld Bool
  | .pointer t _ h _ => ownsThrough h (.ok !borrows t) (ownsResources t)
  | .buffer e h => ownsThrough h (.error (.resources (.buffer e h))) (ownsResources e)
  | .array e h n => ownsThrough h (.error (.resources (.array e h n))) (ownsResources e)
  | .text c h => ownsThrough h (.error (.resources (.text c h))) (.ok false)
  | .record _ fs => ownsFields fs
  | .taggedUnion _ vs => ownsVariants vs
  | .function ps r f h => ownsThrough h (.error (.resources (.function ps r f h))) (.ok false)
  | .primitive .. => .ok false
  | .handle .. => .ok false
termination_by structural t => t

def ownsFields : List (Field InterfaceType) → Except Misheld Bool
  | [] => .ok false
  | ⟨_, t⟩ :: fs => do
    if ← ownsResources t then pure true else ownsFields fs
termination_by structural fs => fs

def ownsVariants : List (Variant InterfaceType) → Except Misheld Bool
  | [] => .ok false
  | ⟨_, _, fs⟩ :: vs => do
    if ← ownsFields fs then pure true else ownsVariants vs
termination_by structural vs => vs

end

end Crossing.InterfaceType
