import Crossing.Layout.Basic
import Crossing.Steps

/-!
# Computing layouts

`layoutOf` is the rule: the layout of a type for a word size, by recursion on the type. It fails
where a union has tags that no tag can hold. The engine answers the same and keeps every layout
that it computes, also those of the parts of a type that fails. Each layout is issued once, under a
number, so that a later stage can tell the layout on record from an equal one made elsewhere.
-/

namespace Crossing

namespace InterfaceType

mutual

/-- The layout of a type. -/
def layoutOf (w : WordSize) : InterfaceType → Except TagRange Layout
  | .primitive k b _ => .ok (.primitive k b)
  | .pointer _ _ _ _ => .ok (.word w)
  | .buffer _ _ => .ok (.wordPair w)
  | .array e _ n => do
    let l ← layoutOf w e
    pure (l.array n)
  | .text _ _ => .ok (.wordPair w)
  | .record _ fs => do
    let parts ← layoutOfFields w fs
    pure (.record parts)
  | .taggedUnion _ vs => do
    let tag ← tagLayout (vs.map (·.tag))
    let parts ← layoutOfVariants w vs
    pure (.union tag parts)
  | .function _ _ _ _ => .ok (.word w)
  | .handle _ _ => .ok (.word w)
termination_by structural t => t

def layoutOfFields (w : WordSize) : List (Field InterfaceType) →
    Except TagRange (List (Field Layout))
  | [] => .ok []
  | ⟨name, t⟩ :: fs => do
    let l ← layoutOf w t
    let rest ← layoutOfFields w fs
    pure (⟨name, l⟩ :: rest)
termination_by structural fs => fs

def layoutOfVariants (w : WordSize) : List (Variant InterfaceType) →
    Except TagRange (List (Variant Layout))
  | [] => .ok []
  | ⟨name, tag, fs⟩ :: vs => do
    let parts ← layoutOfFields w fs
    let rest ← layoutOfVariants w vs
    pure (⟨name, tag, parts⟩ :: rest)
termination_by structural vs => vs

end

end InterfaceType

/-- A layout with the number that it was issued under. -/
structure IssuedLayout where
  layout : Layout
  number : Nat
  deriving DecidableEq, Inhabited

/-- The layouts computed so far for one word size, latest first, and the next free number. -/
structure LayoutEngine where
  word : WordSize
  cache : List (InterfaceType × IssuedLayout) := []
  next : Nat := 0

namespace LayoutEngine

/-- A computation of layouts. A failure keeps what was computed before it. -/
abbrev Query := ExceptT TagRange (Steps LayoutEngine)

def has (e : LayoutEngine) (t : InterfaceType) : Bool := (e.cache.lookup t).isSome

/-- Puts a layout on record for a type, in place of any other. -/
def record (e : LayoutEngine) (t : InterfaceType) (l : Layout) : IssuedLayout × LayoutEngine :=
  let issued : IssuedLayout := ⟨l, e.next⟩
  (issued, { e with cache := (t, issued) :: e.cache, next := e.next + 1 })

/-- The layout on record, or else the computed one, which is put on record. -/
def cached (t : InterfaceType) (compute : Query Layout) : Query IssuedLayout := do
  match (← get).cache.lookup t with
  | some issued => pure issued
  | none =>
    let l ← compute
    modifyGet fun e => e.record t l

mutual

/-- The layout of a type, from the record where it is there. -/
def query : InterfaceType → Query IssuedLayout
  | .primitive k b s => cached (.primitive k b s) (pure (.primitive k b))
  | .pointer t n h m => cached (.pointer t n h m) do pure (.word (← get).word)
  | .buffer e h => cached (.buffer e h) do pure (.wordPair (← get).word)
  | .array e h n => cached (.array e h n) do
    let l ← query e
    pure (l.layout.array n)
  | .text c h => cached (.text c h) do pure (.wordPair (← get).word)
  | .record name fs => cached (.record name fs) do
    let parts ← queryFields fs
    pure (.record parts)
  | .taggedUnion name vs => cached (.taggedUnion name vs) do
    let tag ← liftExcept (tagLayout (vs.map (·.tag)))
    let parts ← queryVariants vs
    pure (.union tag parts)
  | .function ps r f h => cached (.function ps r f h) do pure (.word (← get).word)
  | .handle n s => cached (.handle n s) do pure (.word (← get).word)
termination_by structural t => t

def queryFields : List (Field InterfaceType) → Query (List (Field Layout))
  | [] => pure []
  | ⟨name, t⟩ :: fs => do
    let l ← query t
    let rest ← queryFields fs
    pure (⟨name, l.layout⟩ :: rest)
termination_by structural fs => fs

def queryVariants : List (Variant InterfaceType) → Query (List (Variant Layout))
  | [] => pure []
  | ⟨name, tag, fs⟩ :: vs => do
    let parts ← queryFields fs
    let rest ← queryVariants vs
    pure (⟨name, tag, parts⟩ :: rest)
termination_by structural vs => vs

end

/-- Asks the engine for the layout of a type. -/
def layoutOf (e : LayoutEngine) (t : InterfaceType) :
    Except TagRange IssuedLayout × LayoutEngine :=
  (query t).run.run e

end LayoutEngine

end Crossing
