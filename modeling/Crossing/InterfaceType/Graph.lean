import Crossing.InterfaceType.Basic

/-!
# The graph of a type

The direct parts of a type with their labels, the walk that visits every type below a root once,
and how deeply function types nest. A handle has no parts: it is where a recursive type is cut.
`walk` keeps a stack of what is still to visit, and the total size of the stack shrinks with every
step, because the parts of a type are together smaller than the type (`sum_sizeOf_children`).
-/

namespace Crossing.InterfaceType

/-- The error value of a function, if it has one. -/
def failureParts : Failure InterfaceType → List (String × InterfaceType)
  | .typed e => [("error", e)]
  | .never | .untyped => []

/-- Values numbered from `first`, under a label for each number. -/
def numbered (label : Nat → String) : Nat → List InterfaceType → List (String × InterfaceType)
  | _, [] => []
  | first, t :: ts => (label first, t) :: numbered label (first + 1) ts

/-- The direct parts of a type, each with the label of its place. -/
def children : InterfaceType → List (String × InterfaceType)
  | .pointer t _ _ _ => [("*", t)]
  | .buffer e _ | .array e _ _ => [("[]", e)]
  | .record _ fs => fs.map fun f => (f.name, f.type)
  | .taggedUnion _ vs =>
    vs.flatMap fun v => v.fields.map fun f => (v.name ++ "." ++ f.name, f.type)
  | .function ps r f _ =>
    numbered (fun i => "arg" ++ toString i) 0 ps ++ ("return", r) :: failureParts f
  | .primitive .. | .text .. | .handle .. => []

/-- The direct parts of a type without their labels. -/
def parts (t : InterfaceType) : List InterfaceType := t.children.map (·.2)

theorem map_snd_numbered (label : Nat → String) :
    ∀ (first : Nat) (ts : List InterfaceType), (numbered label first ts).map (·.2) = ts
  | _, [] => rfl
  | first, t :: ts => by
    rw [numbered, List.map_cons, map_snd_numbered label (first + 1) ts]

/-- The sizes of types added up. -/
noncomputable def totalSize : List InterfaceType → Nat
  | [] => 0
  | t :: ts => sizeOf t + totalSize ts

theorem totalSize_append (ts us : List InterfaceType) :
    totalSize (ts ++ us) = totalSize ts + totalSize us := by
  induction ts with
  | nil => simp [totalSize]
  | cons t ts ih =>
    simp only [List.cons_append, totalSize, ih]
    omega

theorem totalSize_le_sizeOf (ts : List InterfaceType) : totalSize ts ≤ sizeOf ts := by
  induction ts with
  | nil => simp [totalSize]
  | cons t ts ih =>
    simp only [totalSize, List.cons.sizeOf_spec]
    omega

theorem totalSize_fields_le (fs : List (Field InterfaceType)) :
    totalSize (fs.map (·.type)) ≤ sizeOf fs := by
  induction fs with
  | nil => simp [totalSize]
  | cons f fs ih =>
    cases f
    simp only [totalSize, List.map_cons, List.cons.sizeOf_spec, Field.mk.sizeOf_spec]
    omega

theorem totalSize_variants_le (vs : List (Variant InterfaceType)) :
    totalSize (vs.flatMap fun v => v.fields.map (·.type)) ≤ sizeOf vs := by
  induction vs with
  | nil => simp [totalSize]
  | cons v vs ih =>
    cases v with
    | mk name tag fs =>
      have := totalSize_fields_le fs
      rw [List.flatMap_cons, totalSize_append]
      simp only [List.cons.sizeOf_spec, Variant.mk.sizeOf_spec]
      omega

theorem totalSize_failure_le (f : Failure InterfaceType) :
    totalSize ((failureParts f).map (·.2)) ≤ sizeOf f := by
  cases f <;> simp [failureParts, totalSize]

/-- The parts of a type are together smaller than the type. -/
theorem totalSize_parts_lt (t : InterfaceType) : totalSize t.parts < sizeOf t := by
  cases t with
  | pointer t n h m => simp [parts, children, totalSize]; omega
  | buffer e h => simp [parts, children, totalSize]; omega
  | array e h n => simp [parts, children, totalSize]; omega
  | record n fs =>
    have := totalSize_fields_le fs
    simp only [parts, children, List.map_map, Function.comp_def, record.sizeOf_spec]
    omega
  | taggedUnion n vs =>
    have := totalSize_variants_le vs
    simp only [parts, children, List.map_flatMap, List.map_map, Function.comp_def,
      taggedUnion.sizeOf_spec]
    omega
  | function ps r f h =>
    have hp := totalSize_le_sizeOf ps
    have hf := totalSize_failure_le f
    have happ := totalSize_append ps (r :: (failureParts f).map (·.2))
    have hcons := totalSize_append [r] ((failureParts f).map (·.2))
    have hr : totalSize [r] = sizeOf r := by simp [totalSize]
    simp only [parts, children, List.map_append, List.map_cons, map_snd_numbered,
      function.sizeOf_spec]
    simp only [List.singleton_append] at hcons
    omega
  | primitive k b s => simp [parts, children, totalSize]
  | text c h => grind [parts, children, totalSize]
  | handle n s => grind [parts, children, totalSize]

/-- Visits what the stack holds and everything below it, in the order of the stack and left to
right, leaving out what was seen before. -/
def walk (stack seen : List InterfaceType) : List InterfaceType :=
  match stack with
  | [] => []
  | t :: rest =>
    if t ∈ seen then walk rest seen else t :: walk (t.parts ++ rest) (t :: seen)
termination_by totalSize stack
decreasing_by
  · have := totalSize_append [t] rest
    have ht : totalSize [t] = sizeOf t := by simp [totalSize]
    have hpos : 0 < sizeOf t := Nat.lt_of_le_of_lt (Nat.zero_le _) (totalSize_parts_lt t)
    simp only [List.singleton_append] at this
    omega
  · have := totalSize_append [t] rest
    have ht : totalSize [t] = sizeOf t := by simp [totalSize]
    have := totalSize_parts_lt t
    have := totalSize_append t.parts rest
    simp only [List.singleton_append] at *
    omega

/-- Every type at or below a root, once each. -/
def graph (root : InterfaceType) : List InterfaceType := walk [root] []

theorem sizeOf_le_totalSize {t : InterfaceType} {ts : List InterfaceType} (h : t ∈ ts) :
    sizeOf t ≤ totalSize ts := by
  induction ts with
  | nil => simp at h
  | cons u us ih =>
    rw [totalSize]
    rcases List.mem_cons.1 h with rfl | h
    · omega
    · have := ih h
      omega

/-- Every part of a type at any depth, as often as it occurs, each behind its own parts. -/
def postorder (t : InterfaceType) : List InterfaceType :=
  (t.parts.attach.flatMap fun ⟨u, _⟩ => postorder u) ++ [t]
termination_by sizeOf t
decreasing_by exact Nat.lt_of_le_of_lt (sizeOf_le_totalSize ‹_›) (totalSize_parts_lt t)

mutual

/-- The deepest nesting of function types inside a type; a function without functions inside has
depth one. -/
def callbackDepth : InterfaceType → Nat
  | .pointer t _ _ _ => callbackDepth t
  | .buffer e _ => callbackDepth e
  | .array e _ _ => callbackDepth e
  | .record _ fs => callbackDepthFields fs
  | .taggedUnion _ vs => callbackDepthVariants vs
  | .function ps r f _ =>
    max (max (callbackDepthList ps) (callbackDepth r)) (callbackDepthFailure f) + 1
  | .primitive .. => 0
  | .text .. => 0
  | .handle .. => 0
termination_by structural t => t

def callbackDepthList : List InterfaceType → Nat
  | [] => 0
  | t :: ts => max (callbackDepth t) (callbackDepthList ts)
termination_by structural ts => ts

def callbackDepthFields : List (Field InterfaceType) → Nat
  | [] => 0
  | ⟨_, t⟩ :: fs => max (callbackDepth t) (callbackDepthFields fs)
termination_by structural fs => fs

def callbackDepthVariants : List (Variant InterfaceType) → Nat
  | [] => 0
  | ⟨_, _, fs⟩ :: vs => max (callbackDepthFields fs) (callbackDepthVariants vs)
termination_by structural vs => vs

def callbackDepthFailure : Failure InterfaceType → Nat
  | .typed e => callbackDepth e
  | .never => 0
  | .untyped => 0
termination_by structural f => f

end

end Crossing.InterfaceType
