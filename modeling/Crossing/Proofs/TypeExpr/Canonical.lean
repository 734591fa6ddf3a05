import Crossing.TypeExpr.Render
import Crossing.TypeExpr.Size

/-!
# The types inside a type, and the tree that rendering keeps

`within` lists a type with all types inside it, and a type has an induction over these
(`parts_induction`). `canonical` is the tree in which each literal length is spelled as its value.
Rendering keeps the shape of a tree where `KeepsShape` holds of all that is inside: parentheses are not
rendered, so what they kept from belonging to an inner type must not be there.
-/

namespace Crossing

/-- The types that a segment holds: its arguments and its result. -/
def Segment.inner {α : Type} (s : Segment α) : List α := s.args ++ s.ret.toList

namespace TypeExpr

section Inside

mutual

/-- A type and all types inside it, with the paths of its bounds. -/
def within : TypeExpr → List TypeExpr
  | .path ss => .path ss :: withinPath ss
  | .reference l m t => .reference l m t :: within t
  | .pointer m t => .pointer m t :: within t
  | .slice t => .slice t :: within t
  | .array t n => .array t n :: within t
  | .tuple ts => .tuple ts :: withinList ts
  | .function u a ps r => .function u a ps r :: (withinList ps ++ withinOption r)
  | .bounded k bs ls => .bounded k bs ls :: withinBounds bs
  | .never => [.never]
  | .infer => [.infer]
  | .macroCall s => [.macroCall s]
  | .unparsed s => [.unparsed s]
termination_by structural t => t

def withinList : List TypeExpr → List TypeExpr
  | [] => []
  | t :: ts => within t ++ withinList ts
termination_by structural ts => ts

def withinOption : Option TypeExpr → List TypeExpr
  | some t => within t
  | none => []
termination_by structural t => t

def withinSegment : Segment TypeExpr → List TypeExpr
  | .plain _ ts _ _ => withinList ts
  | .call _ ts r => withinList ts ++ withinOption r
termination_by structural s => s

def withinPath : List (Segment TypeExpr) → List TypeExpr
  | [] => []
  | s :: ss => withinSegment s ++ withinPath ss
termination_by structural ss => ss

def withinBounds : List (List (Segment TypeExpr)) → List TypeExpr
  | [] => []
  | b :: bs => .path b :: withinPath b ++ withinBounds bs
termination_by structural bs => bs

end

variable {t u : TypeExpr}

theorem mem_withinList {ts : List TypeExpr} : u ∈ withinList ts ↔ ∃ t ∈ ts, u ∈ t.within := by
  induction ts with
  | nil => simp [withinList]
  | cons t ts ih => simp [withinList, ih]

theorem mem_withinOption {r : Option TypeExpr} : u ∈ withinOption r ↔ ∃ t ∈ r, u ∈ t.within := by
  cases r <;> simp [withinOption]

theorem mem_withinSegment {s : Segment TypeExpr} :
    u ∈ withinSegment s ↔ ∃ t ∈ s.inner, u ∈ t.within := by
  cases s <;> simp [withinSegment, Segment.inner, Segment.args, Segment.ret, mem_withinList,
    mem_withinOption, or_and_right, exists_or]

theorem mem_withinPath {ss : List (Segment TypeExpr)} :
    u ∈ withinPath ss ↔ ∃ s ∈ ss, ∃ t ∈ s.inner, u ∈ t.within := by
  induction ss with
  | nil => simp [withinPath]
  | cons s ss ih => simp [withinPath, ih, mem_withinSegment]

theorem mem_withinBounds {bs : List (List (Segment TypeExpr))} :
    u ∈ withinBounds bs ↔ ∃ b ∈ bs, u ∈ (path b).within := by
  induction bs with
  | nil => simp [withinBounds]
  | cons b bs ih => simp [withinBounds, within, ih, or_assoc]

/-- What holds of a type and of all types inside it. -/
def Everywhere (p : TypeExpr → Prop) (t : TypeExpr) : Prop := ∀ u ∈ t.within, p u

instance {p : TypeExpr → Prop} [DecidablePred p] : Decidable (t.Everywhere p) :=
  inferInstanceAs (Decidable (∀ u ∈ t.within, p u))

namespace Everywhere

variable {p : TypeExpr → Prop}

theorem path_iff {ss : List (Segment TypeExpr)} : (path ss).Everywhere p ↔
    p (path ss) ∧ ∀ s ∈ ss, ∀ t ∈ s.inner, t.Everywhere p := by
  simp only [Everywhere, within, List.forall_mem_cons, mem_withinPath]
  grind

theorem reference_iff {l : Option String} {m : Bool} :
    (reference l m t).Everywhere p ↔ p (reference l m t) ∧ t.Everywhere p := List.forall_mem_cons

theorem pointer_iff {m : Bool} :
    (pointer m t).Everywhere p ↔ p (pointer m t) ∧ t.Everywhere p := List.forall_mem_cons

theorem slice_iff : (slice t).Everywhere p ↔ p (slice t) ∧ t.Everywhere p := List.forall_mem_cons

theorem array_iff {n : ArrayLength} :
    (array t n).Everywhere p ↔ p (array t n) ∧ t.Everywhere p := List.forall_mem_cons

theorem tuple_iff {ts : List TypeExpr} :
    (tuple ts).Everywhere p ↔ p (tuple ts) ∧ ∀ t ∈ ts, t.Everywhere p := by
  simp only [Everywhere, within, List.forall_mem_cons, mem_withinList]
  grind

theorem function_iff {isUnsafe : Bool} {a : Option String} {ps : List TypeExpr}
    {r : Option TypeExpr} : (function isUnsafe a ps r).Everywhere p ↔
      p (function isUnsafe a ps r) ∧ (∀ t ∈ ps, t.Everywhere p) ∧ ∀ t ∈ r, t.Everywhere p := by
  simp only [Everywhere, within, List.forall_mem_cons, List.mem_append, mem_withinList,
    mem_withinOption]
  grind

theorem bounded_iff {k : BoundKind} {bs : List (List (Segment TypeExpr))} {ls : List String} :
    (bounded k bs ls).Everywhere p ↔ p (bounded k bs ls) ∧ ∀ b ∈ bs, (path b).Everywhere p := by
  simp only [Everywhere, within, List.forall_mem_cons, mem_withinBounds]
  grind

theorem self (h : t.Everywhere p) : p t := h t (by cases t <;> simp [within])

end Everywhere

/-- The types inside a segment are smaller than a path with it. -/
theorem sizeOf_inner_lt {ss : List (Segment TypeExpr)} {s : Segment TypeExpr} (hs : s ∈ ss)
    (ht : t ∈ s.inner) : sizeOf t < sizeOf (path ss) := by
  have hsegment := sizeOf_segment_lt s
  have hpath := List.sizeOf_lt_of_mem hs
  have hinner : sizeOf t < sizeOf s.args + sizeOf s.ret := by
    rcases List.mem_append.1 ht with h | h
    · have := List.sizeOf_lt_of_mem h
      omega
    · rw [Option.mem_toList.1 h]
      simp only [Option.some.sizeOf_spec]
      have := sizeOf_list_pos s.args
      omega
  simp only [path.sizeOf_spec]
  omega

/-- A type has a property if each type has it as soon as the types that it is made of do. -/
theorem parts_induction {P : TypeExpr → Prop} (t : TypeExpr)
    (path : ∀ ss : List (Segment TypeExpr), (∀ s ∈ ss, ∀ t ∈ s.inner, P t) → P (.path ss))
    (reference : ∀ l m t, P t → P (.reference l m t))
    (pointer : ∀ m t, P t → P (.pointer m t))
    (slice : ∀ t, P t → P (.slice t))
    (array : ∀ t n, P t → P (.array t n))
    (tuple : ∀ ts : List TypeExpr, (∀ t ∈ ts, P t) → P (.tuple ts))
    (function : ∀ isUnsafe abi ps r, (∀ t ∈ ps, P t) → (∀ t ∈ r, P t) →
      P (.function isUnsafe abi ps r))
    (bounded : ∀ k bs ls, (∀ b ∈ bs, ∀ s ∈ b, ∀ t ∈ s.inner, P t) → P (.bounded k bs ls))
    (never : P .never) (infer : P .infer) (macroCall : ∀ s, P (.macroCall s))
    (unparsed : ∀ s, P (.unparsed s)) : P t := by
  induction hsize : sizeOf t using Nat.strongRecOn generalizing t with
  | _ n ih =>
    subst hsize
    cases t with
    | path ss => exact path ss fun s hs t ht => ih _ (sizeOf_inner_lt hs ht) t rfl
    | reference l m t => exact reference l m t (ih _ (by grind) t rfl)
    | pointer m t => exact pointer m t (ih _ (by grind) t rfl)
    | slice t => exact slice t (ih _ (by grind) t rfl)
    | array t n => exact array t n (ih _ (by grind) t rfl)
    | tuple ts =>
      refine tuple ts fun t ht => ih _ ?_ t rfl
      have := List.sizeOf_lt_of_mem ht
      simp only [TypeExpr.tuple.sizeOf_spec]
      omega
    | function isUnsafe abi ps r =>
      refine function isUnsafe abi ps r (fun t ht => ih _ ?_ t rfl) fun t ht => ih _ ?_ t rfl
      · have := List.sizeOf_lt_of_mem ht
        simp only [TypeExpr.function.sizeOf_spec]
        omega
      · rw [ht]
        simp only [TypeExpr.function.sizeOf_spec, Option.some.sizeOf_spec]
        omega
    | bounded k bs ls =>
      refine bounded k bs ls fun b hb s hs t ht => ih _ ?_ t rfl
      have hinner := sizeOf_inner_lt hs ht
      have := List.sizeOf_lt_of_mem hb
      simp only [TypeExpr.bounded.sizeOf_spec, TypeExpr.path.sizeOf_spec] at hinner ⊢
      omega
    | never => exact never
    | infer => exact infer
    | macroCall s => exact macroCall s
    | unparsed s => exact unparsed s

end Inside

section Canonical

/-- A literal length is spelled as its value. -/
def canonicalLength : ArrayLength → ArrayLength
  | .literal n _ => .literal n (toString n)
  | .named name => .named name

mutual

/-- The tree with each literal length spelled as its value. -/
def canonical : TypeExpr → TypeExpr
  | .path ss => .path (canonicalPath ss)
  | .reference l m t => .reference l m (canonical t)
  | .pointer m t => .pointer m (canonical t)
  | .slice t => .slice (canonical t)
  | .array t n => .array (canonical t) (canonicalLength n)
  | .tuple ts => .tuple (canonicalList ts)
  | .function u a ps r => .function u a (canonicalList ps) (canonicalOption r)
  | .bounded k bs ls => .bounded k (canonicalBounds bs) ls
  | .never => .never
  | .infer => .infer
  | .macroCall s => .macroCall s
  | .unparsed s => .unparsed s
termination_by structural t => t

def canonicalList : List TypeExpr → List TypeExpr
  | [] => []
  | t :: ts => canonical t :: canonicalList ts
termination_by structural ts => ts

def canonicalOption : Option TypeExpr → Option TypeExpr
  | some t => some (canonical t)
  | none => none
termination_by structural t => t

def canonicalSegment : Segment TypeExpr → Segment TypeExpr
  | .plain name ts ls cs => .plain name (canonicalList ts) ls cs
  | .call name ts r => .call name (canonicalList ts) (canonicalOption r)
termination_by structural s => s

def canonicalPath : List (Segment TypeExpr) → List (Segment TypeExpr)
  | [] => []
  | s :: ss => canonicalSegment s :: canonicalPath ss
termination_by structural ss => ss

def canonicalBounds : List (List (Segment TypeExpr)) → List (List (Segment TypeExpr))
  | [] => []
  | b :: bs => canonicalPath b :: canonicalBounds bs
termination_by structural bs => bs

end

theorem canonicalList_eq_map (ts : List TypeExpr) : canonicalList ts = ts.map canonical := by
  induction ts with
  | nil => rfl
  | cons t ts ih => rw [canonicalList, ih, List.map_cons]

theorem renderList_eq_map (ts : List TypeExpr) : renderList ts = ts.map render := by
  induction ts with
  | nil => rfl
  | cons t ts ih => rw [renderList, ih, List.map_cons]

end Canonical

section Shape

mutual

/-- Whether a plus behind the type would belong to a bounded type at its right end. -/
def endsBounded : TypeExpr → Bool
  | .bounded .. => true
  | .reference _ _ t => endsBounded t
  | .pointer _ t => endsBounded t
  | .function _ _ _ r => endsBoundedOption r
  | .path ss => endsBoundedPath ss
  | _ => false
termination_by structural t => t

def endsBoundedOption : Option TypeExpr → Bool
  | some t => endsBounded t
  | none => false
termination_by structural t => t

def endsBoundedSegment : Segment TypeExpr → Bool
  | .plain .. => false
  | .call _ _ r => endsBoundedOption r
termination_by structural s => s

def endsBoundedPath : List (Segment TypeExpr) → Bool
  | [] => false
  | [s] => endsBoundedSegment s
  | _ :: ss => endsBoundedPath ss
termination_by structural ss => ss

end

/-- Reading what a type is rendered as keeps its shape, as far as the type itself is concerned: no
segment with a result has another one behind it, no bounded type is without bounds, and no bound with
another one or a lifetime behind it ends with a bounded type. -/
def KeepsShape : TypeExpr → Prop
  | .path ss => ∀ s ∈ ss.dropLast, s.ret = none
  | .bounded _ bs ls => (bs ≠ [] ∨ ls ≠ []) ∧
    ∀ b ∈ (if ls = [] then bs.dropLast else bs), endsBoundedPath b = false
  | _ => True

instance : DecidablePred KeepsShape
  | .path ss => inferInstanceAs (Decidable (∀ s ∈ ss.dropLast, s.ret = none))
  | .bounded _ bs ls => inferInstanceAs (Decidable ((bs ≠ [] ∨ ls ≠ []) ∧
      ∀ b ∈ (if ls = [] then bs.dropLast else bs), endsBoundedPath b = false))
  | .reference .. | .pointer .. | .slice .. | .array .. | .tuple .. | .function .. | .never
  | .infer | .macroCall .. | .unparsed .. => .isTrue trivial

end Shape

end TypeExpr

end Crossing
