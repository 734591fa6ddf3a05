/-!
# Type expressions

A type as it is written in a signature, before its names are looked up: paths with their
arguments, references and pointers, slices and arrays, tuples, function pointers, and the bounded
types `dyn …` and `impl …`. A text that is no type is kept as it stands. Equality is by structure
(`same`).
-/

namespace Crossing

/-- A step of a path. -/
inductive Segment (α : Type) where
  /-- A name with its arguments, of which each kind keeps its own order. -/
  | plain (name : String) (args : List α) (lifetimes : List String) (consts : List String)
  /-- The call form of a name: inputs between parentheses and perhaps a result. -/
  | call (name : String) (inputs : List α) (ret : Option α)
  deriving DecidableEq

namespace Segment

def name {α : Type} : Segment α → String
  | .plain name .. => name
  | .call name .. => name

/-- The type arguments; those of the call form are its inputs. -/
def args {α : Type} : Segment α → List α
  | .plain _ args .. => args
  | .call _ inputs _ => inputs

def isCall {α : Type} : Segment α → Bool
  | .plain .. => false
  | .call .. => true

def ret {α : Type} : Segment α → Option α
  | .plain .. => none
  | .call _ _ ret => ret

end Segment

/-- The length of an array: a literal with its spelling, or a name. -/
inductive ArrayLength where
  | literal (value : Nat) (spelling : String)
  | named (name : String)
  deriving DecidableEq

namespace ArrayLength

def value? : ArrayLength → Option Nat
  | .literal n _ => some n
  | .named _ => none

def spelling : ArrayLength → String
  | .literal _ s => s
  | .named s => s

end ArrayLength

/-- How a bounded type is introduced. -/
inductive BoundKind where
  /-- `dyn`, behind a pointer. -/
  | object
  /-- `impl`, in place. -/
  | anonymous
  deriving DecidableEq

/-- A type as written. -/
inductive TypeExpr where
  | path (segments : List (Segment TypeExpr))
  | reference (lifetime : Option String) (mutable : Bool) (inner : TypeExpr)
  | pointer (mutable : Bool) (inner : TypeExpr)
  | slice (inner : TypeExpr)
  | array (inner : TypeExpr) (length : ArrayLength)
  | tuple (elements : List TypeExpr)
  | function (isUnsafe : Bool) (abi : Option String) (params : List TypeExpr)
      (ret : Option TypeExpr)
  | bounded (kind : BoundKind) (bounds : List (List (Segment TypeExpr)))
      (lifetimes : List String)
  | never
  | infer
  /-- A text that looks like the call of a macro. -/
  | macroCall (text : String)
  /-- Any other text that is no type. -/
  | unparsed (text : String)
  deriving Inhabited

namespace TypeExpr

/-- The unit type `()`. -/
def unit : TypeExpr := .tuple []

/-- A path of names without arguments. -/
def ofNames (names : List String) : TypeExpr := .path (names.map fun n => .plain n [] [] [])

mutual

/-- Equality by structure. -/
def same : TypeExpr → TypeExpr → Bool
  | .path ss, .path ss' => samePath ss ss'
  | .reference l m t, .reference l' m' t' => l == l' && m == m' && same t t'
  | .pointer m t, .pointer m' t' => m == m' && same t t'
  | .slice t, .slice t' => same t t'
  | .array t n, .array t' n' => same t t' && decide (n = n')
  | .tuple ts, .tuple ts' => sameList ts ts'
  | .function u a ps r, .function u' a' ps' r' =>
    u == u' && a == a' && sameList ps ps' && sameOption r r'
  | .bounded k bs ls, .bounded k' bs' ls' => decide (k = k') && sameBounds bs bs' && ls == ls'
  | .never, .never => true
  | .infer, .infer => true
  | .macroCall s, .macroCall s' => s == s'
  | .unparsed s, .unparsed s' => s == s'
  | _, _ => false
termination_by structural t => t

def sameList : List TypeExpr → List TypeExpr → Bool
  | [], [] => true
  | t :: ts, t' :: ts' => same t t' && sameList ts ts'
  | _, _ => false
termination_by structural ts => ts

def sameOption : Option TypeExpr → Option TypeExpr → Bool
  | none, none => true
  | some t, some t' => same t t'
  | _, _ => false
termination_by structural t => t

def sameSegment : Segment TypeExpr → Segment TypeExpr → Bool
  | .plain n ts ls cs, .plain n' ts' ls' cs' =>
    n == n' && sameList ts ts' && ls == ls' && cs == cs'
  | .call n ts r, .call n' ts' r' => n == n' && sameList ts ts' && sameOption r r'
  | _, _ => false
termination_by structural s => s

def samePath : List (Segment TypeExpr) → List (Segment TypeExpr) → Bool
  | [], [] => true
  | s :: ss, s' :: ss' => sameSegment s s' && samePath ss ss'
  | _, _ => false
termination_by structural ss => ss

def sameBounds : List (List (Segment TypeExpr)) → List (List (Segment TypeExpr)) → Bool
  | [], [] => true
  | b :: bs, b' :: bs' => samePath b b' && sameBounds bs bs'
  | _, _ => false
termination_by structural bs => bs

end

mutual

theorem same_eq : ∀ {t u : TypeExpr}, same t u = true → t = u
  | .path .., u, h => by
    cases u <;> simp_all [same]
    exact samePath_eq h
  | .reference .., u, h => by
    cases u <;> simp_all [same]
    exact same_eq h.2
  | .pointer .., u, h => by
    cases u <;> simp_all [same]
    exact same_eq h.2
  | .slice .., u, h => by
    cases u <;> simp_all [same]
    exact same_eq h
  | .array .., u, h => by
    cases u <;> simp_all [same]
    exact same_eq h.1
  | .tuple .., u, h => by
    cases u <;> simp_all [same]
    exact sameList_eq h
  | .function .., u, h => by
    cases u <;> simp_all [same]
    exact ⟨sameList_eq h.1.2, sameOption_eq h.2⟩
  | .bounded .., u, h => by
    cases u <;> simp_all [same]
    exact sameBounds_eq h.1.2
  | .never, u, h => by cases u <;> simp_all [same]
  | .infer, u, h => by cases u <;> simp_all [same]
  | .macroCall .., u, h => by cases u <;> simp_all [same]
  | .unparsed .., u, h => by cases u <;> simp_all [same]

theorem sameList_eq : ∀ {ts us : List TypeExpr}, sameList ts us = true → ts = us
  | [], us, h => by cases us <;> simp_all [sameList]
  | _ :: _, us, h => by
    cases us <;> simp_all [sameList]
    exact ⟨same_eq h.1, sameList_eq h.2⟩

theorem sameOption_eq : ∀ {t u : Option TypeExpr}, sameOption t u = true → t = u
  | none, u, h => by cases u <;> simp_all [sameOption]
  | some _, u, h => by
    cases u <;> simp_all [sameOption]
    exact same_eq h

theorem sameSegment_eq : ∀ {s r : Segment TypeExpr}, sameSegment s r = true → s = r
  | .plain .., r, h => by
    cases r <;> simp_all [sameSegment]
    exact sameList_eq h.1.1.2
  | .call .., r, h => by
    cases r <;> simp_all [sameSegment]
    exact ⟨sameList_eq h.1.2, sameOption_eq h.2⟩

theorem samePath_eq : ∀ {ss rs : List (Segment TypeExpr)}, samePath ss rs = true → ss = rs
  | [], rs, h => by cases rs <;> simp_all [samePath]
  | _ :: _, rs, h => by
    cases rs <;> simp_all [samePath]
    exact ⟨sameSegment_eq h.1, samePath_eq h.2⟩

theorem sameBounds_eq :
    ∀ {bs cs : List (List (Segment TypeExpr))}, sameBounds bs cs = true → bs = cs
  | [], cs, h => by cases cs <;> simp_all [sameBounds]
  | _ :: _, cs, h => by
    cases cs <;> simp_all [sameBounds]
    exact ⟨samePath_eq h.1, sameBounds_eq h.2⟩

end

mutual

theorem same_self : ∀ t : TypeExpr, same t t = true
  | .path ss => by simp [same, samePath_self ss]
  | .reference _ _ t => by simp [same, same_self t]
  | .pointer _ t => by simp [same, same_self t]
  | .slice t => by simp [same, same_self t]
  | .array t _ => by simp [same, same_self t]
  | .tuple ts => by simp [same, sameList_self ts]
  | .function _ _ ps r => by simp [same, sameList_self ps, sameOption_self r]
  | .bounded _ bs _ => by simp [same, sameBounds_self bs]
  | .never => rfl
  | .infer => rfl
  | .macroCall _ => by simp [same]
  | .unparsed _ => by simp [same]

theorem sameList_self : ∀ ts : List TypeExpr, sameList ts ts = true
  | [] => rfl
  | t :: ts => by simp [sameList, same_self t, sameList_self ts]

theorem sameOption_self : ∀ t : Option TypeExpr, sameOption t t = true
  | none => rfl
  | some t => by simp [sameOption, same_self t]

theorem sameSegment_self : ∀ s : Segment TypeExpr, sameSegment s s = true
  | .plain _ ts _ _ => by simp [sameSegment, sameList_self ts]
  | .call _ ts r => by simp [sameSegment, sameList_self ts, sameOption_self r]

theorem samePath_self : ∀ ss : List (Segment TypeExpr), samePath ss ss = true
  | [] => rfl
  | s :: ss => by simp [samePath, sameSegment_self s, samePath_self ss]

theorem sameBounds_self : ∀ bs : List (List (Segment TypeExpr)), sameBounds bs bs = true
  | [] => rfl
  | b :: bs => by simp [sameBounds, samePath_self b, sameBounds_self bs]

end

theorem same_iff {t u : TypeExpr} : same t u = true ↔ t = u :=
  ⟨same_eq, fun h => h ▸ same_self t⟩

instance : DecidableEq TypeExpr := fun _ _ => decidable_of_iff _ same_iff

end TypeExpr

end Crossing
