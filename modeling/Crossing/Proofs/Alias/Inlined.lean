import Crossing.Building.Rule
import Crossing.Proofs.Nominal.Index
import Crossing.Proofs.Related

/-!
# Mentions of an alias and its target in their place

`Inlined` relates two type expressions, each as it stands in its scope: the second is the first with
its mentions of an alias, or some of them, replaced by the target of the alias, whose paths are
spelled so that they mean the same there. A mention is opened by one rule only, but other rules look
at the spelling of a type from outside: through a reference, a `Box` or a counted pointer, and at
the place of a return type. There the replaced type must look the same (`TypeExpr.view`,
`TypeExpr.isResult`).
-/

namespace Crossing

namespace TypeExpr

/-- The standard names that rules ask for. -/
def ruleNames : List String :=
  (Building.Rule.primitives 0).map (·.1)
    ++ ["c_void", "String", "CString", "str", "CStr", "Vec", "Box", "Arc", "Rc", "Option", "Result"]

/-- The standard name of a type, if rules ask for it. -/
def ruleName? (e : TypeExpr) : Option String := e.standardName?.filter ruleNames.contains

def isSlice : TypeExpr → Bool
  | .slice _ => true
  | _ => false

/-- Whether a type is what a failing function returns. -/
def isResult (e : TypeExpr) : Bool := e.standardName? = some "Result"

/-- What rules see of a type through a reference or a `Box`. -/
structure View where
  encoding : Option TextEncoding
  isSlice : Bool
  isCallable : Bool

def view (e : TypeExpr) : View := ⟨Building.Rule.unsizedText? e, e.isSlice, e.isCallable⟩

/-- Whether the last segment of a path has the call form. -/
def isApplied (e : TypeExpr) : Bool := e.segments.getLast?.any (·.isCall)

end TypeExpr

section Alike

variable (index index' : NominalIndex) (scope scope' : List String)
  (R : TypeExpr → TypeExpr → Prop)

/-- Results that are related and fail alike. -/
structure ReturnAlike (ret ret' : Option TypeExpr) : Prop where
  types : Option.Rel R ret ret'
  fails : (ret.getD .unit).isResult = (ret'.getD .unit).isResult

/-- Segments of one form and name, with related types. -/
inductive Segment.Alike : Segment TypeExpr → Segment TypeExpr → Prop where
  | plain {name : String} {ts ts' : List TypeExpr} {lifetimes consts : List String}
      (args : List.Forall₂ R ts ts') :
      Segment.Alike (.plain name ts lifetimes consts) (.plain name ts' lifetimes consts)
  | call {name : String} {ts ts' : List TypeExpr} {r r' : Option TypeExpr}
      (inputs : List.Forall₂ R ts ts') (ret : ReturnAlike R r r') :
      Segment.Alike (.call name ts r) (.call name ts' r')

/-- Paths with one meaning and related arguments that rules cannot tell apart by their spelling. -/
structure TypeExpr.PathAlike (e e' : TypeExpr) : Prop where
  meaning : (index.resolve e.names scope).nominal?.map (·.name)
    = (index'.resolve e'.names scope').nominal?.map (·.name)
  name : e.ruleName? = e'.ruleName?
  form : e.isApplied = e'.isApplied
  args : List.Forall₂ R e.args e'.args
  owned : (e.wrapped? ["Box"]).map view = (e'.wrapped? ["Box"]).map view
  counted : (e.wrapped? ["Arc", "Rc"]).map isCallable = (e'.wrapped? ["Arc", "Rc"]).map isCallable

/-- Types of one form with related parts. -/
inductive TypeExpr.Alike : TypeExpr → TypeExpr → Prop where
  | path {ss ss' : List (Segment TypeExpr)}
      (alike : PathAlike index index' scope scope' R (.path ss) (.path ss')) :
      Alike (.path ss) (.path ss')
  | reference {lifetime lifetime' : Option String} {mutable : Bool} {t t' : TypeExpr}
      (inner : R t t') (view : t.view = t'.view) :
      Alike (.reference lifetime mutable t) (.reference lifetime' mutable t')
  | pointer {mutable : Bool} {t t' : TypeExpr} (inner : R t t') :
      Alike (.pointer mutable t) (.pointer mutable t')
  | slice {t t' : TypeExpr} (inner : R t t') : Alike (.slice t) (.slice t')
  | array {t t' : TypeExpr} {length : ArrayLength} (inner : R t t') :
      Alike (.array t length) (.array t' length)
  | tuple {ts ts' : List TypeExpr} (elements : List.Forall₂ R ts ts') :
      Alike (.tuple ts) (.tuple ts')
  | function {isUnsafe : Bool} {abi : Option String} {ps ps' : List TypeExpr}
      {r r' : Option TypeExpr} (params : List.Forall₂ R ps ps') (ret : ReturnAlike R r r') :
      Alike (.function isUnsafe abi ps r) (.function isUnsafe abi ps' r')
  | bounded {kind : BoundKind} {bs bs' : List (List (Segment TypeExpr))} {lifetimes : List String}
      (bounds : List.Forall₂ (List.Forall₂ (Segment.Alike R)) bs bs') :
      Alike (.bounded kind bs lifetimes) (.bounded kind bs' lifetimes)
  | never : Alike .never .never
  | infer : Alike .infer .infer
  | macroCall (text : String) : Alike (.macroCall text) (.macroCall text)
  | unparsed (text : String) : Alike (.unparsed text) (.unparsed text)

/-- Fields that differ in their types only, which are related. -/
structure NativeField.Alike (f f' : NativeField) : Prop where
  name : f'.name = f.name
  visibility : f'.visibility = f.visibility
  type : R f.type f'.type

/-- Variants that differ in the types of their fields only. -/
structure NativeVariant.Alike (v v' : NativeVariant) : Prop where
  name : v'.name = v.name
  discriminant : v'.discriminant = v.discriminant
  fields : List.Forall₂ (NativeField.Alike R) v.fields v'.fields

/-- Parameters that differ in their types only. -/
structure Parameter.Alike (p p' : Parameter) : Prop where
  name : p'.name = p.name
  type : R p.type p'.type

/-- Declarations that differ in their types only. -/
inductive DeclarationBody.Alike : DeclarationBody → DeclarationBody → Prop where
  | function {ps ps' : List Parameter} {r r' : Option TypeExpr} {receiver : Option String}
      {isAsync isUnsafe : Bool} {abi : Option String}
      (params : List.Forall₂ (Parameter.Alike R) ps ps') (ret : ReturnAlike R r r') :
      Alike (.function ps r receiver isAsync isUnsafe abi)
        (.function ps' r' receiver isAsync isUnsafe abi)
  | struct {fs fs' : List NativeField} {style : FieldStyle}
      (fields : List.Forall₂ (NativeField.Alike R) fs fs') :
      Alike (.struct fs style) (.struct fs' style)
  | enumeration {vs vs' : List NativeVariant}
      (variants : List.Forall₂ (NativeVariant.Alike R) vs vs') :
      Alike (.enumeration vs) (.enumeration vs')
  | alias {t t' : TypeExpr} (target : R t t') : Alike (.alias t) (.alias t')
  | other (kind : String) : Alike (.other kind) (.other kind)

end Alike

/-- `Inlined index index' a scope scope' e e'`: the type `e'`, in `scope'` of the second index, is
the type `e`, in `scope` of the first, with mentions of the alias `a` replaced by its target. -/
inductive TypeExpr.Inlined (index index' : NominalIndex) (a : Nominal) :
    List String → List String → TypeExpr → TypeExpr → Prop where
  | layer {scope scope' : List String} {e e' : TypeExpr} {R : TypeExpr → TypeExpr → Prop}
      (inner : ∀ t t', R t t' → Inlined index index' a scope scope' t t')
      (alike : e.Alike index index' scope scope' R e') : Inlined index index' a scope scope' e e'
  /-- A mention without arguments, whose name is not one that rules ask for. -/
  | opened {scope scope' : List String} {e t e' : TypeExpr}
      (meaning : (index.resolve e.names scope).nominal? = some a) (args : e.args = [])
      (name : e.ruleName? = none) (target : a.aliasTarget? = some t)
      (inlined : Inlined index index' a a.scope scope' t e') :
      Inlined index index' a scope scope' e e'

/-- A nominal type with mentions of an alias replaced in its declaration; it is a buffer struct in
both forms, or in neither. -/
structure Nominal.Inlined (index index' : NominalIndex) (a n n' : Nominal) : Prop where
  name : n'.name = n.name
  scope : n'.scope = n.scope
  generics : n'.declaration.generics = n.declaration.generics
  body : n.declaration.body.Alike (TypeExpr.Inlined index index' a n.scope n.scope)
    n'.declaration.body
  buffer : (Building.Rule.elements? n).isSome = (Building.Rule.elements? n').isSome

section Mono

variable {index index' : NominalIndex} {scope scope' : List String}
  {R S : TypeExpr → TypeExpr → Prop} (h : ∀ t t', R t t' → S t t')
include h

theorem ReturnAlike.mono {ret ret' : Option TypeExpr} (hret : ReturnAlike R ret ret') :
    ReturnAlike S ret ret' := by
  obtain ⟨htypes, hfails⟩ := hret
  refine ⟨?_, hfails⟩
  cases htypes with
  | none => exact .none
  | some ht => exact .some (h _ _ ht)

theorem Segment.Alike.mono {seg seg' : Segment TypeExpr} (hseg : seg.Alike R seg') :
    seg.Alike S seg' := by
  cases hseg with
  | plain args => exact .plain (args.imp h)
  | call inputs ret => exact .call (inputs.imp h) (ret.mono h)

theorem TypeExpr.Alike.mono {e e' : TypeExpr} (he : e.Alike index index' scope scope' R e') :
    e.Alike index index' scope scope' S e' := by
  cases he with
  | path alike => exact .path { alike with args := alike.args.imp h }
  | reference inner view => exact .reference (h _ _ inner) view
  | pointer inner => exact .pointer (h _ _ inner)
  | slice inner => exact .slice (h _ _ inner)
  | array inner => exact .array (h _ _ inner)
  | tuple elements => exact .tuple (elements.imp h)
  | function params ret => exact .function (params.imp h) (ret.mono h)
  | bounded bounds => exact .bounded (bounds.imp fun _ _ hb => hb.imp fun _ _ hs => hs.mono h)
  | never => exact .never
  | infer => exact .infer
  | macroCall text => exact .macroCall text
  | unparsed text => exact .unparsed text

end Mono

namespace TypeExpr

theorem Inlined.cases {index index' : NominalIndex} {a : Nominal} {scope scope' : List String}
    {e e' : TypeExpr} (h : e.Inlined index index' a scope scope' e') :
    e.Alike index index' scope scope' (Inlined index index' a scope scope') e'
      ∨ (index.resolve e.names scope).nominal? = some a ∧ e.args = [] ∧ e.ruleName? = none
        ∧ ∃ t, a.aliasTarget? = some t ∧ t.Inlined index index' a a.scope scope' e' := by
  cases h with
  | layer inner alike => exact .inl (alike.mono inner)
  | opened meaning args name target inlined => exact .inr ⟨meaning, args, name, _, target, inlined⟩

section RuleName

variable {e : TypeExpr} {names : List String}

theorem ruleName?_eq_some {name : String} :
    e.ruleName? = some name ↔ e.standardName? = some name ∧ name ∈ ruleNames := by
  simp [ruleName?, Option.filter_eq_some_iff]

theorem any_standardName? (h : ∀ name ∈ names, name ∈ ruleNames) :
    e.standardName?.any names.contains = e.ruleName?.any names.contains := by
  cases hname : e.standardName? with
  | none => simp [ruleName?, hname]
  | some name =>
    by_cases hmem : name ∈ ruleNames
    · simp [ruleName?, hname, Option.filter_some, hmem]
    · have hnone : name ∉ names := fun hn => hmem (h name hn)
      simp [ruleName?, hname, Option.filter_some, hmem, hnone]

theorem isPlain_eq (h : ∀ name ∈ names, name ∈ ruleNames) :
    e.isPlain names = (e.ruleName?.any names.contains && e.args.isEmpty) := by
  rw [isPlain, any_standardName? h]

/-- The only argument. -/
def single? : List TypeExpr → Option TypeExpr
  | [t] => some t
  | _ => none

theorem wrapped?_eq (h : ∀ name ∈ names, name ∈ ruleNames) :
    e.wrapped? names
      = if e.ruleName?.any names.contains && !e.isApplied then single? e.args else none := by
  rw [← any_standardName? h]
  unfold wrapped? isApplied args single?
  cases e.standardName? with
  | none => rfl
  | some name =>
    rcases e.segments.getLast? with _ | ⟨n, ts, ls, cs⟩ | ⟨n, ts, r⟩
    · simp
    · rcases ts with _ | ⟨t, _ | ⟨u, us⟩⟩ <;> simp [Segment.isCall, Segment.args]
    · simp [Segment.isCall]

end RuleName

section Looks

variable {index index' : NominalIndex} {scope scope' : List String}
  {R : TypeExpr → TypeExpr → Prop} {e e' : TypeExpr}

theorem Alike.ruleName? (h : e.Alike index index' scope scope' R e') :
    e.ruleName? = e'.ruleName? := by
  cases h with
  | path alike => exact alike.name
  | _ => rfl

theorem Alike.args (h : e.Alike index index' scope scope' R e') :
    List.Forall₂ R e.args e'.args := by
  cases h with
  | path alike => exact alike.args
  | _ => exact .nil

theorem Alike.isPlain (h : e.Alike index index' scope scope' R e') (names : List String)
    (hnames : ∀ name ∈ names, name ∈ ruleNames) : e.isPlain names = e'.isPlain names := by
  rw [isPlain_eq hnames, isPlain_eq hnames, h.ruleName?, Related.isEmpty_eq h.args]

theorem rel_single? {ts ts' : List TypeExpr} (h : List.Forall₂ R ts ts') :
    Option.Rel R (single? ts) (single? ts') := by
  rcases h with _ | ⟨ht, _ | ⟨_, _⟩⟩
  · exact .none
  · exact .some ht
  · exact .none

theorem Alike.isApplied (h : e.Alike index index' scope scope' R e') :
    e.isApplied = e'.isApplied := by
  cases h with
  | path alike => exact alike.form
  | _ => rfl

theorem Alike.wrapped? (h : e.Alike index index' scope scope' R e') (names : List String)
    (hnames : ∀ name ∈ names, name ∈ ruleNames) :
    Option.Rel R (e.wrapped? names) (e'.wrapped? names) := by
  rw [wrapped?_eq hnames, wrapped?_eq hnames, h.ruleName?, h.isApplied]
  split
  · exact rel_single? h.args
  · exact .none

theorem isCallBound_eq {b b' : List (Segment TypeExpr)} (h : List.Forall₂ (Segment.Alike R) b b') :
    isCallBound b = isCallBound b' := by
  have hlast := Related.getLast? h
  unfold isCallBound
  generalize b.getLast? = last, b'.getLast? = last' at hlast
  cases hlast with
  | none => rfl
  | some hs => cases hs <;> rfl

/-- The first call bounds of two types, or none of either. -/
theorem Alike.callBound? (h : e.Alike index index' scope scope' R e') :
    Option.Rel (fun f f' => List.Forall₂ R f.1 f'.1 ∧ ReturnAlike R f.2 f'.2)
      e.callBound? e'.callBound? := by
  cases h with
  | bounded bounds =>
    refine Related.bind (fun b b' hb => Related.map (fun s s' hs => ?_) (Related.getLast? hb))
      (Related.find? (fun b b' hb => isCallBound_eq hb) bounds)
    cases hs with
    | plain args => exact ⟨args, .none, rfl⟩
    | call inputs ret => exact ⟨inputs, ret⟩
  | _ => exact .none

theorem Alike.isCallable (h : e.Alike index index' scope scope' R e') :
    e.isCallable = e'.isCallable := Related.isSome_eq h.callBound?

theorem Alike.meaning (h : e.Alike index index' scope scope' R e') :
    (index.resolve e.names scope).nominal?.map (·.name)
      = (index'.resolve e'.names scope').nominal?.map (·.name) := by
  cases h with
  | path alike => exact alike.meaning
  | _ => rfl

theorem argumentVia_eq (via : Via) : argumentVia via e = match e.ruleName? with
    | some name =>
      if ["Box", "Arc", "Rc"].contains name then .pointer
      else if name == "Vec" then .sequence else via
    | none => via := by
  unfold argumentVia
  cases hname : e.standardName? with
  | none => simp [TypeExpr.ruleName?, hname]
  | some name =>
    by_cases hmem : name ∈ ruleNames
    · simp [TypeExpr.ruleName?, hname, Option.filter_some, hmem]
    · have hne : ∀ other ∈ ruleNames, name ≠ other := fun other hother heq => hmem (heq ▸ hother)
      simp [TypeExpr.ruleName?, hname, Option.filter_some, hmem, hne "Box" (by decide),
        hne "Arc" (by decide), hne "Rc" (by decide), hne "Vec" (by decide)]

theorem forall₂_toList {t t' : Option TypeExpr} (h : Option.Rel R t t') :
    List.Forall₂ R t.toList t'.toList := by
  cases h with
  | none => exact .nil
  | some ht => exact .cons ht .nil

theorem forall₂_segmentTypes {ss ss' : List (Segment TypeExpr)}
    (h : List.Forall₂ (Segment.Alike R) ss ss') :
    List.Forall₂ R (segmentTypes ss) (segmentTypes ss') := by
  refine Related.flatMap (fun s s' hs => ?_) h
  cases hs with
  | plain args => exact List.rel_append args .nil
  | call inputs ret => exact List.rel_append inputs (forall₂_toList ret.types)

/-- A type is alike to itself when all that is inside it is related to itself. -/
theorem Alike.of_self
    (hmeaning : (index.resolve e.names scope).nominal?.map (·.name)
      = (index'.resolve e.names scope').nominal?.map (·.name))
    (hinside : ∀ via, ∀ p ∈ e.inside via, R p.2 p.2) :
    e.Alike index index' scope scope' R e := by
  have hsame (via : Via) {v : Via} {ts : List TypeExpr} (hts : ∀ t ∈ ts, (v, t) ∈ e.inside via) :
      List.Forall₂ R ts ts :=
    List.forall₂_same.2 fun t ht => hinside via _ (hts t ht)
  have hself (via : Via) {v : Via} {t : TypeExpr} (ht : (v, t) ∈ e.inside via) : R t t :=
    hinside via _ ht
  cases e with
  | path ss =>
    exact .path ⟨hmeaning, rfl, rfl,
      hsame .value fun t ht => List.mem_map.2 ⟨t, ht, rfl⟩, rfl, rfl⟩
  | reference l m t => exact .reference (hself .value List.mem_cons_self) rfl
  | pointer m t => exact .pointer (hself .value List.mem_cons_self)
  | slice t => exact .slice (hself .value List.mem_cons_self)
  | array t n => exact .array (hself .value List.mem_cons_self)
  | tuple ts => exact .tuple (hsame .value fun t ht => List.mem_map.2 ⟨t, ht, rfl⟩)
  | function u abi ps r =>
    have hmem {t : TypeExpr} (ht : t ∈ ps ++ r.toList) :
        (Via.function, t) ∈ TypeExpr.inside .value (.function u abi ps r) :=
      List.mem_map.2 ⟨t, ht, rfl⟩
    refine .function (hsame .value fun t ht => hmem (List.mem_append_left _ ht)) ⟨?_, rfl⟩
    cases r with
    | none => exact .none
    | some t => exact .some (hself .value (hmem (by simp)))
  | bounded kind bs ls =>
    refine .bounded (List.forall₂_same.2 fun b hb => List.forall₂_same.2 fun s hs => ?_)
    have hmem {t : TypeExpr} (ht : t ∈ s.args ++ s.ret.toList) :
        (Via.function, t) ∈ TypeExpr.inside .value (.bounded kind bs ls) :=
      List.mem_map.2 ⟨t, List.mem_flatMap.2 ⟨b, hb, List.mem_flatMap.2 ⟨s, hs, ht⟩⟩, rfl⟩
    cases s with
    | plain name ts lifetimes consts =>
      exact .plain (hsame .value fun t ht => hmem (List.mem_append_left _ ht))
    | call name ts r =>
      refine .call (hsame .value fun t ht => hmem (List.mem_append_left _ ht)) ⟨?_, rfl⟩
      cases r with
      | none => exact .none
      | some t => exact .some (hself .value (hmem (by simp [Segment.ret])))
  | never => exact .never
  | infer => exact .infer
  | macroCall text => exact .macroCall text
  | unparsed text => exact .unparsed text

/-- What is inside two types is related and stands behind the same indirections. -/
theorem Alike.inside (via : Via) (h : e.Alike index index' scope scope' R e') :
    List.Forall₂ (fun p p' => p'.1 = p.1 ∧ R p.2 p'.2) (e.inside via) (e'.inside via) := by
  have hmap {v : Via} {ts ts' : List TypeExpr} (hts : List.Forall₂ R ts ts') :
      List.Forall₂ (fun p p' => p'.1 = p.1 ∧ R p.2 p'.2) (ts.map (v, ·)) (ts'.map (v, ·)) :=
    Related.map_list (fun t t' ht => ⟨rfl, ht⟩) hts
  cases h with
  | path alike =>
    simp only [TypeExpr.inside, argumentVia_eq, alike.name]
    exact hmap alike.args
  | reference inner | pointer inner | slice inner | array inner => exact hmap (.cons inner .nil)
  | tuple elements => exact hmap elements
  | function params ret => exact hmap (List.rel_append params (forall₂_toList ret.types))
  | bounded bounds => exact hmap (Related.flatMap (fun _ _ hb => forall₂_segmentTypes hb) bounds)
  | _ => exact .nil

end Looks

end TypeExpr

end Crossing
