import Crossing.Building.TypeModel
import Crossing.Proofs.Alias.Mentions
import Crossing.Proofs.Building.Made

/-!
# Recipes where an alias is replaced

The rules cannot tell a type from the same type with mentions of an alias replaced: each of them
knows both or neither, and its recipes for the two have related parts (`Inlining.recipe_alike`).
Only at a replaced mention itself the recipes differ: the mention is a named type
(`Inlining.recipe_mention`), and the target is whatever it is.
-/

namespace Crossing.Building

open TypeExpr (isPlain wrapped? isCallable callBound? standardName? args ruleNames ruleName?)

section Alike

variable (index index' : NominalIndex) (a : Nominal) (R : TypeExpr → TypeExpr → Prop)

inductive Return.Alike : Return → Return → Prop where
  | value {t t' : TypeExpr} (type : R t t') : Alike (.value t) (.value t')
  | fallible {t t' e e' : TypeExpr} (type : R t t') (error : R e e') :
      Alike (.fallible t e) (.fallible t' e')
  | malformed (p p' : Problem) : Alike (.malformed p) (.malformed p')

/-- Recipes that differ in related parts only, and in what they tell of problems. -/
inductive Recipe.Alike : Recipe → Recipe → Prop where
  | exact (t : InterfaceType) : Alike (.exact t) (.exact t)
  | refuse (p p' : Problem) : Alike (.refuse p) (.refuse p')
  | wrap {via : Via} {t t' : TypeExpr} {w w' : Wrapper} (part : R t t')
      (finish : w.finish = w'.finish) : Alike (.wrap via t w) (.wrap via t' w')
  | tuple {ts ts' : List TypeExpr} (parts : List.Forall₂ R ts ts') : Alike (.tuple ts) (.tuple ts')
  | function {ps ps' : List TypeExpr} {r r' : Return} {holding : Holding}
      (params : List.Forall₂ R ps ps') (ret : r.Alike R r') :
      Alike (.function ps r holding) (.function ps' r' holding)
  | buffer {n n' : Nominal} {e e' : TypeExpr} {holding : Holding}
      (nominal : Nominal.Inlined index index' a n n')
      (element : e.Inlined index index' a n.scope n.scope e') :
      Alike (.buffer n e holding) (.buffer n' e' holding)
  | named {n n' : Nominal} {e e' : TypeExpr} (nominal : Nominal.Inlined index index' a n n')
      (args : e.args.isEmpty = e'.args.isEmpty) : Alike (.named n e) (.named n' e')

end Alike

theorem Wrapper.finish_optional (p p' : Problem) :
    (Wrapper.optional p).finish = (Wrapper.optional p').finish := by
  funext t
  simp only [finish, around, Except.toOption, Option.bind_some]
  cases t with
  | pointer target nullable holding mutable =>
    unfold optionalOf
    simp only
    split
    · rfl
    · rfl
  | _ => rfl

namespace Rule

variable {index index' : NominalIndex} {a : Nominal} {scope scope' : List String} {e e' : TypeExpr}

section Slices

/-- The element type of a slice. -/
def slice? : TypeExpr → Option TypeExpr
  | .slice t => some t
  | _ => none

theorem rel_slice? (h : e.Inlined index index' a scope scope' e') (hview : e.isSlice = e'.isSlice) :
    Option.Rel (TypeExpr.Inlined index index' a scope scope') (slice? e) (slice? e') := by
  rcases h.cases with halike | ⟨hmeaning, -⟩
  · cases halike with
    | slice inner => exact .some inner
    | _ => exact .none
  · cases e with
    | path ss =>
      cases e' with
      | slice t => simp [TypeExpr.isSlice] at hview
      | _ => exact .none
    | _ =>
      simp [TypeExpr.names, TypeExpr.segments, NominalIndex.resolve, Resolution.nominal?]
        at hmeaning

theorem sequenceRecipe?_path (ss : List (Segment TypeExpr)) :
    sequenceRecipe? (.path ss) = (((TypeExpr.path ss).wrapped? ["Vec"]).or
      (((TypeExpr.path ss).wrapped? ["Box"]).bind slice?)).map fun t =>
        .wrap .sequence t (.buffer .owned) := by
  unfold sequenceRecipe?
  simp only
  cases (TypeExpr.path ss).wrapped? ["Vec"] with
  | some t => rfl
  | none =>
    cases (TypeExpr.path ss).wrapped? ["Box"] with
    | none => rfl
    | some t => cases t <;> rfl

theorem sequenceRecipe?_reference (lifetime : Option String) (mutable : Bool) (t : TypeExpr) :
    sequenceRecipe? (.reference lifetime mutable t)
      = (slice? t).map fun t => .wrap .sequence t (.buffer .borrowed) := by
  cases t <;> rfl

end Slices

section Callables

/-- Signatures with related types that fail alike. -/
abbrev SignatureAlike (index index' : NominalIndex) (a : Nominal) (scope scope' : List String)
    (f f' : List TypeExpr × Option TypeExpr) : Prop :=
  List.Forall₂ (TypeExpr.Inlined index index' a scope scope') f.1 f'.1
    ∧ ReturnAlike (TypeExpr.Inlined index index' a scope scope') f.2 f'.2

theorem rel_signature?
    (h : e.Alike index index' scope scope' (TypeExpr.Inlined index index' a scope scope') e') :
    Option.Rel (SignatureAlike index index' a scope scope') (signature? e) (signature? e') := by
  have hbound := h.callBound?
  cases h with
  | function params ret => exact .some ⟨params, ret⟩
  | _ => exact hbound

/-- Callable types whose signatures are related, held alike. -/
abbrev CallableAlike (index index' : NominalIndex) (a : Nominal) (scope scope' : List String)
    (f f' : TypeExpr × Holding) : Prop :=
  Option.Rel (SignatureAlike index index' a scope scope') (signature? f.1) (signature? f'.1)
    ∧ f'.2 = f.2

theorem rel_held {holding : Holding} (h : e.Inlined index index' a scope scope' e')
    (hcallable : e.isCallable = e'.isCallable) :
    Option.Rel (CallableAlike index index' a scope scope')
      (if e.isCallable then some (e, holding) else none)
      (if e'.isCallable then some (e', holding) else none) := by
  rcases h.cases with halike | ⟨hmeaning, -⟩
  · exact Related.ite (by rw [hcallable]) ⟨rel_signature? halike, rfl⟩
  · have hnone : e.isCallable = false := by
      cases e with
      | path ss => rfl
      | _ =>
        simp [TypeExpr.names, TypeExpr.segments, NominalIndex.resolve, Resolution.nominal?]
          at hmeaning
    rw [← hcallable, hnone]
    exact .none

theorem map_filter_isCallable (t : Option TypeExpr) (holding : Holding) :
    (t.filter TypeExpr.isCallable).map (·, holding)
      = t.bind fun t => if t.isCallable then some (t, holding) else none := by
  cases t with
  | none => rfl
  | some t =>
    rw [Option.filter_some, Option.bind_some]
    split <;> rfl

end Callables

section Returns

theorem isResult_iff : e.isResult = true ↔ e.ruleName? = some "Result" := by
  rw [TypeExpr.ruleName?_eq_some, TypeExpr.isResult, decide_eq_true_iff]
  exact (and_iff_left (by decide)).symm

theorem inlined_unit (index index' : NominalIndex) (a : Nominal) (scope scope' : List String) :
    TypeExpr.unit.Inlined index index' a scope scope' .unit :=
  .layer (R := fun _ _ => False) nofun (.tuple .nil)

theorem ofExpr_some (t : TypeExpr) : Return.ofExpr (some t) = if t.isResult then
      match t.args with
      | [t, error] => .fallible t error
      | _ =>
        .malformed (.about t ("`" ++ t.render ++ "` must name both the value and the error type"))
    else .value t := by
  by_cases h : t.standardName? = some "Result"
  · have hresult : t.isResult = true := decide_eq_true h
    rw [if_pos hresult]
    exact if_pos h
  · have hresult : ¬ t.isResult = true := by simpa [TypeExpr.isResult] using h
    rw [if_neg hresult]
    exact if_neg h

/-- Results that are related and fail alike are what functions return alike. -/
theorem rel_return {ret ret' : Option TypeExpr}
    (h : ReturnAlike (TypeExpr.Inlined index index' a scope scope') ret ret') :
    (Return.ofExpr ret).Alike (TypeExpr.Inlined index index' a scope scope') (.ofExpr ret') := by
  obtain ⟨htypes, hfails⟩ := h
  cases htypes with
  | none => exact .value (inlined_unit ..)
  | @some t t' ht =>
    replace hfails : t.isResult = t'.isResult := hfails
    rw [ofExpr_some, ofExpr_some, ← hfails]
    split
    · rename_i hresult
      have hname := isResult_iff.1 hresult
      rcases ht.cases with halike | ⟨-, -, hnone, -⟩
      · have hargs := halike.args
        generalize t.args = ts, t'.args = ts' at hargs
        rcases hargs with _ | ⟨htype, _ | ⟨herror, _ | _⟩⟩
        · exact .malformed _ _
        · exact .malformed _ _
        · exact .fallible htype herror
        · exact .malformed _ _
      · simp [hname] at hnone
    · exact .value ht

end Returns

section Others

theorem eq_unit_iff
    (h : e.Alike index index' scope scope' (TypeExpr.Inlined index index' a scope scope') e') :
    e = .unit ↔ e' = .unit := by
  cases h with
  | tuple elements => cases elements <;> simp [TypeExpr.unit]
  | _ => simp [TypeExpr.unit]

theorem eq_never_iff
    (h : e.Alike index index' scope scope' (TypeExpr.Inlined index index' a scope scope') e') :
    e = .never ↔ e' = .never := by
  cases h <;> simp

theorem primitive?_eq (wordBits : Int) (e : TypeExpr) : primitive? wordBits e
    = if e.args.isEmpty then e.ruleName?.bind fun name => (primitives wordBits).lookup name
      else none := by
  unfold primitive?
  congr 1
  cases hname : e.standardName? with
  | none => simp [TypeExpr.ruleName?, hname]
  | some name =>
    by_cases hmem : name ∈ ruleNames
    · simp [TypeExpr.ruleName?, hname, Option.filter_some, hmem]
    · have hnone : (primitives wordBits).lookup name = none := by
        refine List.lookup_eq_none_iff.2 fun p hp => ?_
        have hp : p.1 ∈ (primitives 0).map (·.1) := List.mem_map_of_mem (f := (·.1)) hp
        refine bne_iff_ne.2 ?_
        rintro rfl
        exact hmem (List.mem_append_left _ hp)
      simp [TypeExpr.ruleName?, hname, Option.filter_some, hmem, hnone]

theorem structFields?_of_elements? {n : Nominal} {f : TypeExpr × Bool} (h : elements? n = some f) :
    ∃ name visibility rest,
      n.structFields? = some (⟨name, .pointer f.2 f.1, visibility⟩ :: rest) := by
  unfold elements? at h
  split at h
  · rename_i hfields
    split at h
    · obtain rfl := Option.some.inj h
      exact ⟨_, _, _, hfields⟩
    · simp at h
  · simp at h

theorem rel_elements? {n n' : Nominal} (hn : Nominal.Inlined index index' a n n') :
    Option.Rel (fun f f' => f.1.Inlined index index' a n.scope n.scope f'.1 ∧ f'.2 = f.2)
      (elements? n) (elements? n') := by
  have hbuffer := hn.buffer
  have hfields := hn.structFields?
  cases hf : elements? n with
  | none =>
    rw [hf, Option.isSome_none, eq_comm, Option.isSome_eq_false_iff, Option.isNone_iff_eq_none]
      at hbuffer
    rw [hbuffer]
    exact .none
  | some f =>
    rw [hf, Option.isSome_some, eq_comm, Option.isSome_iff_exists] at hbuffer
    obtain ⟨f', hf'⟩ := hbuffer
    obtain ⟨_, _, _, hstruct⟩ := structFields?_of_elements? hf
    obtain ⟨_, _, _, hstruct'⟩ := structFields?_of_elements? hf'
    rw [hstruct, hstruct'] at hfields
    obtain ⟨t, mutable⟩ := f
    obtain ⟨t', mutable'⟩ := f'
    rw [hf']
    cases hfields with
    | some hfields =>
      cases hfields with
      | cons hfirst _ =>
        rcases hfirst.type.cases with halike | ⟨hmeaning, -⟩
        · cases halike with
          | pointer inner => exact .some ⟨inner, rfl⟩
        · cases hmeaning

end Others

section Rules

variable (h : e.Alike index index' scope scope' (TypeExpr.Inlined index index' a scope scope') e')
include h

/-- What is in a `Box` is related, and rules see the same of it. -/
theorem rel_owned : Option.Rel (fun t t' => t.Inlined index index' a scope scope' t'
    ∧ t.view = t'.view) (e.wrapped? ["Box"]) (e'.wrapped? ["Box"]) := by
  refine Related.and_eq (h.wrapped? ["Box"] (by decide)) ?_
  cases h with
  | path alike => exact alike.owned
  | _ => rfl

/-- What is in a counted pointer is related, and callable alike. -/
theorem rel_counted : Option.Rel (fun t t' => t.Inlined index index' a scope scope' t'
    ∧ t.isCallable = t'.isCallable) (e.wrapped? ["Arc", "Rc"]) (e'.wrapped? ["Arc", "Rc"]) := by
  refine Related.and_eq (h.wrapped? ["Arc", "Rc"] (by decide)) ?_
  cases h with
  | path alike => exact alike.counted
  | _ => rfl

theorem rel_sequence : Option.Rel
    (Recipe.Alike index index' a (TypeExpr.Inlined index index' a scope scope'))
    (sequenceRecipe? e) (sequenceRecipe? e') := by
  have howned := rel_owned h
  have hvec := h.wrapped? ["Vec"] (by decide)
  cases h with
  | array inner => exact .some (.wrap inner rfl)
  | slice inner => exact .some (.refuse _ _)
  | reference inner view =>
    rw [sequenceRecipe?_reference, sequenceRecipe?_reference]
    exact Related.map (fun _ _ ht => .wrap ht rfl) (rel_slice? inner (congrArg (·.isSlice) view))
  | path alike =>
    rw [sequenceRecipe?_path, sequenceRecipe?_path]
    refine Related.map (fun _ _ ht => .wrap ht rfl) (Related.or hvec (Related.bind ?_ howned))
    exact fun t t' ht => rel_slice? ht.1 (congrArg (·.isSlice) ht.2)
  | _ => exact .none

theorem text?_eq : text? e = text? e' := by
  have hbox : (e.wrapped? ["Box"]).bind unsizedText? = (e'.wrapped? ["Box"]).bind unsizedText? := by
    have howned := rel_owned h
    generalize e.wrapped? ["Box"] = t, e'.wrapped? ["Box"] = t' at howned
    cases howned with
    | none => rfl
    | some ht => exact congrArg (·.encoding) ht.2
  unfold text?
  rw [h.isPlain ["String"] (by decide), h.isPlain ["CString"] (by decide)]
  split
  · rfl
  split
  · rfl
  cases h with
  | reference inner view =>
    exact congrArg (Option.map (·, Holding.borrowed)) (congrArg (·.encoding) view)
  | path alike => exact congrArg (Option.map (·, Holding.owned)) hbox
  | _ => rfl

theorem rel_text : Option.Rel
    (Recipe.Alike index index' a (TypeExpr.Inlined index index' a scope scope'))
    (textRecipe? e) (textRecipe? e') := by
  unfold textRecipe?
  rw [text?_eq h]
  split
  · exact .some (.exact _)
  · exact Related.ite (by rw [h.isPlain ["str", "CStr"] (by decide)]) (.refuse _ _)

theorem rel_callable? : Option.Rel (CallableAlike index index' a scope scope')
    (callable? e) (callable? e') := by
  have howned := rel_owned h
  have hcounted := rel_counted h
  have hsignature := rel_signature? h
  have hcallable := h.isCallable
  cases h with
  | function => exact .some ⟨hsignature, rfl⟩
  | @bounded kind =>
    cases kind with
    | object => exact .none
    | anonymous => exact Related.ite (by rw [hcallable]) ⟨hsignature, rfl⟩
  | reference inner view => exact rel_held inner (congrArg (·.isCallable) view)
  | path alike =>
    unfold callable?
    simp only [map_filter_isCallable]
    refine Related.or (Related.bind (fun t t' ht => ?_) howned)
      (Related.bind (fun t t' ht => rel_held ht.1 ht.2) hcounted)
    exact rel_held ht.1 (congrArg (·.isCallable) ht.2)
  | _ => exact .none

omit h in
theorem pointerRecipe?_path (ss : List (Segment TypeExpr)) : pointerRecipe? (.path ss)
    = (((TypeExpr.path ss).wrapped? ["Box"]).map fun t =>
        .wrap .pointer t (.pointer false .owned true)).or
      (((TypeExpr.path ss).wrapped? ["Arc", "Rc"]).map fun t =>
        .wrap .pointer t (.pointer false .counted false)) := by
  unfold pointerRecipe?
  simp only
  cases (TypeExpr.path ss).wrapped? ["Box"] with
  | some t => rfl
  | none => cases (TypeExpr.path ss).wrapped? ["Arc", "Rc"] <;> rfl

theorem rel_pointer : Option.Rel
    (Recipe.Alike index index' a (TypeExpr.Inlined index index' a scope scope'))
    (pointerRecipe? e) (pointerRecipe? e') := by
  have howned := rel_owned h
  have hcounted := rel_counted h
  cases h with
  | reference inner | pointer inner => exact .some (.wrap inner rfl)
  | path alike =>
    rw [pointerRecipe?_path, pointerRecipe?_path]
    exact Related.or (Related.map (fun _ _ ht => .wrap ht.1 rfl) howned)
      (Related.map (fun _ _ ht => .wrap ht.1 rfl) hcounted)
  | _ => exact .none

theorem rel_callable : Option.Rel
    (Recipe.Alike index index' a (TypeExpr.Inlined index index' a scope scope'))
    (callableRecipe? e) (callableRecipe? e') := by
  have hsignature : Option.Rel (fun f f' => SignatureAlike index index' a scope scope' f.1 f'.1
      ∧ f'.2 = f.2) ((callable? e).bind fun f => (signature? f.1).map (·, f.2))
      ((callable? e').bind fun f => (signature? f.1).map (·, f.2)) :=
    Related.bind (fun f f' hf => Related.map (fun g g' hg => ⟨hg, hf.2⟩) hf.1) (rel_callable? h)
  unfold callableRecipe?
  generalize (callable? e).bind _ = f, (callable? e').bind _ = f' at hsignature
  cases hsignature with
  | none => exact Related.ite (by rw [h.isCallable]) (.refuse _ _)
  | @some f f' hf =>
    obtain ⟨⟨params, ret⟩, holding⟩ := f
    obtain ⟨⟨params', ret'⟩, holding'⟩ := f'
    obtain ⟨⟨hparams, hret⟩, rfl⟩ := hf
    exact .some (.function hparams (rel_return hret))

/-- Each rule that is not fixed knows both types or neither, and its recipes for them are alike. -/
theorem recipe?_alike {rule : Rule} (hrule : ∀ name answer, rule ≠ .fixed name answer)
    {wordBits : Int} {r r' : Resolution}
    (hmeaning : Option.Rel (Nominal.Inlined index index' a) r.nominal? r'.nominal?) :
    Option.Rel (Recipe.Alike index index' a (TypeExpr.Inlined index index' a scope scope'))
      (rule.recipe? ⟨wordBits, r⟩ e) (rule.recipe? ⟨wordBits, r'⟩ e') := by
  have hisEmpty := Related.isEmpty_eq h.args
  cases rule with
  | unit =>
    refine Related.ite ?_ (.exact _)
    rw [h.isPlain ["c_void"] (by decide), decide_eq_decide.2 (eq_unit_iff h)]
  | primitive =>
    simp only [recipe?, primitive?_eq, h.ruleName?, hisEmpty]
    exact Related.map (R := Eq) (fun t t' ht => ht ▸ .exact t) (Related.refl _)
  | never => exact Related.ite (eq_never_iff h) (.refuse _ _)
  | text => exact rel_text h
  | sequence => exact rel_sequence h
  | callable => exact rel_callable h
  | optional =>
    exact Related.map (fun t t' ht => .wrap ht (Wrapper.finish_optional _ _))
      (h.wrapped? ["Option"] (by decide))
  | result =>
    refine Related.ite ?_ (.refuse _ _)
    have hresult := isResult_iff (e := e)
    rw [h.ruleName?, ← isResult_iff] at hresult
    simpa [TypeExpr.isResult] using hresult
  | pointer => exact rel_pointer h
  | tuple =>
    cases h with
    | tuple elements =>
      cases elements with
      | nil => exact .none
      | cons ht hts => exact .some (.tuple (.cons ht hts))
    | _ => exact .none
  | structuralSequence =>
    simp only [recipe?, structuralRecipe?, hisEmpty]
    split
    · refine Related.bind
        (fun n n' hn => Related.bind (fun f f' hf => ?_) (rel_elements? hn)) hmeaning
      obtain ⟨t, mutable⟩ := f
      obtain ⟨t', mutable'⟩ := f'
      obtain ⟨ht, rfl⟩ := hf
      exact .some (.buffer hn ht)
    · exact .none
  | nominal => exact Related.map (fun n n' hn => .named hn hisEmpty) hmeaning
  | unknown => exact .some (.refuse _ _)
  | fixed name answer => exact absurd rfl (hrule name answer)

end Rules

end Rule

section Recipe

/-- A name that no rule asks for is known by what it means only. -/
theorem Rule.recipe?_eq_none {ss : List (Segment TypeExpr)} {a : Nominal} {t : TypeExpr}
    (hname : (TypeExpr.path ss).ruleName? = none) (htarget : a.aliasTarget? = some t) {o : Outlook}
    (hmeaning : o.meaning.nominal? = some a) {rule : Rule} (hnominal : rule ≠ .nominal)
    (hunknown : rule ≠ .unknown) (hfixed : ∀ name answer, rule ≠ .fixed name answer) :
    rule.recipe? o (.path ss) = none := by
  have hplain (names : List String) (hnames : ∀ name ∈ names, name ∈ ruleNames) :
      (TypeExpr.path ss).isPlain names = false := by
    rw [TypeExpr.isPlain_eq hnames, hname]
    rfl
  have hwrapped (names : List String) (hnames : ∀ name ∈ names, name ∈ ruleNames) :
      (TypeExpr.path ss).wrapped? names = none := by
    rw [TypeExpr.wrapped?_eq hnames, hname]
    rfl
  have hbox := hwrapped ["Box"] (by decide)
  have hcounted := hwrapped ["Arc", "Rc"] (by decide)
  have hcallable : (TypeExpr.path ss).isCallable = false := rfl
  cases rule with
  | unit => simp [recipe?, hplain ["c_void"] (by decide), TypeExpr.unit]
  | primitive => simp [recipe?, primitive?_eq, hname]
  | never => rfl
  | text =>
    simp [recipe?, textRecipe?, text?, hbox, hplain ["String"] (by decide),
      hplain ["CString"] (by decide), hplain ["str", "CStr"] (by decide)]
  | sequence =>
    simp [recipe?, sequenceRecipe?_path, hbox, hwrapped ["Vec"] (by decide)]
  | callable => simp [recipe?, callableRecipe?, callable?, hbox, hcounted, hcallable]
  | optional => simp [recipe?, optionalRecipe?, hwrapped ["Option"] (by decide)]
  | result =>
    have hresult := isResult_iff (e := .path ss)
    simp only [hname, reduceCtorEq, iff_false, TypeExpr.isResult, decide_eq_true_eq] at hresult
    simp [recipe?, hresult]
  | pointer => simp [recipe?, pointerRecipe?_path, hbox, hcounted]
  | tuple => rfl
  | structuralSequence =>
    have helements : elements? a = none := by
      cases hf : elements? a with
      | none => rfl
      | some f =>
        obtain ⟨_, _, _, hstruct⟩ := structFields?_of_elements? hf
        unfold Nominal.aliasTarget? at htarget
        split at htarget <;> simp_all [Nominal.structFields?]
    simp [recipe?, structuralRecipe?, hmeaning, helements]
  | nominal => exact absurd rfl hnominal
  | unknown => exact absurd rfl hunknown
  | fixed name answer => exact absurd rfl (hfixed name answer)

theorem RecognizerSet.recipe_eq (s : RecognizerSet) (o : Outlook) (e : TypeExpr) :
    s.recipe o e = (s.members.findSome? (·.recipe? o e)).getD
      (.refuse (.about e ("type `" ++ e.render ++ "` has no marshaling rule"))) := by
  have hfirst : ∀ members : List Recognizer, (members.find? (·.knows o e)).bind (·.recipe? o e)
      = members.findSome? (·.recipe? o e) := by
    intro members
    induction members with
    | nil => rfl
    | cons r rs ih =>
      rw [List.find?_cons, List.findSome?_cons]
      unfold Recognizer.knows at ih ⊢
      cases hr : r.recipe? o e with
      | none => simpa using ih
      | some recipe => simp [hr]
  unfold recipe recognize first
  rw [hfirst]
  split <;> rename_i h <;> rw [h] <;> rfl

variable {m m' : TypeModel} {a : Nominal}

/-- What relates the models of a module with mentions of an alias and of the one with its target in
their place. -/
structure TypeModel.Inlining (m m' : TypeModel) (a : Nominal) : Prop where
  index : m.index.Inlining m'.index a
  graph : m'.graph = m.graph
  wordBits : m'.wordBits = m.wordBits
  standard : m.recognizers = .standard
  standard' : m'.recognizers = .standard

variable (h : m.Inlining m' a) {scope scope' : List String} {e e' : TypeExpr}
include h

theorem TypeModel.Inlining.recipe_alike
    (he : e.Alike m.index m'.index scope scope'
      (TypeExpr.Inlined m.index m'.index a scope scope') e') :
    (m.recipe scope e).Alike m.index m'.index a
      (TypeExpr.Inlined m.index m'.index a scope scope') (m'.recipe scope' e') := by
  have hmeaning := h.index.meaning he.meaning
  have hrules : ∀ r ∈ RecognizerSet.standard.members, Option.Rel (Recipe.Alike m.index m'.index a
      (TypeExpr.Inlined m.index m'.index a scope scope'))
      (r.recipe? ⟨m.wordBits, m.index.resolve e.names scope⟩ e)
      (r.recipe? ⟨m.wordBits, m'.index.resolve e'.names scope'⟩ e') := fun r hr =>
    Rule.recipe?_alike he (fun name answer hfixed =>
      TypeModel.not_hasFixed h.standard ⟨r, h.standard ▸ hr, name, answer, hfixed⟩) hmeaning
  unfold TypeModel.recipe TypeModel.recipeBy
  rw [h.standard, h.standard', h.wordBits, RecognizerSet.recipe_eq, RecognizerSet.recipe_eq]
  exact Related.getD (Related.findSome? hrules) (.refuse _ _)

/-- A mention of the alias is taken as one. -/
theorem TypeModel.Inlining.recipe_mention {t : TypeExpr}
    (hmeaning : (m.index.resolve e.names scope).nominal? = some a) (hargs : e.args = [])
    (hname : e.ruleName? = none) (htarget : a.aliasTarget? = some t) :
    m.recipe scope e = .named a e := by
  unfold TypeModel.recipe TypeModel.recipeBy
  rw [h.standard, RecognizerSet.recipe_eq]
  cases e with
  | path ss =>
    have hsome : RecognizerSet.standard.members.findSome? (fun r =>
        r.recipe? ⟨m.wordBits, m.index.resolve (TypeExpr.path ss).names scope⟩ (.path ss))
          = some (.named a (.path ss)) := by
      have hnone {rule : Rule} (hnominal : rule ≠ .nominal) (hunknown : rule ≠ .unknown)
          (hfixed : ∀ name answer, rule ≠ .fixed name answer) : rule.recipe?
            ⟨m.wordBits, m.index.resolve (TypeExpr.path ss).names scope⟩ (.path ss) = none :=
        Rule.recipe?_eq_none hname htarget hmeaning hnominal hunknown hfixed
      refine List.findSome?_eq_some_iff.2
        ⟨RecognizerSet.standard.members.take 11, ⟨100, "nominal", .nominal⟩,
          [⟨1000, "unknown", .unknown⟩], rfl,
          by simp [Recognizer.recipe?, Rule.recipe?, hmeaning], ?_⟩
      simp [RecognizerSet.standard, Recognizer.recipe?, hnone]
    rw [hsome]
    rfl
  | _ => cases hmeaning

end Recipe

end Crossing.Building
