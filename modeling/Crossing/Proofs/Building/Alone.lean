import Mathlib
import Crossing.Proofs.Building.Answer
import Crossing.Proofs.Building.Nesting
import Crossing.Proofs.Building.Notes

/-!
# Positions by themselves

A function item is built position by position, and what is wrong with a position by itself is told
for the whole function as well (`reported_iff`), with one exception. Whether callbacks nest is
looked at only once all positions have types, so where one of them has none, what nests in another
one is passed over.
-/

namespace Crossing

/-- The body of a function with other positions. -/
def DeclarationBody.withSignature (ps : List Parameter) (ret : Option TypeExpr) :
    DeclarationBody → DeclarationBody
  | .function _ _ receiver isAsync isUnsafe abi => .function ps ret receiver isAsync isUnsafe abi
  | body => body

/-- A function item with other positions, under the same name. -/
def ExportItem.withSignature (item : ExportItem) (ps : List Parameter) (ret : Option TypeExpr) :
    ExportItem :=
  { item with declaration.body := item.declaration.body.withSignature ps ret }

namespace Building

variable {m : TypeModel} {item : ExportItem} {b : Builder} {o : Outcome}

section Answer

variable (hnodup : m.index.names.Nodup) (hb : b.Faithful m)
include hnodup hb

theorem buildDeclared_iff :
    ((Builder.buildDeclared m item).run.run b).1 = .ok o ↔ Yields m (.ofItem m item) o :=
  answer_of_keeps hb (Builder.keeps_buildDeclared hnodup item)
    (Builder.keeps_buildDeclared_failure hnodup item)

theorem buildItem_iff {found : Findings Diagnostic InterfaceType} :
    ((Builder.buildItem m item).run.run b).1 = .ok found ↔ Answers m item found := by
  rw [Builder.run_buildItem]
  simp only [Answers, ← buildDeclared_iff hnodup hb]
  cases ((Builder.buildDeclared m item).run.run b).1 <;> simp [Except.map]

end Answer

section Reported

theorem diagnostic_injective : Function.Injective (Problem.diagnostic item) := by
  rintro ⟨message, type, notes⟩ ⟨message', type', notes'⟩ h
  simp_all [Problem.diagnostic]

theorem problems_reported :
    (reported item o).problems = (Findings.problems o).eraseDups.map (·.diagnostic item) := by
  cases o <;> rfl

theorem problems_unnested_ok {t : InterfaceType} :
    (unnested item (.ok t)).problems = nestingProblems item t := by
  simp only [unnested]
  split
  · rename_i h
    exact h.symm
  · rfl

end Reported

theorem notes_ne_nil_of_callback {label : String} {t : InterfaceType} {p : Problem}
    (h : p ∈ callbackProblems label t) : p.notes ≠ [] := by
  unfold callbackProblems at h
  split at h
  · obtain rfl := List.mem_singleton.1 h
    exact List.cons_ne_nil _ _
  · simp at h

/-- Nesting is told with a note. -/
theorem notes_ne_nil_of_nesting {t : InterfaceType} {p : Problem} (h : p ∈ nestingProblems item t) :
    p.notes ≠ [] := by
  unfold nestingProblems at h
  split at h
  · rcases List.mem_append.1 h with h | h
    · obtain ⟨x, -, h⟩ := List.mem_flatMap.1 h
      exact notes_ne_nil_of_callback h
    · split at h
      · exact notes_ne_nil_of_callback h
      all_goals simp at h
  · simp at h
  all_goals exact notes_ne_nil_of_callback h

/-- What comes of the result of a function. -/
def YieldsReturn (m : TypeModel) (s : Site) :
    Return → Findings Problem (InterfaceType × Failure InterfaceType) → Prop
  | .value e, r =>
    ∃ o, Yields m (.follow (s.inside .function) (m.recipe s.scope e)) o ∧ r = o.map (·, .never)
  | .fallible e error, r =>
    ∃ o oe, Yields m (.follow (s.inside .function) (m.recipe s.scope e)) o
      ∧ Yields m (.follow (s.inside .function) (m.recipe s.scope error)) oe
      ∧ r = Findings.combine (fun t e => (t, .typed e)) o oe
  | .malformed problem, r => r = .error [problem]

theorem yields_signature_iff {s : Site} {params : List TypeExpr} {ret : Return}
    {holding : Holding} :
    Yields m (.follow s (.function params ret holding)) o ↔
      ∃ made : List (TypeExpr × Outcome), ∃ r, made.map (·.1) = params
        ∧ (∀ p ∈ made, Yields m (.follow (s.inside .function) (m.recipe s.scope p.1)) p.2)
        ∧ YieldsReturn m s ret r ∧ o = Builder.signatureOf holding (made.map (·.2)) r := by
  cases ret with
  | value e =>
    refine ⟨fun h => ?_, ?_⟩
    · obtain ⟨made, r, hfst, hmade, hr, ho⟩ := h.of_function
      exact ⟨made, _, hfst, hmade, ⟨r, hr, rfl⟩, ho⟩
    · rintro ⟨made, _, rfl, hmade, ⟨r, hr, rfl⟩, rfl⟩
      exact .function hmade hr
  | fallible e error =>
    refine ⟨fun h => ?_, ?_⟩
    · obtain ⟨made, r, re, hfst, hmade, hr, hre, ho⟩ := h.of_fallible
      exact ⟨made, _, hfst, hmade, ⟨r, re, hr, hre, rfl⟩, ho⟩
    · rintro ⟨made, _, rfl, hmade, ⟨r, re, hr, hre, rfl⟩, rfl⟩
      exact .fallible hmade hr hre
  | malformed problem =>
    refine ⟨fun h => ?_, ?_⟩
    · obtain ⟨made, hfst, hmade, ho⟩ := h.of_malformed
      exact ⟨made, _, hfst, hmade, rfl, ho⟩
    · rintro ⟨made, _, rfl, hmade, rfl, rfl⟩
      exact .malformed hmade

section Function

variable {ps : List Parameter} {ret : Option TypeExpr} {receiver : Option String}
  {isAsync isUnsafe : Bool} {abi : Option String}

/-- The positions of a function item by themselves: what its parameters come to and its result. -/
structure Positions (m : TypeModel) (item : ExportItem) (ps : List Parameter)
    (ret : Option TypeExpr) (made : List (Parameter × Outcome))
    (r : Findings Problem (InterfaceType × Failure InterfaceType)) : Prop where
  params : made.map (·.1) = ps
  yields : ∀ p ∈ made, Yields m
    (.follow ((m.site item.scope).inside .function) (m.recipe item.scope p.1.type)) p.2
  result : YieldsReturn m (m.site item.scope) (.ofExpr ret) r

theorem exists_positions (hkind : item.kind = .function)
    (hbody : item.declaration.body = .function ps ret receiver isAsync isUnsafe abi)
    (hreturn : ∀ p ∈ ps, p.name ≠ "return") :
    Yields m (.ofItem m item) o ↔ ∃ made r, Positions m item ps ret made r
      ∧ o = Builder.signatureOf .value (made.map (·.2)) r := by
  have htask : Task.ofItem m item
      = .follow (m.site item.scope) (.function (ps.map (·.type)) (.ofExpr ret) .value) := by
    have hkept : ps.filter (·.name != "return") = ps := keptParameters_eq_self_iff.2 hreturn
    simp only [Task.ofItem, hkind, parameterTypes_of_function hbody, hkept,
      returnType?_of_function hbody]
    rfl
  rw [htask, yields_signature_iff]
  constructor
  · rintro ⟨made, r, hfst, hmade, hr, ho⟩
    have hall : List.Forall₂ (fun e o =>
        Yields m (.follow ((m.site item.scope).inside .function) (m.recipe item.scope e)) o)
        (made.map (·.1)) (made.map (·.2)) := by
      rw [List.forall₂_map_left_iff, List.forall₂_map_right_iff]
      exact List.forall₂_same.2 hmade
    rw [hfst, List.forall₂_map_left_iff] at hall
    obtain ⟨made', hparams, hsnd, hyields⟩ := exists_of_forall₂ hall
    exact ⟨made', r, ⟨hparams, hyields, hr⟩, hsnd ▸ ho⟩
  · rintro ⟨made, r, ⟨rfl, hyields, hr⟩, ho⟩
    refine ⟨made.map fun p => (p.1.type, p.2), r, by simp, ?_, hr, ?_⟩
    · exact List.forall_mem_map.2 hyields
    · rwa [List.map_map]

/-- The nesting problems of parameters as far as they were built. -/
def parameterProblems (made : List (Parameter × Outcome)) : List Problem :=
  made.flatMap fun (p, o) =>
    match o with
    | .ok t => callbackProblems p.name t
    | .error _ => []

/-- The nesting problems of what a function returns. -/
def resultProblems (ret : InterfaceType × Failure InterfaceType) : List Problem :=
  callbackProblems "return" ret.1 ++ match ret.2 with
    | .typed error => callbackProblems "error" error
    | .never | .untyped => []

theorem flatMap_zip_eq_parameterProblems {made : List (Parameter × Outcome)}
    {params : List InterfaceType} (h : made.map (·.2) = params.map .ok) :
    ((made.map (·.1.name)).zip params).flatMap (fun (label, t) => callbackProblems label t)
      = parameterProblems made := by
  induction made generalizing params with
  | nil => rfl
  | cons p made ih =>
    cases params with
    | nil => simp at h
    | cons t params =>
      obtain ⟨p, o⟩ := p
      obtain ⟨rfl, hparams⟩ := List.cons.inj h
      rw [List.map_cons, List.zip_cons_cons, List.flatMap_cons, ih hparams]
      rfl

section Positions

variable {made : List (Parameter × Outcome)}
  {r : Findings Problem (InterfaceType × Failure InterfaceType)}
  (hkind : item.kind = .function)
  (hbody : item.declaration.body = .function ps ret receiver isAsync isUnsafe abi)
  (hpositions : Positions m item ps ret made r) {ts : List InterfaceType}
  (hts : made.map (·.2) = ts.map .ok) (result : InterfaceType × Failure InterfaceType)
include hkind hbody hpositions hts

/-- The nesting problems of a function are those of its positions, under their own names. -/
theorem nestingProblems_of_positions :
    nestingProblems item (Builder.functionOf .value ts result)
      = parameterProblems made ++ resultProblems result := by
  have hlabels : item.typeRefs.map (·.1) = made.map (·.1.name) ++ ["return"] := by
    simp [typeRefs_of_function hbody, ← hpositions.params, Function.comp_def]
  have hlength : (made.map (·.1.name)).length = ts.length := by
    simpa using congrArg List.length hts
  obtain ⟨t, failure⟩ := result
  simp only [nestingProblems, hkind, Builder.functionOf, hlabels, resultProblems]
  rw [List.zip_append hlength, List.flatMap_append, List.append_assoc,
    flatMap_zip_eq_parameterProblems hts]
  cases failure <;> simp

omit hkind in
theorem nestingProblems_eq_nil_iff_of_positions :
    nestingProblems item (Builder.functionOf .value ts result) = []
      ↔ ¬ item.NestsCallbacks (Builder.functionOf .value ts result) := by
  refine nestingProblems_eq_nil_iff fun _ => ⟨ts, result.1, result.2, .value, rfl, ?_⟩
  have hlength := congrArg List.length hts
  rw [typeRefs_of_function hbody, ← hpositions.params]
  simp only [List.length_map] at hlength
  simp [hlength]

end Positions

end Function

/-- An item with no problems but those of another tells nothing that the other does not tell, unless
callbacks nest in it and the other does not build: nesting is looked for in built types only. -/
theorem problems_subset_iff {alone : ExportItem} {o' : Outcome}
    (hnests : ∀ t, o' = .ok t → (nestingProblems alone t = [] ↔ ¬ alone.NestsCallbacks t))
    (hfailed : ∀ p ∈ o'.problems, p ∈ o.problems)
    (hnested : ∀ t t', o = .ok t → o' = .ok t' →
      ∀ p ∈ nestingProblems alone t', p ∈ nestingProblems item t)
    (hnotes : Unnoted o) :
    (∀ p ∈ (unnested alone o').problems, p ∈ (unnested item o).problems) ↔
      ((∃ t, o' = .ok t ∧ alone.NestsCallbacks t) → ∃ t, o = .ok t) := by
  cases o' with
  | error ps =>
    refine iff_of_true (fun p hp => ?_) (by simp)
    cases o with
    | ok t => exact absurd (hfailed p hp) List.not_mem_nil
    | error ps' => exact hfailed p hp
  | ok t' =>
    rw [problems_unnested_ok]
    cases o with
    | ok t =>
      rw [problems_unnested_ok]
      exact iff_of_true (hnested t t' rfl rfl) fun _ => ⟨t, rfl⟩
    | error ps =>
      constructor
      · rintro hall ⟨_, ⟨⟩, hcallbacks⟩
        obtain ⟨p, hp⟩ := List.exists_mem_of_ne_nil _ fun hnil => (hnests t' rfl).1 hnil hcallbacks
        exact (notes_ne_nil_of_nesting hp (hnotes p (hall p hp))).elim
      · intro h
        have hnil := (hnests t' rfl).2 fun hcallbacks => by simpa using h ⟨t', rfl, hcallbacks⟩
        rw [hnil]
        exact List.forall_mem_nil _

section Alone

variable {alone : ExportItem} {ps ps' : List Parameter} {ret ret' : Option TypeExpr}
  {receiver : Option String} {isAsync isUnsafe : Bool} {abi : Option String}
  {made made' : List (Parameter × Outcome)}
  {r r' : Findings Problem (InterfaceType × Failure InterfaceType)}

theorem problems_signatureOf {holding : Holding} {params : List Outcome} :
    Findings.problems (Builder.signatureOf holding params r)
      = params.flatMap Findings.problems ++ r.problems := by
  rw [Builder.signatureOf, Findings.problems_combine, Findings.problems_all]

/-- A result that nothing is wrong with, as the unit type is. -/
def Flat (r : Findings Problem (InterfaceType × Failure InterfaceType)) : Prop :=
  ∃ result, r = .ok result ∧ resultProblems result = []

/-- A function that has only some positions of another one, and perhaps a flat result, tells nothing
that the other does not tell, unless callbacks nest in it and the other does not build. -/
theorem problems_subset_iff_of_positions (hkind : item.kind = .function)
    (hbody : item.declaration.body = .function ps ret receiver isAsync isUnsafe abi)
    (hpositions : Positions m item ps ret made r) (hkind' : alone.kind = .function)
    (hbody' : alone.declaration.body = .function ps' ret' receiver isAsync isUnsafe abi)
    (hpositions' : Positions m alone ps' ret' made' r') (hmade : made' ⊆ made)
    (hr : r' = r ∨ Flat r') :
    let o := Builder.signatureOf .value (made.map (·.2)) r
    let o' := Builder.signatureOf .value (made'.map (·.2)) r'
    Unnoted o → ((∀ p ∈ (unnested alone o').problems, p ∈ (unnested item o).problems) ↔
      ((∃ t, o' = .ok t ∧ alone.NestsCallbacks t) → ∃ t, o = .ok t)) := by
  intro o o' hnotes
  refine problems_subset_iff ?_ ?_ ?_ hnotes
  · intro t ht
    obtain ⟨ts, result, hts, -, rfl⟩ := Builder.signatureOf_eq_ok.1 ht
    exact nestingProblems_eq_nil_iff_of_positions hbody' hpositions' hts result
  · intro p hp
    rw [problems_signatureOf, List.flatMap_map, List.mem_append] at hp ⊢
    rcases hp with hp | hp
    · obtain ⟨x, hx, hp⟩ := List.mem_flatMap.1 hp
      exact .inl (List.mem_flatMap.2 ⟨x, hmade hx, hp⟩)
    · rcases hr with rfl | ⟨result, rfl, -⟩
      · exact .inr hp
      · exact absurd hp List.not_mem_nil
  · intro t t' ht ht' p hp
    obtain ⟨ts, result, hts, hresult, rfl⟩ := Builder.signatureOf_eq_ok.1 ht
    obtain ⟨ts', result', hts', hresult', rfl⟩ := Builder.signatureOf_eq_ok.1 ht'
    rw [nestingProblems_of_positions hkind' hbody' hpositions' hts', List.mem_append] at hp
    rw [nestingProblems_of_positions hkind hbody hpositions hts, List.mem_append]
    rcases hp with hp | hp
    · obtain ⟨x, hx, hp⟩ := List.mem_flatMap.1 hp
      exact .inl (List.mem_flatMap.2 ⟨x, hmade hx, hp⟩)
    · rcases hr with rfl | ⟨flat, rfl, hflat⟩
      · obtain rfl := Except.ok.inj (hresult.symm.trans hresult')
        exact .inr hp
      · obtain rfl := Except.ok.inj hresult'
        simp [hflat] at hp

theorem body_withSignature
    (hbody : item.declaration.body = .function ps ret receiver isAsync isUnsafe abi)
    (ps' : List Parameter) (ret' : Option TypeExpr) :
    (item.withSignature ps' ret').declaration.body
      = .function ps' ret' receiver isAsync isUnsafe abi := by
  simp [ExportItem.withSignature, DeclarationBody.withSignature, hbody]

theorem unnoted_ofItem : (Task.ofItem m item).Unnoted := by
  unfold Task.ofItem
  simp only
  split
  · exact fun _ h => Return.unnoted_ofExpr h
  · exact m.unnoted_recipe _ _
  · exact m.unnoted_recipe _ _

/-- Diagnostics of an item and of the same with another signature are compared as problems. -/
theorem problems_reported_subset_iff {o o' : Outcome} :
    (∀ d ∈ (reported (item.withSignature ps ret) o').problems, d ∈ (reported item o).problems) ↔
      ∀ p ∈ o'.problems, p ∈ o.problems := by
  have hdiagnostic : Problem.diagnostic (item.withSignature ps ret) = Problem.diagnostic item := rfl
  simp only [problems_reported, hdiagnostic, List.forall_mem_map,
    List.mem_map_of_injective diagnostic_injective, List.mem_eraseDups]

variable (hnodup : m.index.names.Nodup) (hkind : item.kind = .function)
  (hbody : item.declaration.body = .function ps ret receiver isAsync isUnsafe abi)
include hnodup hkind hbody

/-- What the function without positions comes to when it is built. -/
theorem exists_flat (hb : b.Faithful m) {t : InterfaceType}
    (h : ((Builder.buildItem m (item.withSignature [] none)).run.run b).1 = .ok (.ok t)) :
    ∃ r, YieldsReturn m (m.site item.scope) (.ofExpr none) r ∧ Flat r := by
  obtain ⟨o, ho, hreported⟩ := (buildItem_iff hnodup hb).1 h
  obtain rfl := Builder.ok_of_reported hreported
  have hbody' := body_withSignature hbody [] none
  have hkind' : (item.withSignature [] none).kind = .function := hkind
  obtain ⟨made, r, hpositions, hsignature⟩ :=
    (exists_positions hkind' hbody' (List.forall_mem_nil _)).1 ho
  obtain ⟨ts, result, hts, rfl, rfl⟩ := Builder.signatureOf_eq_ok.1 hsignature.symm
  have hnil := (reported_unnested_eq_ok_iff.1 hreported).2
  rw [nestingProblems_of_positions hkind' hbody' hpositions hts] at hnil
  exact ⟨_, hpositions.result, result, rfl, (List.append_eq_nil_iff.1 hnil).2⟩

/-- By the standard rules the function without positions builds. -/
theorem buildItem_bare (hstandard : m.recognizers = .standard) (hb : b.Faithful m) :
    ((Builder.buildItem m (item.withSignature [] none)).run.run b).1
      = .ok (.ok (.function [] .unit .never .value)) := by
  have hrecipe : m.recipe item.scope .unit = .exact .unit := by
    rw [TypeModel.recipe, TypeModel.recipeBy, hstandard]
    rfl
  have hunit : YieldsReturn m (m.site item.scope) (.ofExpr none) (.ok (.unit, .never)) :=
    ⟨.ok .unit, hrecipe ▸ .exact .unit, rfl⟩
  have hkind' : (item.withSignature [] none).kind = .function := hkind
  have hbody' := body_withSignature hbody [] none
  have hpositions : Positions m (item.withSignature [] none) [] none [] (.ok (.unit, .never)) :=
    ⟨rfl, List.forall_mem_nil _, hunit⟩
  have hyields := (exists_positions hkind' hbody' (List.forall_mem_nil _)).2
    ⟨[], _, hpositions, rfl⟩
  have hnone : List.map (·.2) ([] : List (Parameter × Outcome))
      = ([] : List InterfaceType).map .ok := rfl
  have hnesting := nestingProblems_of_positions hkind' hbody' hpositions hnone (.unit, .never)
  exact (buildItem_iff hnodup hb).2 ⟨_, hyields, reported_unnested_eq_ok_iff.2 ⟨rfl, hnesting⟩⟩

/-- Some positions of a function by themselves are told with the function as a whole. -/
theorem reported_iff_of_positions (hb : b.Faithful m) {b' : Builder} (hb' : b'.Faithful m)
    (hreturn : ∀ p ∈ ps, p.name ≠ "return") (hreturn' : ∀ p ∈ ps', p.name ≠ "return")
    (hpositions : Positions m item ps ret made r)
    (hpositions' : Positions m (item.withSignature ps' ret') ps' ret' made' r')
    (hmade : made' ⊆ made) (hr : r' = r ∨ Flat r') :
    let alone := item.withSignature ps' ret'
    let declared := ((Builder.buildDeclared m item).run.run b).1
    let declaredAlone := ((Builder.buildDeclared m alone).run.run b').1
    ∀ found, ((Builder.buildItem m item).run.run b).1 = .ok found →
      ∃ foundAlone, ((Builder.buildItem m alone).run.run b').1 = .ok foundAlone
        ∧ ((∀ d ∈ foundAlone.problems, d ∈ found.problems) ↔
          ((∃ t, declaredAlone = .ok (.ok t) ∧ alone.NestsCallbacks t) →
            ∃ t, declared = .ok (.ok t))) := by
  intro alone declared declaredAlone found hfound
  have hbody' := body_withSignature hbody ps' ret'
  have hkind' : alone.kind = .function := hkind
  have hyields := (exists_positions hkind hbody hreturn).2 ⟨made, r, hpositions, rfl⟩
  have hyields' := (exists_positions hkind' hbody' hreturn').2 ⟨made', r', hpositions', rfl⟩
  have hdeclared : declared = .ok _ := (buildDeclared_iff hnodup hb).2 hyields
  have hdeclared' : declaredAlone = .ok _ := (buildDeclared_iff hnodup hb').2 hyields'
  obtain rfl := ((buildItem_iff hnodup hb).1 hfound).unique ⟨_, hyields, rfl⟩
  refine ⟨_, (buildItem_iff hnodup hb').2 ⟨_, hyields', rfl⟩, ?_⟩
  rw [problems_reported_subset_iff, hdeclared, hdeclared']
  simp only [Except.ok.injEq]
  exact problems_subset_iff_of_positions hkind hbody hpositions hkind' hbody' hpositions' hmade hr
    (hyields.unnoted unnoted_ofItem)

end Alone

end Building

open Building

/-- Whatever was built before, a function item that is built or refused tells everything that is
wrong with each of its positions by itself, and so it does of callbacks that nest, if all of its
types build; of these it tells nothing otherwise. -/
theorem reported_iff (module : NativeModule) (wordBits : Int) (recognizers : RecognizerSet)
    {item : ExportItem} (hkind : item.kind = .function) {ps : List Parameter}
    {ret : Option TypeExpr} {receiver : Option String} {isAsync isUnsafe : Bool}
    {abi : Option String}
    (hbody : item.declaration.body = .function ps ret receiver isAsync isUnsafe abi)
    (hreturn : ∀ p ∈ ps, p.name ≠ "return") :
    let m := TypeModel.ofModule module wordBits recognizers
    let declared := fun (item : ExportItem) items =>
      ((Builder.buildDeclared m item).run.run (Builder.after m items)).1
    let answer := fun (item : ExportItem) items =>
      ((Builder.buildItem m item).run.run (Builder.after m items)).1
    ∀ items found bare, answer item items = .ok found →
      answer (item.withSignature [] none) [] = .ok (.ok bare) →
      ∀ position ∈ ps.map (fun p => ([p], none)) ++ [([], ret)],
        let alone := item.withSignature position.1 position.2
        ∀ items', ∃ foundAlone, answer alone items' = .ok foundAlone
          ∧ ((∀ d ∈ foundAlone.problems, d ∈ found.problems) ↔
            ((∃ t, declared alone items' = .ok (.ok t) ∧ alone.NestsCallbacks t) →
              ∃ t, declared item items = .ok (.ok t))) := by
  intro m declared answer items found bare hfound hbare position hposition alone items'
  have hnodup : m.index.names.Nodup := NominalIndex.nodup_names_ofModule module
  have hfaithful := Builder.faithful_after hnodup (m := m)
  obtain ⟨o, ho, -⟩ := (buildItem_iff hnodup (hfaithful items)).1 hfound
  obtain ⟨made, r, hpositions, -⟩ := (exists_positions hkind hbody hreturn).1 ho
  rcases List.mem_append.1 hposition with hparam | hresult
  · obtain ⟨p, hp, rfl⟩ := List.mem_map.1 hparam
    obtain ⟨q, hq, rfl⟩ := List.mem_map.1 (hpositions.params ▸ hp)
    obtain ⟨flat, hyields, hflat⟩ := exists_flat hnodup hkind hbody (hfaithful []) hbare
    have hpositions' : Positions m (item.withSignature [q.1] none) [q.1] none [q] flat :=
      ⟨rfl, List.forall_mem_singleton.2 (hpositions.yields q hq), hyields⟩
    exact reported_iff_of_positions hnodup hkind hbody (hfaithful items) (hfaithful items') hreturn
      (List.forall_mem_singleton.2 (hreturn _ hp)) hpositions hpositions'
      (List.cons_subset.2 ⟨hq, List.nil_subset _⟩) (.inr hflat) found hfound
  · obtain rfl := List.mem_singleton.1 hresult
    have hpositions' : Positions m (item.withSignature [] ret) [] ret [] r :=
      ⟨rfl, List.forall_mem_nil _, hpositions.result⟩
    exact reported_iff_of_positions hnodup hkind hbody (hfaithful items) (hfaithful items') hreturn
      (List.forall_mem_nil _) hpositions hpositions' (List.nil_subset _) (.inl rfl) found hfound

section Examples

/-- A callback that takes a callback. -/
def nested : Parameter := ⟨"cb", callback (callback (.ofNames ["i32"]))⟩

def registrationDeclaration (other : TypeExpr) : Declaration where
  name := "f"
  visibility := .everyone
  generics := []
  attrs := []
  span := {}
  body := .function [nested, ⟨"x", other⟩] none none false false none

/-- A function that takes a callback of that kind and something else. -/
def registration (other : TypeExpr) : NativeModule where
  name := "crate"
  items := [registrationDeclaration other]
  children := []
  visibility := .everyone
  span := {}

def registrationItem (other : TypeExpr) : ExportItem where
  qualifiedName := "crate::f"
  kind := .function
  isExplicit := false
  symbol := "f"
  index := 0
  modulePath := []
  declaration := registrationDeclaration other

def registrationModel (other : TypeExpr) : TypeModel := .ofModule (registration other) 64 .standard

/-- Beside a number, nesting callbacks are told. -/
theorem reported_iff_registration :
    let m := registrationModel (.ofNames ["u8"])
    let item := registrationItem (.ofNames ["u8"])
    ∃ found foundAlone, ((Builder.buildItem m item).run.run (Builder.after m [])).1 = .ok found
      ∧ ((Builder.buildItem m (item.withSignature [nested] none)).run.run (Builder.after m [])).1
        = .ok foundAlone
      ∧ foundAlone.problems.length = 1 ∧ ∀ d ∈ foundAlone.problems, d ∈ found.problems := by
  intro m item
  have hnodup : m.index.names.Nodup := NominalIndex.nodup_names_ofModule _
  have hkind : item.kind = .function := rfl
  have hbare := buildItem_bare hnodup hkind rfl rfl (Builder.faithful_after hnodup [])
  have hbuilt : ∃ t problem,
      ((Builder.buildDeclared m item).run.run (Builder.after m [])).1 = .ok (.ok t)
      ∧ ((Builder.buildItem m (item.withSignature [nested] none)).run.run (Builder.after m [])).1
        = .ok (.error [problem]) := by
    refine ⟨?t, ?problem, ?declared, ?alone⟩
    case declared =>
      cbv
      rfl
    case alone =>
      cbv
      rfl
  obtain ⟨t, problem, hdeclared, halone⟩ := hbuilt
  have hfound : ((Builder.buildItem m item).run.run (Builder.after m [])).1
      = .ok (reported item (unnested item (.ok t))) := by
    rw [Builder.buildItem, run_bindPure, hdeclared]
    rfl
  obtain ⟨_, halone', hreported⟩ := reported_iff (registration (.ofNames ["u8"])) 64 .standard
    hkind rfl (by decide) [] _ _ hfound hbare ([nested], none) List.mem_cons_self []
  obtain rfl := Except.ok.inj (halone.symm.trans halone')
  exact ⟨_, _, hfound, halone, rfl, hreported.2 fun _ => ⟨t, hdeclared⟩⟩

/-- Beside an unknown type, they are not. -/
theorem unreported_of_unknown :
    let m := registrationModel (.ofNames ["Unknown"])
    let item := registrationItem (.ofNames ["Unknown"])
    item ∈ (Export.collect (registration (.ofNames ["Unknown"])) Export.defaultMarkers).items
      ∧ ∃ found foundAlone, ((Builder.buildItem m item).run.run (Builder.after m [])).1 = .ok found
        ∧ ((Builder.buildItem m (item.withSignature [nested] none)).run.run (Builder.after m [])).1
          = .ok foundAlone
        ∧ ∃ d ∈ foundAlone.problems, d ∉ found.problems := by
  refine ⟨?collected, ?found, ?foundAlone, ?built, ?alone, ?d, ?told, ?untold⟩
  case collected =>
    refine List.mem_of_getElem? (i := 0) ?_
    rfl
  case built =>
    cbv
    rfl
  case alone =>
    cbv
    rfl
  case told => exact List.mem_cons_self
  case untold => simp [Findings.problems]

end Examples

end Crossing
