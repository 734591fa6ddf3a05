import Crossing.Proofs.Building.Determined

/-!
# Types are put together from the types of the parts

A task yields a type exactly when each of its parts does and the types of the parts can be put
together (`yields_iff`). How they are put together (`Task.gather`) depends on what the task says
besides its parts: the labels of fields, the tags of variants, how a mention is taken.
-/

namespace Crossing.Building

variable {m : TypeModel}

/-- The type with a wrapper around it, if there is one. -/
def Wrapper.finish (w : Wrapper) (t : InterfaceType) : Option InterfaceType :=
  (w.around t).toOption.bind Findings.value?

/-- What a function returns, of the types that its result is made of. -/
def Return.gather : Return → List InterfaceType → Option (InterfaceType × Failure InterfaceType)
  | .value _, [t] => some (t, .never)
  | .fallible _ _, [t, e] => some (t, .typed e)
  | _, _ => none

/-- Fields of some types, in their order. -/
def gatherFields (fields : List NativeField) (ts : List InterfaceType) :
    List (Field InterfaceType) :=
  List.zipWith (fun f t => ⟨f.1, t⟩) (labelledFields 0 fields) ts

/-- Variants that take the types of their fields from one list, one after another. -/
def gatherVariants : List TaggedVariant → List InterfaceType → List (Variant InterfaceType)
  | [], _ => []
  | v :: vs, ts =>
    ⟨v.variant.name, v.tag, gatherFields v.variant.fields (ts.take v.variant.fields.length)⟩
      :: gatherVariants vs (ts.drop v.variant.fields.length)

/-- What is wrong with the tags of an enumeration. -/
def tagProblems (name : String) (tagged : List TaggedVariant) : List Problem :=
  tagged.flatMap (·.problems name) ++ rangeProblems name (tagged.map (·.tag))

/-- The contents of a nominal type, of the types that its declaration is made of. -/
def gatherContents (n : Nominal) (ts : List InterfaceType) : Option InterfaceType :=
  match n.declaration.body with
  | .struct fields _ => some (.record n.name (gatherFields fields ts))
  | .enumeration variants =>
    let tagged := tagVariants 0 [] variants
    if (tagProblems n.name tagged).isEmpty then
      some (.taggedUnion n.name (gatherVariants tagged ts))
    else none
  | .alias _ | .function .. | .other _ => none

/-- The type of a task, of the types of its parts. -/
def Task.gather (m : TypeModel) : Task → List InterfaceType → Option InterfaceType
  | .follow _ (.exact t), _ => some t
  | .follow _ (.refuse _), _ | .follow _ (.illFormed ..), _ => none
  | .follow _ (.wrap _ _ w), ts => ts.head?.bind w.finish
  | .follow _ (.tuple _), ts => some (Builder.tupleOf ts)
  | .follow _ (.function params ret holding), ts =>
    (ret.gather (ts.drop params.length)).map
      (Builder.functionOf holding (ts.take params.length))
  | .follow _ (.buffer _ _ holding), ts => ts.head?.map (.buffer · holding)
  | .follow s (.named n mention), ts =>
    match m.reference s n mention with
    | .refuse _ | .union [] => none
    | .handle =>
      ((m.index.handled m.graph).idxOf? n.name).map fun number : Nat => .handle number n.name
    | .alias _ | .record _ | .union (_ :: _) => ts.head?
  | .contents n, ts => gatherContents n ts

theorem Wrapper.finish_eq_some {w : Wrapper} {t u : InterfaceType} :
    w.finish t = some u ↔ w.around t = .ok (.ok u) := by
  unfold finish
  rcases w.around t with fault | ps | v <;> simp [Except.toOption, Findings.value?]

section Made

variable {α : Type} {P : α → Outcome → Prop}

theorem length_eq_of_made {made : List (α × Outcome)} {ts : List InterfaceType}
    (h : made.map (·.2) = ts.map .ok) : made.length = ts.length := by
  simpa using congrArg List.length h

theorem exists_made_of_forall₂ {as : List α} {ts : List InterfaceType}
    (h : List.Forall₂ (fun a t => P a (.ok t)) as ts) :
    ∃ made : List (α × Outcome), made.map (·.1) = as ∧ made.map (·.2) = ts.map .ok
      ∧ ∀ p ∈ made, P p.1 p.2 := by
  induction h with
  | nil => exact ⟨[], rfl, rfl, by simp⟩
  | @cons a t as ts ha _ ih =>
    obtain ⟨made, hfst, hsnd, hmade⟩ := ih
    exact ⟨(a, .ok t) :: made, by simp [hfst], by simp [hsnd], List.forall_mem_cons.2 ⟨ha, hmade⟩⟩

end Made

section Contents

variable {fields : List NativeField} {made : MadeFields} {ts : List InterfaceType}

theorem length_labelledFields (first : Nat) (fields : List NativeField) :
    (labelledFields first fields).length = fields.length := by
  simpa using congrArg List.length (map_snd_labelledFields first fields)

theorem map_type_labelledFields (first : Nat) (fields : List NativeField) :
    (labelledFields first fields).map (·.2.type) = fields.map (·.type) := by
  have htypes := congrArg (List.map NativeField.type) (map_snd_labelledFields first fields)
  rwa [List.map_map] at htypes

theorem map_type_tagVariants (variants : List NativeVariant) :
    ((tagVariants 0 [] variants).flatMap fun v => labelledFields 0 v.variant.fields).map (·.2.type)
      = variants.flatMap fun v => v.fields.map (·.type) := by
  conv_rhs => rw [← map_variant_tagVariants 0 [] variants, List.flatMap_map]
  simp only [List.map_flatMap, map_type_labelledFields]

/-- Fields are built when all their types are, and then from them. -/
theorem MadeFields.fields_eq_ok (hlabels : made.map (·.1) = labelledFields 0 fields)
    {fs : List (Field InterfaceType)} : made.fields = .ok fs ↔
      ∃ ts, made.map (·.2) = ts.map .ok ∧ gatherFields fields ts = fs := by
  simp only [MadeFields.fields, Findings.all_eq_ok, gatherFields, ← hlabels]
  clear hlabels
  induction made generalizing fs with
  | nil => simp [eq_comm]
  | cons p made ih =>
    simp only [List.map_cons]
    constructor
    · intro h
      obtain ⟨f, fs, rfl⟩ := List.exists_cons_of_ne_nil (l := fs) (by rintro rfl; simp at h)
      obtain ⟨hf, hrest⟩ := List.cons.inj h
      obtain ⟨t, ht, rfl⟩ := Findings.map_eq_ok.1 hf
      obtain ⟨ts, hts, rfl⟩ := ih.1 hrest
      exact ⟨t :: ts, by simp [ht, hts], rfl⟩
    · rintro ⟨ts, hts, rfl⟩
      obtain ⟨t, ts, rfl⟩ := List.exists_cons_of_ne_nil (l := ts) (by rintro rfl; simp at hts)
      obtain ⟨ht, hrest⟩ := List.cons.inj hts
      rw [List.zipWith_cons_cons, List.map_cons, ih.2 ⟨ts, hrest, rfl⟩, ht]
      rfl

theorem variantOf_eq_ok {name : String} {v : TaggedVariant}
    (hlabels : made.map (·.1) = labelledFields 0 v.variant.fields) {w : Variant InterfaceType} :
    variantOf name v made = .ok w ↔ v.problems name = [] ∧
      ∃ ts, made.map (·.2) = ts.map .ok
        ∧ ⟨v.variant.name, v.tag, gatherFields v.variant.fields ts⟩ = w := by
  simp only [variantOf, Findings.combine_eq_ok, Findings.ofProblems_eq_ok,
    MadeFields.fields_eq_ok hlabels]
  constructor
  · rintro ⟨-, fs, hproblems, ⟨ts, hts, rfl⟩, rfl⟩
    exact ⟨hproblems, ts, hts, rfl⟩
  · rintro ⟨hproblems, ts, hts, rfl⟩
    exact ⟨(), _, hproblems, ⟨ts, hts, rfl⟩, rfl⟩

/-- Variants are built when all types of their fields are and their tags do not clash, and then from
these types. -/
theorem variants_eq_ok {name : String} {made : List (TaggedVariant × MadeFields)}
    (hlabels : ∀ v ∈ made, v.2.map (·.1) = labelledFields 0 v.1.variant.fields)
    {vs : List (Variant InterfaceType)} :
    Findings.all (made.map fun p => variantOf name p.1 p.2) = .ok vs ↔
      ∃ ts, (made.flatMap (·.2)).map (·.2) = ts.map .ok
        ∧ (made.map (·.1)).flatMap (·.problems name) = []
        ∧ gatherVariants (made.map (·.1)) ts = vs := by
  induction made generalizing vs with
  | nil => simp [Findings.all, gatherVariants, eq_comm]
  | cons v made ih =>
    obtain ⟨hv, hrest⟩ := List.forall_mem_cons.1 hlabels
    have hlength : v.2.length = v.1.variant.fields.length := by
      simpa [length_labelledFields] using congrArg List.length hv
    simp only [List.map_cons, List.flatMap_cons, List.map_append, Findings.all,
      Findings.combine_eq_ok, variantOf_eq_ok hv, ih hrest, gatherVariants,
      List.append_eq_nil_iff]
    constructor
    · rintro ⟨w, ws, ⟨hproblems, ts, hts, rfl⟩, ⟨us, hus, hnone, rfl⟩, rfl⟩
      have hcount : ts.length = v.1.variant.fields.length := by
        rw [← hlength, length_eq_of_made hts]
      exact ⟨ts ++ us, by rw [hts, hus, List.map_append], ⟨hproblems, hnone⟩, by simp [← hcount]⟩
    · rintro ⟨ts, hts, ⟨hproblems, hnone⟩, rfl⟩
      obtain ⟨us, ws, rfl, hus, hws⟩ := List.append_eq_map_iff.1 hts
      have hcount : us.length = v.1.variant.fields.length := by
        rw [← hlength, length_eq_of_made hus.symm]
      exact ⟨_, _, ⟨hproblems, us, hus.symm, rfl⟩, ⟨ws, hws.symm, hnone, rfl⟩, by simp [← hcount]⟩

/-- What is made of all fields of some variants, by the variants. -/
theorem exists_made_of_variants {tagged : List TaggedVariant} {flat : MadeFields}
    (h : flat.map (·.1) = tagged.flatMap fun v => labelledFields 0 v.variant.fields) :
    ∃ made : List (TaggedVariant × MadeFields), made.map (·.1) = tagged
      ∧ (∀ v ∈ made, v.2.map (·.1) = labelledFields 0 v.1.variant.fields)
      ∧ made.flatMap (·.2) = flat := by
  induction tagged generalizing flat with
  | nil => exact ⟨[], rfl, by simp, by simpa using h.symm⟩
  | cons v tagged ih =>
    rw [List.flatMap_cons, List.map_eq_append_iff] at h
    obtain ⟨these, others, rfl, hthese, hothers⟩ := h
    obtain ⟨made, hfst, hlabels, rfl⟩ := ih hothers
    exact ⟨(v, these) :: made, by simp [hfst], List.forall_mem_cons.2 ⟨hthese, hlabels⟩, by simp⟩

end Contents

/-- What every part of a task yields. -/
def PartsYield (m : TypeModel) (task : Task) (ts : List InterfaceType) : Prop :=
  List.Forall₂ (fun p t => Yields m p.2 (.ok t)) (task.parts m) ts

theorem partsYield_map {α : Type} {as : List α} {f : α → Bool × Task} {ts : List InterfaceType}
    {task : Task} (hparts : task.parts m = as.map f) :
    PartsYield m task ts ↔ List.Forall₂ (fun a t => Yields m (f a).2 (.ok t)) as ts := by
  rw [PartsYield, hparts, List.forall₂_map_left_iff]

theorem partsYield_nil {task : Task} (hparts : task.parts m = []) {ts : List InterfaceType} :
    PartsYield m task ts ↔ ts = [] := by
  rw [PartsYield, hparts, List.forall₂_nil_left_iff]

theorem partsYield_singleton {task part : Task} {inPlace : Bool}
    (hparts : task.parts m = [(inPlace, part)]) {ts : List InterfaceType} :
    PartsYield m task ts ↔ ∃ t, ts = [t] ∧ Yields m part (.ok t) := by
  rw [PartsYield, hparts]
  simp only [List.forall₂_cons_left_iff, List.forall₂_nil_left_iff]
  grind

section Together

variable {s : Site} {n : Nominal} {mention : TypeExpr} {t : InterfaceType}

/-- The types of the parts can be put together to a type. -/
def Fits (m : TypeModel) (task : Task) (t : InterfaceType) : Prop :=
  ∃ ts, PartsYield m task ts ∧ task.gather m ts = some t

theorem fits_of_none {task : Task} (hparts : task.parts m = []) :
    Fits m task t ↔ task.gather m [] = some t := by
  simp only [Fits, partsYield_nil hparts, exists_eq_left]

theorem fits_of_part {task part : Task} {inPlace : Bool}
    (hparts : task.parts m = [(inPlace, part)]) :
    Fits m task t ↔ ∃ u, Yields m part (.ok u) ∧ task.gather m [u] = some t := by
  simp only [Fits, partsYield_singleton hparts]
  grind

theorem fits_of_parts {task : Task} {as : List TypeExpr} {place : Site} {scope : List String}
    (hparts : task.parts m = as.map fun e => (true, .follow place (m.recipe scope e))) :
    Fits m task t ↔ ∃ made : List (TypeExpr × Outcome), ∃ ts, made.map (·.1) = as
      ∧ (∀ p ∈ made, Yields m (.follow place (m.recipe scope p.1)) p.2)
      ∧ made.map (·.2) = ts.map .ok ∧ task.gather m ts = some t := by
  simp only [Fits, partsYield_map hparts]
  constructor
  · rintro ⟨ts, hts, hgather⟩
    obtain ⟨made, hfst, hsnd, hmade⟩ := exists_made_of_forall₂
      (P := fun e o => Yields m (.follow place (m.recipe scope e)) o) hts
    exact ⟨made, ts, hfst, hmade, hsnd, hgather⟩
  · rintro ⟨made, ts, rfl, hmade, hsnd, hgather⟩
    exact ⟨ts, forall₂_of_made (P := fun e o => Yields m (.follow place (m.recipe scope e)) o)
      hmade hsnd, hgather⟩

theorem yields_wrap_iff {via : Via} {e : TypeExpr} {w : Wrapper} :
    Yields m (.follow s (.wrap via e w)) (.ok t) ↔ Fits m (.follow s (.wrap via e w)) t := by
  rw [fits_of_part rfl]
  simp only [Task.gather, List.head?_cons, Option.bind_some, Wrapper.finish_eq_some]
  constructor
  · intro h
    cases h with
    | wrap part around => exact ⟨_, part, around⟩
  · rintro ⟨u, part, around⟩
    exact .wrap part around

theorem yields_tuple_iff {es : List TypeExpr} :
    Yields m (.follow s (.tuple es)) (.ok t) ↔ Fits m (.follow s (.tuple es)) t := by
  rw [fits_of_parts rfl]
  constructor
  · intro h
    obtain ⟨made, hfst, hmade, ho⟩ := h.of_tuple
    obtain ⟨ts, hts, rfl⟩ := Findings.map_eq_ok.1 ho.symm
    exact ⟨made, ts, hfst, hmade, Findings.all_eq_ok.1 hts, rfl⟩
  · rintro ⟨made, ts, rfl, hmade, hts, hgather⟩
    obtain rfl := Option.some.inj hgather
    have hyields := Yields.tuple hmade
    rwa [Findings.all_eq_ok.2 hts] at hyields

theorem fits_function_iff {params : List TypeExpr} {ret : Return} {holding : Holding} :
    Fits m (.follow s (.function params ret holding)) t ↔
      ∃ made : List (TypeExpr × Outcome), ∃ ps rs, made.map (·.1) = params
        ∧ (∀ p ∈ made, Yields m (.follow (s.inside .function) (m.recipe s.scope p.1)) p.2)
        ∧ made.map (·.2) = ps.map .ok
        ∧ List.Forall₂ (fun e r => Yields m (.follow (s.inside .function) (m.recipe s.scope e))
          (.ok r)) ret.types rs
        ∧ (ret.gather rs).map (Builder.functionOf holding ps) = some t := by
  let P := fun e o => Yields m (.follow (s.inside .function) (m.recipe s.scope e)) o
  have hparts : (Task.follow s (.function params ret holding)).parts m =
      (params ++ ret.types).map fun e =>
        (true, .follow (s.inside .function) (m.recipe s.scope e)) := rfl
  have hmap (ts : List InterfaceType) : PartsYield m (.follow s (.function params ret holding)) ts ↔
      List.Forall₂ (fun e t => P e (.ok t)) (params ++ ret.types) ts := partsYield_map hparts
  simp only [Fits, hmap, Task.gather]
  constructor
  · rintro ⟨ts, hts, hgather⟩
    have hparams := List.forall₂_take params.length hts
    have hret := List.forall₂_drop params.length hts
    rw [List.take_left] at hparams
    rw [List.drop_left] at hret
    obtain ⟨made, hfst, hsnd, hmade⟩ := exists_made_of_forall₂ (P := P) hparams
    exact ⟨made, _, _, hfst, hmade, hsnd, hret, hgather⟩
  · rintro ⟨made, ps, rs, rfl, hmade, hsnd, hret, hgather⟩
    have hcount : (made.map (·.1)).length = ps.length := by
      rw [List.length_map, length_eq_of_made hsnd]
    refine ⟨ps ++ rs, List.rel_append (forall₂_of_made (P := P) hmade hsnd) hret, ?_⟩
    rwa [hcount, List.drop_left, List.take_left]

theorem yields_function_iff {params : List TypeExpr} {ret : Return} {holding : Holding} :
    Yields m (.follow s (.function params ret holding)) (.ok t)
      ↔ Fits m (.follow s (.function params ret holding)) t := by
  rw [fits_function_iff]
  cases ret with
  | value e =>
    constructor
    · intro h
      obtain ⟨made, r, hfst, hmade, hresult, ho⟩ := h.of_function
      obtain ⟨ps, u, hps, rfl, rfl⟩ := Builder.signatureOf_value_eq_ok.1 ho.symm
      exact ⟨made, ps, [u], hfst, hmade, hps, .cons hresult .nil, rfl⟩
    · rintro ⟨made, ps, rs, rfl, hmade, hps, hret, hgather⟩
      cases hret with
      | cons hresult hnil =>
        cases hnil
        obtain rfl := Option.some.inj hgather
        exact Builder.signatureOf_value_eq_ok.2 ⟨ps, _, hps, rfl, rfl⟩ ▸ .function hmade hresult
  | fallible e error =>
    constructor
    · intro h
      obtain ⟨made, r, re, hfst, hmade, hresult, hfailure, ho⟩ := h.of_fallible
      obtain ⟨ps, u, v, hps, rfl, rfl, rfl⟩ := Builder.signatureOf_fallible_eq_ok.1 ho.symm
      exact ⟨made, ps, [u, v], hfst, hmade, hps, .cons hresult (.cons hfailure .nil), rfl⟩
    · rintro ⟨made, ps, rs, rfl, hmade, hps, hret, hgather⟩
      cases hret with
      | cons hresult hrest =>
        cases hrest with
        | cons hfailure hnil =>
          cases hnil
          obtain rfl := Option.some.inj hgather
          exact Builder.signatureOf_fallible_eq_ok.2 ⟨ps, _, _, hps, rfl, rfl, rfl⟩ ▸
            .fallible hmade hresult hfailure
  | malformed problem =>
    refine iff_of_false (fun h => ?_) ?_
    · obtain ⟨made, -, -, ho⟩ := h.of_malformed
      exact Builder.signatureOf_malformed_ne_ok ho.symm
    · rintro ⟨-, ps, rs, -, -, -, -, hgather⟩
      simp [Return.gather] at hgather

theorem yields_named_iff :
    Yields m (.follow s (.named n mention)) (.ok t) ↔ Fits m (.follow s (.named n mention)) t := by
  rcases href : m.reference s n mention with problem | _ | target | fields | _ | ⟨v, vs⟩
  · rw [fits_of_none (by simp [Task.parts, href])]
    refine iff_of_false (fun h => ?_) (by simp [Task.gather, href])
    cases h <;> simp_all
  · rw [fits_of_none (by simp [Task.parts, href])]
    simp only [Task.gather, href, Option.map_eq_some_iff]
    constructor
    · intro h
      cases h <;> simp_all
    · rintro ⟨number, hnumber, rfl⟩
      exact .handle href hnumber
  · rw [fits_of_part (by simp only [Task.parts, href]; rfl)]
    simp only [Task.gather, href, List.head?_cons, Option.some.injEq, exists_eq_right]
    constructor
    · intro h
      cases h <;> simp_all
    · exact .opened href
  · rw [fits_of_part (by simp only [Task.parts, href]; rfl)]
    simp only [Task.gather, href, List.head?_cons, Option.some.injEq, exists_eq_right]
    constructor
    · intro h
      cases h <;> simp_all
    · exact .struct href
  · rw [fits_of_part (by simp only [Task.parts, href]; rfl)]
    refine iff_of_false (fun h => ?_) (by simp [Task.gather, href])
    cases h <;> simp_all
  · rw [fits_of_part (by simp only [Task.parts, href]; rfl)]
    simp only [Task.gather, href, List.head?_cons, Option.some.injEq, exists_eq_right]
    constructor
    · intro h
      cases h <;> simp_all
    · exact .enumeration href

theorem yields_record_iff {fields : List NativeField} {style : FieldStyle}
    (hbody : n.declaration.body = .struct fields style) :
    Yields m (.contents n) (.ok t) ↔ Fits m (.contents n) t := by
  have hfields : n.structFields? = some fields := by simp [Nominal.structFields?, hbody]
  have hparts : (Task.contents n).parts m = (labelledFields 0 fields).map fun f =>
      (true, .follow (m.inner n) (m.recipe n.scope f.2.type)) := by
    simp only [Task.parts, Nominal.types, hbody, ← map_type_labelledFields 0 fields, List.map_map]
    rfl
  let P := fun (f : String × NativeField) o =>
    Yields m (.follow (m.inner n) (m.recipe n.scope f.2.type)) o
  simp only [Fits, partsYield_map hparts, Task.gather, gatherContents, hbody, Option.some.injEq]
  constructor
  · intro h
    obtain ⟨made, hlabels, hmade, ho⟩ := h.of_record hfields
    obtain ⟨fs, hfs, rfl⟩ := Findings.map_eq_ok.1 ho.symm
    obtain ⟨ts, hts, rfl⟩ := (MadeFields.fields_eq_ok hlabels).1 hfs
    exact ⟨ts, hlabels ▸ forall₂_of_made (P := P) hmade hts, rfl⟩
  · rintro ⟨ts, hts, rfl⟩
    obtain ⟨made, hlabels, hsnd, hmade⟩ := exists_made_of_forall₂ (P := P) hts
    have hyields := Yields.record hfields hlabels hmade
    rwa [(MadeFields.fields_eq_ok hlabels).2 ⟨ts, hsnd, rfl⟩] at hyields

/-- The parts of an enumeration are the fields of its variants. -/
theorem parts_enumeration {variants : List NativeVariant}
    (hbody : n.declaration.body = .enumeration variants) :
    (Task.contents n).parts m = ((tagVariants 0 [] variants).flatMap fun v =>
      labelledFields 0 v.variant.fields).map fun f =>
        (true, .follow (m.inner n) (m.recipe n.scope f.2.type)) := by
  simp only [Task.parts, Nominal.types, hbody, ← map_type_tagVariants, List.map_map]
  rfl

theorem yields_union_iff {variants : List NativeVariant}
    (hbody : n.declaration.body = .enumeration variants) :
    Yields m (.contents n) (.ok t) ↔ Fits m (.contents n) t := by
  have hparts := parts_enumeration (m := m) hbody
  let P := fun (f : String × NativeField) o =>
    Yields m (.follow (m.inner n) (m.recipe n.scope f.2.type)) o
  have hmap {made : List (TaggedVariant × MadeFields)}
      (htags : made.map (·.1) = tagVariants 0 [] variants) :
      made.map (·.1.tag) = (tagVariants 0 [] variants).map (·.tag) := by
    rw [← htags, List.map_map]
    rfl
  simp only [Fits, partsYield_map hparts, Task.gather, gatherContents, hbody, tagProblems,
    List.isEmpty_iff, List.append_eq_nil_iff, Option.ite_none_right_eq_some, Option.some.injEq]
  constructor
  · intro h
    obtain ⟨made, htags, hlabels, hmade, ho⟩ := h.of_union hbody
    obtain ⟨vs, _, hvs, hrange, rfl⟩ := Findings.combine_eq_ok.1 ho.symm
    obtain ⟨ts, hts, hproblems, rfl⟩ := (variants_eq_ok hlabels).1 hvs
    have hflat : (made.flatMap (·.2)).map (·.1)
        = (tagVariants 0 [] variants).flatMap fun v => labelledFields 0 v.variant.fields := by
      rw [List.map_flatMap, ← htags, List.flatMap_map]
      exact List.flatMap_congr hlabels
    refine ⟨ts, hflat ▸ forall₂_of_made (P := P) (fun p hp => ?_) hts, ?_, by rw [htags]⟩
    · obtain ⟨v, hv, hp⟩ := List.mem_flatMap.1 hp
      exact hmade v hv p hp
    · rw [hmap htags] at hrange
      exact ⟨htags ▸ hproblems, Findings.ofProblems_eq_ok.1 hrange⟩
  · rintro ⟨ts, hts, ⟨hproblems, hrange⟩, rfl⟩
    obtain ⟨flat, hflat, hsnd, hmade⟩ := exists_made_of_forall₂ (P := P) hts
    obtain ⟨made, htags, hlabels, rfl⟩ := exists_made_of_variants hflat
    have hyields := Yields.union hbody htags hlabels fun v hv p hp =>
      hmade p (List.mem_flatMap.2 ⟨v, hv, hp⟩)
    rw [← htags] at hproblems
    rwa [unionOf, (variants_eq_ok hlabels).2 ⟨ts, hsnd, hproblems, rfl⟩, hmap htags,
      (Findings.ofProblems_eq_ok (u := ())).2 hrange, htags] at hyields

theorem yields_contents_iff : Yields m (.contents n) (.ok t) ↔ Fits m (.contents n) t := by
  cases hbody : n.declaration.body with
  | struct fields style => exact yields_record_iff hbody
  | enumeration variants => exact yields_union_iff hbody
  | _ =>
    refine iff_of_false (fun h => ?_) (by simp [Fits, Task.gather, gatherContents, hbody])
    generalize (Except.ok t : Outcome) = o at h
    cases h <;> simp_all [Nominal.structFields?]

/-- A task yields a type exactly when its parts do and these types can be put together. -/
theorem yields_iff {task : Task} : Yields m task (.ok t) ↔ Fits m task t := by
  rcases task with ⟨s, r⟩ | n
  · cases r with
    | exact u =>
      rw [fits_of_none rfl, Task.gather, Option.some.injEq]
      constructor
      · rintro ⟨⟩
        rfl
      · rintro rfl
        exact .exact u
    | refuse problem => exact iff_of_false (by rintro ⟨⟩) (by simp [Fits, Task.gather])
    | illFormed parts reason => exact iff_of_false (by rintro ⟨⟩) (by simp [Fits, Task.gather])
    | wrap via e w => exact yields_wrap_iff
    | tuple es => exact yields_tuple_iff
    | function params ret holding => exact yields_function_iff
    | buffer n e holding =>
      rw [fits_of_part rfl]
      simp only [Task.gather, List.head?_cons, Option.map_some, Option.some.injEq]
      constructor
      · intro h
        generalize ho : (Except.ok t : Outcome) = o at h
        cases h with
        | buffer part =>
          obtain ⟨u, rfl, rfl⟩ := Findings.map_eq_ok.1 ho.symm
          exact ⟨u, part, rfl⟩
      · rintro ⟨u, part, rfl⟩
        exact .buffer part
    | named n mention => exact yields_named_iff
  · exact yields_contents_iff

end Together

end Crossing.Building
