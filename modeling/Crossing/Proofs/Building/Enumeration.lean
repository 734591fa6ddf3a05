import Crossing.Proofs.Building.Expression
import Crossing.Proofs.Building.Made
import Crossing.Proofs.Building.Tags

/-!
# Enumerations become unions

An enumeration whose fields all build becomes a union when it has a variant and its tags are all
different and fit 64 bits, and is refused otherwise (`enumeration_tags`). Fields that build always
lead to an outcome of the whole (`exists_yields_contents`), and the tags alone decide which.
-/

namespace Crossing

namespace Building

variable {m : TypeModel} {n : Nominal} {variants : List NativeVariant}

/-- A variant of a union and the declaration that it was built from: the same name, and every field
as its declared type builds. -/
structure VariantBuilt (m : TypeModel) (n : Nominal) (v : NativeVariant)
    (w : Variant InterfaceType) : Prop where
  name : w.name = v.name
  fields : List.Forall₂
    (fun f g => g.name = f.1 ∧ Builds m (m.inner n) f.2.type g.type)
    (labelledFields 0 v.fields) w.fields

/-- An enumeration that can be a union. -/
structure Taggable (variants : List NativeVariant) : Prop where
  inhabited : variants ≠ []
  distinct : (tagsAfter (-1) variants).Nodup
  held : TagsFit (tagsAfter (-1) variants)

theorem tagProblems_eq_nil_iff (name : String) :
    tagProblems name (tagVariants 0 [] variants) = []
      ↔ (tagsAfter (-1) variants).Nodup ∧ TagsFit (tagsAfter (-1) variants) := by
  have hclashes := clashes_eq_nil_iff name 0 [] variants
  simp only [List.map_nil, List.not_mem_nil, not_false_eq_true, implies_true, and_true] at hclashes
  rw [tagProblems, List.append_eq_nil_iff, hclashes, map_tag_tagVariants, rangeProblems_eq_nil_iff]
  rfl

section Gather

variable {P : NativeField → InterfaceType → Prop} {ts : List InterfaceType}

theorem gatherFields_built {fields : List NativeField}
    (h : List.Forall₂ (fun f t => P f.2 t) (labelledFields 0 fields) ts) :
    List.Forall₂ (fun f g => g.name = f.1 ∧ P f.2 g.type) (labelledFields 0 fields)
      (gatherFields fields ts) := by
  unfold gatherFields
  generalize labelledFields 0 fields = labelled at h
  induction h with
  | nil => exact .nil
  | cons hf _ ih => exact .cons ⟨rfl, hf⟩ ih

theorem gatherVariants_built {tagged : List TaggedVariant}
    (h : List.Forall₂ (fun f t => P f.2 t)
      (tagged.flatMap fun v => labelledFields 0 v.variant.fields) ts) :
    List.Forall₂ (fun v w => w.name = v.variant.name ∧
        List.Forall₂ (fun f g => g.name = f.1 ∧ P f.2 g.type)
          (labelledFields 0 v.variant.fields) w.fields)
      tagged (gatherVariants tagged ts) := by
  induction tagged generalizing ts with
  | nil => exact .nil
  | cons v tagged ih =>
    rw [List.flatMap_cons] at h
    have hthese := List.forall₂_take v.variant.fields.length h
    have hothers := List.forall₂_drop v.variant.fields.length h
    rw [List.take_left' (length_labelledFields 0 _)] at hthese
    rw [List.drop_left' (length_labelledFields 0 _)] at hothers
    exact .cons ⟨rfl, gatherFields_built hthese⟩ (ih hothers)

theorem map_tag_gatherVariants (tagged : List TaggedVariant) (ts : List InterfaceType) :
    (gatherVariants tagged ts).map (·.tag) = tagged.map (·.tag) := by
  induction tagged generalizing ts with
  | nil => rfl
  | cons v tagged ih => exact congrArg (v.tag :: ·) (ih _)

end Gather

section Contents

/-- What the fields of some variants yield, in their order. -/
def FieldsYield (m : TypeModel) (n : Nominal) (variants : List NativeVariant)
    (ts : List InterfaceType) : Prop :=
  List.Forall₂ (fun f t => Yields m (.follow (m.inner n) (m.recipe n.scope f.2.type)) (.ok t))
    ((tagVariants 0 [] variants).flatMap fun v => labelledFields 0 v.variant.fields) ts

theorem exists_fieldsYield (h : ∀ v ∈ variants, ∀ f ∈ v.fields,
    ∃ t, Yields m (.follow (m.inner n) (m.recipe n.scope f.type)) (.ok t)) :
    ∃ ts, FieldsYield m n variants ts := by
  have hall : ∀ f ∈ (tagVariants 0 [] variants).flatMap fun v => labelledFields 0 v.variant.fields,
      ∃ t, Yields m (.follow (m.inner n) (m.recipe n.scope f.2.type)) (.ok t) := by
    intro f hf
    obtain ⟨v, hv, hf⟩ := List.mem_flatMap.1 hf
    exact h v.variant (mem_of_mem_tagVariants hv) f.2 (mem_of_mem_labelledFields hf)
  choose! type htype using hall
  exact ⟨_, List.forall₂_map_right_iff.2 (List.forall₂_same.2 htype)⟩

variable (hbody : n.declaration.body = .enumeration variants) {ts : List InterfaceType}
include hbody

theorem exists_yields_contents (h : FieldsYield m n variants ts) :
    ∃ o, Yields m (.contents n) o := by
  obtain ⟨flat, hflat, -, hmade⟩ := exists_made_of_forall₂
    (P := fun (f : String × NativeField) o =>
      Yields m (.follow (m.inner n) (m.recipe n.scope f.2.type)) o) h
  obtain ⟨made, htags, hlabels, rfl⟩ := exists_made_of_variants hflat
  exact ⟨_, .union hbody htags hlabels fun v hv p hp =>
    hmade p (List.mem_flatMap.2 ⟨v, hv, hp⟩)⟩

theorem yields_contents_ok_iff {t : InterfaceType} :
    Yields m (.contents n) (.ok t) ↔
      ((tagsAfter (-1) variants).Nodup ∧ TagsFit (tagsAfter (-1) variants)) ∧
        ∃ ts, FieldsYield m n variants ts
          ∧ t = .taggedUnion n.name (gatherVariants (tagVariants 0 [] variants) ts) := by
  rw [yields_contents_iff, ← tagProblems_eq_nil_iff n.name]
  simp only [Fits, partsYield_map (parts_enumeration hbody), Task.gather, gatherContents, hbody,
    List.isEmpty_iff, FieldsYield]
  grind

end Contents

section Mention

variable {s : Site} {mention : TypeExpr} {ts : List InterfaceType}
  (href : m.reference s n mention = .union variants) (hfields : FieldsYield m n variants ts)
include href

theorem yields_enumeration_ok_iff {t : InterfaceType} :
    Yields m (.follow s (.named n mention)) (.ok t) ↔ Taggable variants ∧
      ∃ ts, FieldsYield m n variants ts
        ∧ t = .taggedUnion n.name (gatherVariants (tagVariants 0 [] variants) ts) := by
  have hcontents := yields_contents_ok_iff (m := m) (t := t) (TypeModel.variants_of_reference href)
  constructor
  · intro h
    have hwhole : variants ≠ [] ∧ Yields m (.contents n) (.ok t) := by
      cases h <;> simp_all
      exact href ▸ List.cons_ne_nil _ _
    obtain ⟨⟨hdistinct, hheld⟩, htypes⟩ := hcontents.1 hwhole.2
    exact ⟨⟨hwhole.1, hdistinct, hheld⟩, htypes⟩
  · rintro ⟨⟨hne, hdistinct, hheld⟩, htypes⟩
    obtain ⟨v, vs, rfl⟩ := List.exists_cons_of_ne_nil hne
    exact .enumeration href (hcontents.2 ⟨⟨hdistinct, hheld⟩, htypes⟩)

include hfields

theorem exists_yields_enumeration : ∃ o, Yields m (.follow s (.named n mention)) o := by
  obtain ⟨o, ho⟩ := exists_yields_contents (TypeModel.variants_of_reference href) hfields
  rcases variants with _ | ⟨v, vs⟩
  · exact ⟨_, .emptyEnumeration href⟩
  · exact ⟨o, .enumeration href ho⟩

end Mention

theorem variantBuilt_gather (hnodup : m.index.names.Nodup) {ts : List InterfaceType}
    (h : FieldsYield m n variants ts) :
    List.Forall₂ (VariantBuilt m n) variants
      (gatherVariants (tagVariants 0 [] variants) ts) := by
  have hbuilt := gatherVariants_built
    (P := fun f t => Yields m (.follow (m.inner n) (m.recipe n.scope f.type)) (.ok t)) h
  conv => arg 2; rw [← map_variant_tagVariants 0 [] variants]
  refine List.forall₂_map_left_iff.2 (hbuilt.imp fun v w hw => ⟨hw.1, hw.2.imp ?_⟩)
  exact fun f g hg => ⟨hg.1, (builds_iff hnodup).2 hg.2⟩

end Building

open Building

/-- A mention of an enumeration whose fields all build becomes a union when the enumeration has a
variant and its tags are all different and fit 64 bits, and otherwise it is refused. The tag of a
union has the least width that holds all values, and no width at all just where the range check
refuses them. -/
theorem enumeration_tags (module : NativeModule) (wordBits : Int) (recognizers : RecognizerSet) :
    let m := TypeModel.ofModule module wordBits recognizers
    (∀ n ∈ m.index.nominals, ∀ variants scope owner via isDeclaration mention items,
      m.reference (m.outside scope owner via isDeclaration) n mention = .union variants →
      (∀ v ∈ variants, ∀ f ∈ v.fields, ∃ t, Builds m (m.inner n) f.type t) →
      let answer := ((Builder.make m (m.outside scope owner via isDeclaration)
        (.named n mention)).run.run (Builder.after m items)).1
      ((∃ vs, answer = .ok (.ok (.taggedUnion n.name vs))) ↔ Taggable variants) ∧
        (∀ t, answer = .ok (.ok t) → ∃ vs, t = .taggedUnion n.name vs
          ∧ vs.map (·.tag) = tagsAfter (-1) variants
          ∧ List.Forall₂ (VariantBuilt m n) variants vs) ∧
        (¬ Taggable variants → ∃ ps, answer = .ok (.error ps) ∧ ps ≠ [])) ∧
    ∀ tags,
      (∀ tag, tagLayout tags = .ok tag → tag.offset = 0 ∧ tag.signed = tags.any (· < 0)
        ∧ ∃ width : Nat, tag.width = width
          ∧ IsLeast {k | k ∈ [1, 2, 4, 8] ∧ ∀ g ∈ tags, Held tag.signed k g} width) ∧
      ∀ name, rangeProblems name tags ≠ [] ↔ ∃ range, tagLayout tags = .error range := by
  intro m
  have hnodup : m.index.names.Nodup := NominalIndex.nodup_names_ofModule module
  refine ⟨?_, fun tags => ⟨fun tag => isLeast_of_tagLayout, fun name =>
    rangeProblems_ne_nil_iff_error⟩⟩
  intro n hn variants scope owner via isDeclaration mention items href hbuilds answer
  have hanswer {o : Outcome} : answer = .ok o ↔
      Yields m (.follow (m.outside scope owner via isDeclaration) (.named n mention)) o := by
    refine make_eq_ok_iff hnodup ⟨?_, by simp⟩ (Builder.faithful_after hnodup items)
    rintro _ _ ⟨⟩
    exact hn
  obtain ⟨ts, hts⟩ := exists_fieldsYield fun v hv f hf => by
    obtain ⟨t, ht⟩ := hbuilds v hv f hf
    exact ⟨t, (builds_iff hnodup).1 ht⟩
  refine ⟨⟨?_, ?_⟩, ?_, ?_⟩
  · rintro ⟨vs, hvs⟩
    exact ((yields_enumeration_ok_iff href).1 (hanswer.1 hvs)).1
  · exact fun htaggable => ⟨_, hanswer.2 ((yields_enumeration_ok_iff href).2
      ⟨htaggable, ts, hts, rfl⟩)⟩
  · intro t ht
    obtain ⟨-, ts, hts, rfl⟩ := (yields_enumeration_ok_iff href).1 (hanswer.1 ht)
    refine ⟨_, rfl, ?_, variantBuilt_gather hnodup hts⟩
    rw [map_tag_gatherVariants, map_tag_tagVariants]
    rfl
  · intro hno
    obtain ⟨o, ho⟩ := exists_yields_enumeration href hts
    rcases o with ps | t
    · exact ⟨ps, hanswer.2 ho, fun hps => ho.ne_silent (congrArg Except.error hps)⟩
    · exact absurd ((yields_enumeration_ok_iff href).1 ho).1 hno

section Examples

/-- A negative tag, the one after it, and one that leaves a gap. -/
def signals : List NativeVariant :=
  [⟨"Off", [], .unit, some (-1)⟩,
    ⟨"On", [⟨none, .ofNames ["u8"], .inherited⟩], .positional, none⟩,
    ⟨"Burst", [⟨some "count", .ofNames ["u16"], .inherited⟩], .named, some 300⟩]

def signalling : NativeModule where
  name := "crate"
  items := [⟨"Signal", .everyone, [], [], {}, .enumeration signals⟩]
  children := []
  visibility := .everyone
  span := {}

def signalModel : TypeModel := .ofModule signalling 64 .standard

def signal : Nominal where
  name := "crate::Signal"
  scope := ["crate"]
  declaration := ⟨"Signal", .everyone, [], [], {}, .enumeration signals⟩

example : tagsAfter (-1) signals = [-1, 0, 300] := rfl

theorem taggable_signals : Taggable signals :=
  ⟨by decide, by decide, .inr (by decide)⟩

theorem enumeration_tags_signals :
    signal ∈ signalModel.index.nominals
      ∧ signalModel.reference (signalModel.outside ["crate"] none .value true) signal
        (.ofNames ["Signal"]) = .union signals
      ∧ ∃ vs, ((Builder.make signalModel (signalModel.outside ["crate"] none .value true)
          (.named signal (.ofNames ["Signal"]))).run.run (Builder.after signalModel [])).1
        = .ok (.ok (.taggedUnion "crate::Signal" vs)) := by
  have hmem : signal ∈ signalModel.index.nominals := by
    refine List.mem_of_getElem? (i := 0) ?_
    rfl
  have href : signalModel.reference (signalModel.outside ["crate"] none .value true) signal
      (.ofNames ["Signal"]) = .union signals := by
    cbv
  have hnodup : signalModel.index.names.Nodup := NominalIndex.nodup_names_ofModule signalling
  have hbyte : Builds signalModel (signalModel.inner signal) (.ofNames ["u8"]) (.int 8 false) :=
    builds_of_exact hnodup (by rfl)
  have hword : Builds signalModel (signalModel.inner signal) (.ofNames ["u16"]) (.int 16 false) :=
    builds_of_exact hnodup (by rfl)
  have hfields : ∀ v ∈ signals, ∀ f ∈ v.fields,
      ∃ t, Builds signalModel (signalModel.inner signal) f.type t := by
    simp only [signals, List.forall_mem_cons]
    exact ⟨by simp, ⟨⟨_, hbyte⟩, by simp⟩, ⟨⟨_, hword⟩, by simp⟩, by simp⟩
  have hunion := (enumeration_tags signalling 64 .standard).1 signal hmem signals ["crate"] none
    .value true _ [] href hfields
  exact ⟨hmem, href, hunion.1.2 taggable_signals⟩

end Examples

end Crossing
