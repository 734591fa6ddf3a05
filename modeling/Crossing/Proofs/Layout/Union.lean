import Crossing.Proofs.Layout.Tight

/-!
# Unions are laid out as in C

The layout of a union is that of a struct of the tag and of a C union with one struct for each
variant (`union_as_struct`). The engine places the fields of a variant at the offset of the payloads
and takes the size from a run at zero. That both are one layout, moved, is `place_add`: the offset
is a multiple of the largest alignment, and of two powers of two one divides the other.
-/

namespace Crossing

namespace Layout

/-- A variant whose payload is a record of its fields, moved to an offset. -/
structure VariantAsRecord (w : WordSize) (offset : Int) (declared : Variant InterfaceType)
    (v : VariantLayout) : Prop where
  name : v.name = declared.name
  tag : v.tag = declared.tag
  payloadOffset : v.payloadOffset = offset
  payload : ∀ recordName, ∃ r, LayoutEngine.Gives w (.record recordName declared.fields) r
    ∧ v.payloadSize = r.size ∧ v.payloadAlign = r.align ∧ v.fields = r.fields.map (·.shift offset)

/-- A union that is a struct of the tag and, at an offset behind it, of one record for each
variant. A union without variants is as large as if it had one without fields. -/
structure UnionAsStruct (w : WordSize) (declared : List (Variant InterfaceType)) (l : Layout)
    (tag : TagLayout) (align offset : Int) : Prop where
  tag_eq : l.tag = some tag
  tag_layout : tagLayout (declared.map (·.tag)) = .ok tag
  tag_first : tag.offset = 0
  largest : IsGreatest ({1} ∪ {a | ∃ v ∈ l.variants, v.payloadAlign = a}) align
  offset_least : IsLeast {n | align ∣ n ∧ tag.width ≤ n} offset
  variants : List.Forall₂ (VariantAsRecord w offset) declared l.variants
  align_eq : l.align = max tag.width align
  size_least : IsLeast {n | l.align ∣ n ∧ (∀ v ∈ l.variants, offset + v.payloadSize ≤ n)
    ∧ (l.variants = [] → offset ≤ n)} l.size

theorem isGreatest_payloadAlign (variants : List (Variant Layout)) :
    IsGreatest ({1} ∪ {a | ∃ v ∈ variants, runAlign v.fields = a}) (payloadAlign variants) := by
  induction variants with
  | nil => exact ⟨.inl rfl, by rintro a (rfl | ⟨v, hv, -⟩) <;> simp_all [payloadAlign]⟩
  | cons v vs ih =>
    obtain ⟨hmem, hupper⟩ := ih
    rw [payloadAlign]
    refine ⟨?_, ?_⟩
    · rcases Int.le_total (runAlign v.fields) (payloadAlign vs) with hle | hle
      · rw [Int.max_eq_right hle]
        rcases hmem with hone | ⟨u, hu, hua⟩
        · exact .inl hone
        · exact .inr ⟨u, .tail _ hu, hua⟩
      · rw [Int.max_eq_left hle]
        exact .inr ⟨v, List.mem_cons_self, rfl⟩
    · rintro a (rfl | ⟨u, hu, rfl⟩)
      · exact Int.le_trans (hupper (.inl rfl)) (Int.le_max_right _ _)
      · rcases List.mem_cons.1 hu with rfl | hu
        · exact Int.le_max_left _ _
        · exact Int.le_trans (hupper (.inr ⟨u, hu, rfl⟩)) (Int.le_max_right _ _)

theorem add_payloadSize_le_iff {variants : List (Variant Layout)} {offset n : Int} :
    offset + payloadSize variants ≤ n ↔
      (∀ v ∈ variants, offset + runSize v.fields ≤ n) ∧ (variants = [] → offset ≤ n) := by
  constructor
  · intro h
    refine ⟨fun v hv => ?_, ?_⟩
    · have := runSize_le_payloadSize hv
      omega
    · rintro rfl
      simpa [payloadSize, greatestOf] using h
  · rintro ⟨hall, hempty⟩
    cases variants with
    | nil => simpa [payloadSize, greatestOf] using hempty rfl
    | cons v vs =>
      have hroom : ∀ u ∈ v :: vs, runSize u.fields < n - offset + 1 := fun u hu => by
        have := hall u hu
        omega
      have hlt : payloadSize (v :: vs) < n - offset + 1 :=
        foldl_max_lt (hroom v List.mem_cons_self)
          (List.forall_mem_map.2 fun u hu => hroom u (.tail _ hu))
      omega

section Union

variable {w : WordSize} {vs : List (Variant InterfaceType)} {variants : List (Variant Layout)}
  {tag : TagLayout} (hp : ∀ v ∈ variants, ∀ p ∈ v.fields, p.type.Proper)
  (hall : List.Forall₂ (InterfaceType.VariantLaidOut w) vs variants)
include hp hall

/-- At an offset that all alignments divide, a payload is a record that was moved there. -/
theorem variantAsRecord_variantAt {offset : Int}
    (hdvd : ∀ v ∈ variants, runAlign v.fields ∣ offset) :
    List.Forall₂ (VariantAsRecord w offset) vs (variants.map (variantAt offset)) := by
  induction hall with
  | nil => exact .nil
  | @cons u v vs variants h _ ih =>
    have hshift := place_add (fun p h => (hp v List.mem_cons_self p h).align)
      (hdvd v List.mem_cons_self) 0
    rw [Int.add_zero] at hshift
    refine .cons ⟨h.1, h.2.1, rfl, fun name => ?_⟩
      (ih (fun x hx => hp x (.tail _ hx)) fun x hx => hdvd x (.tail _ hx))
    have hgives := LayoutEngine.gives_iff.2 (InterfaceType.layoutOf_record_of_laidOut name h.2.2)
    exact ⟨_, hgives, rfl, rfl, hshift⟩

theorem unionAsStruct_union (htag : tagLayout (vs.map (·.tag)) = .ok tag) (hzero : tag.offset = 0)
    (hwidth : IsAlignment tag.width) :
    (union tag variants).UnionAsStruct w vs tag (payloadAlign variants)
      (payloadsAt tag variants) := by
  have hpos := (isAlignment_payloadAlign hp).pos
  have hdvd : ∀ v ∈ variants, runAlign v.fields ∣ payloadsAt tag variants := fun v hv =>
    Int.dvd_trans (dvd_payloadAlign hp hv) (dvd_alignUp hpos _)
  refine ⟨rfl, htag, hzero, ?_, ?_, variantAsRecord_variantAt hp hall hdvd, rfl, ?_⟩
  · simpa [union_variants, variantAt] using isGreatest_payloadAlign variants
  · simpa [payloadsAt, hzero] using isLeast_alignUp hpos (tag.offset + tag.width)
  · have hsize : IsLeast {n | (union tag variants).align ∣ n
        ∧ payloadsAt tag variants + payloadSize variants ≤ n} (union tag variants).size :=
      isLeast_alignUp (hwidth.max (isAlignment_payloadAlign hp)).pos _
    simpa [union_variants, variantAt, add_payloadSize_le_iff] using hsize

end Union

end Layout

open Layout InterfaceType

/-- The engine lays a union out as a struct of its tag and a union of the records of its
variants. -/
theorem union_as_struct (w : WordSize) (queries : List InterfaceType) (name : String)
    (vs : List (Variant InterfaceType)) (h : (taggedUnion name vs).PowerSized) :
    ((∃ issued, ((LayoutEngine.after w queries).layoutOf (taggedUnion name vs)).1 = .ok issued)
        ↔ (taggedUnion name vs).Representable) ∧
      ∀ issued, ((LayoutEngine.after w queries).layoutOf (taggedUnion name vs)).1 = .ok issued →
        ∃ tag align offset, issued.layout.UnionAsStruct w vs tag align offset := by
  refine ⟨h.exists_issued_iff queries, fun issued hissued => ?_⟩
  have hlayout := LayoutEngine.layoutOf_of_issued hissued
  have hregular := h.regular hlayout
  obtain ⟨tag, variants, htag, hvariants, hunion⟩ := union_of_layoutOf hlayout
  have hall := variantLaidOut_of_layoutOfVariants hvariants
  obtain ⟨hp, -⟩ := proper_of_variantLaidOut (fun v hv f hf => exists_proper w f.type
    (hregular.of_placed (List.mem_flatMap.2 ⟨v, hv, List.mem_map_of_mem hf⟩))) hall
  obtain ⟨hzero, -, width, hwidth, ⟨hmem, -⟩, -⟩ := isLeast_of_tagLayout htag
  rw [hunion]
  exact ⟨_, _, _, unionAsStruct_union hp hall htag hzero (hwidth ▸ .of_width hmem)⟩

section Examples

/-- Variants with payloads of different alignments, and a tag that takes two bytes. -/
def marks : List (Variant InterfaceType) :=
  [⟨"Blank", 0, []⟩, ⟨"Dot", 1, [⟨"radius", .float 32⟩]⟩,
    ⟨"Word", 300, [⟨"mark", .int 8 false⟩, ⟨"text", .text .utf8 .owned⟩]⟩]

theorem powerSized_marks : (taggedUnion "Mark" marks).PowerSized := by
  have hbyte : (int 8 false).Regular := regular_of_placed_eq_nil rfl fun _ => ⟨0, rfl⟩
  have hfloat : (float 32).Regular := regular_of_placed_eq_nil rfl fun _ => ⟨2, rfl⟩
  have htext : (text .utf8 .owned).Regular := regular_of_placed_eq_nil rfl trivial
  have hregular : (taggedUnion "Mark" marks).Regular :=
    regular_iff.2 ⟨.inl (by decide), by simp [marks, placed, hbyte, hfloat, htext]⟩
  exact (regular_iff_powerSized.1 hregular).1

theorem union_as_struct_marks :
    (taggedUnion "Mark" marks).PowerSized ∧
      ∃ issued, ((LayoutEngine.after .bits64 []).layoutOf (taggedUnion "Mark" marks)).1
          = .ok issued
        ∧ issued.layout.size = 32
        ∧ ∃ tag align offset, issued.layout.UnionAsStruct .bits64 marks tag align offset := by
  have hsized := powerSized_marks
  exact ⟨hsized, _, rfl, rfl, (union_as_struct .bits64 [] "Mark" marks hsized).2 _ rfl⟩

end Examples

end Crossing
