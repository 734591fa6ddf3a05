import Crossing.Layout.Engine
import Crossing.Proofs.InterfaceType.Parts
import Crossing.Proofs.Layout.Run
import Crossing.Proofs.Layout.Tag

/-!
# Proper layouts

A layout is proper when its alignment is a power of two and its size a multiple of that, and this is
all that the layout of a whole needs from its parts. Where everything that a type places fits, the
rule succeeds with a proper layout (`exists_proper`), and its size is not negative unless an array
has a negative length. The induction is over what a type places: fields are laid out one by one
(`exists_layoutOfFields`), and each constructor of layouts keeps what its parts have
(`Proper.array`, `proper_record`, `proper_union`).
-/

namespace Crossing

namespace InterfaceType

/-- What the rule asks of a single type: a primitive has a power of two for a size, unless it is the
unit, and the tags of a union fit 64 bits. -/
def Fits : InterfaceType → Prop
  | .primitive k b _ => k ≠ .unit → IsAlignment (max 1 (b / 8))
  | .taggedUnion _ vs => TagsFit (vs.map (·.tag))
  | _ => True

/-- Everything that the type places fits. -/
def Regular (t : InterfaceType) : Prop := ∀ u, t.Places u → u.Fits

/-- No array that the type places has a negative length. -/
def NoNegative (t : InterfaceType) : Prop := ∀ e h n, t.Places (.array e h n) → 0 ≤ n

theorem regular_iff {t : InterfaceType} : t.Regular ↔ t.Fits ∧ ∀ u ∈ t.placed, u.Regular := by
  refine ⟨fun h => ⟨h t .refl, fun u hu v hv => h v (hv.head hu)⟩, fun ⟨ht, h⟩ v hv => ?_⟩
  rcases Relation.ReflTransGen.cases_head hv with rfl | ⟨u, hu, hv⟩
  · exact ht
  · exact h u hu v hv

theorem noNegative_iff {t : InterfaceType} :
    t.NoNegative ↔ (∀ e h n, t = .array e h n → 0 ≤ n) ∧ ∀ u ∈ t.placed, u.NoNegative := by
  refine ⟨fun h => ⟨fun e k n he => h e k n (he ▸ .refl), fun u hu e k n hv =>
    h e k n (hv.head hu)⟩, fun ⟨ht, h⟩ e k n hv => ?_⟩
  rcases Relation.ReflTransGen.cases_head hv with rfl | ⟨u, hu, hv⟩
  · exact ht e k n rfl
  · exact h u hu e k n hv

theorem regular_of_placed_eq_nil {t : InterfaceType} (h : t.placed = []) (hf : t.Fits) :
    t.Regular :=
  regular_iff.2 ⟨hf, by simp [h]⟩

theorem noNegative_of_placed_eq_nil {t : InterfaceType} (h : t.placed = []) : t.NoNegative := by
  refine noNegative_iff.2 ⟨fun e k n he => ?_, by simp [h]⟩
  rw [he] at h
  exact absurd h (List.cons_ne_nil e [])

theorem Regular.of_placed {t u : InterfaceType} (h : t.Regular) (hu : u ∈ t.placed) : u.Regular :=
  (regular_iff.1 h).2 u hu

theorem NoNegative.of_placed {t u : InterfaceType} (h : t.NoNegative) (hu : u ∈ t.placed) :
    u.NoNegative :=
  (noNegative_iff.1 h).2 u hu

end InterfaceType

namespace Layout

/-- A power of two for the alignment, and a multiple of it for the size. -/
structure Proper (l : Layout) : Prop where
  align : IsAlignment l.align
  dvd_size : l.align ∣ l.size

section Simple

theorem isAlignment_bytes (w : WordSize) : IsAlignment w.bytes := by
  cases w
  · exact ⟨2, rfl⟩
  · exact ⟨3, rfl⟩

theorem proper_word (w : WordSize) : (word w).Proper :=
  ⟨isAlignment_bytes w, Int.dvd_refl _⟩

theorem proper_wordPair (w : WordSize) : (wordPair w).Proper :=
  ⟨isAlignment_bytes w, Int.dvd_mul_left _ _⟩

theorem proper_primitive {k : PrimitiveKind} {b : Int}
    (h : k ≠ .unit → IsAlignment (max 1 (b / 8))) : (primitive k b).Proper := by
  cases k with
  | unit => exact ⟨isAlignment_one, Int.dvd_zero _⟩
  | int | float | bool | char => exact ⟨h (by simp), Int.dvd_refl _⟩

theorem primitive_size_nonneg (k : PrimitiveKind) (b : Int) : 0 ≤ (primitive k b).size := by
  cases k with
  | unit => exact Int.le_refl _
  | int | float | bool | char => exact Int.le_trans (by decide) (Int.le_max_left 1 (b / 8))

theorem Proper.array {l : Layout} (h : l.Proper) (n : Int) : (l.array n).Proper :=
  ⟨h.align, Int.dvd_trans (dvd_alignUp h.align.pos _) (Int.dvd_mul_right _ _)⟩

theorem Proper.array_size_nonneg {l : Layout} (h : l.Proper) {n : Int} (hl : 0 ≤ l.size)
    (hn : 0 ≤ n) : 0 ≤ (l.array n).size :=
  Int.mul_nonneg (Int.le_trans hl (le_alignUp h.align.pos _)) hn

end Simple

section Record

variable {parts : List (Field Layout)} (hp : ∀ p ∈ parts, p.type.Proper)
include hp

theorem proper_record : (record parts).Proper := by
  have ha := isAlignment_runAlign fun p h => (hp p h).align
  exact ⟨ha, dvd_alignUp ha.pos _⟩

theorem runEnd_le_runSize : runEnd 0 parts ≤ runSize parts :=
  le_alignUp (isAlignment_runAlign fun p h => (hp p h).align).pos _

theorem runSize_nonneg (hs : ∀ p ∈ parts, 0 ≤ p.type.size) : 0 ≤ runSize parts := by
  refine Int.le_trans ?_ (runEnd_le_runSize hp)
  rw [← lastEnd_place]
  exact (follows_place (fun p h => (hp p h).align) 0).le_lastEnd fun f hf =>
    size_nonneg_of_mem_place hs hf

end Record

section Union

variable {variants : List (Variant Layout)} {v : Variant Layout}

theorem runSize_le_payloadSize (hv : v ∈ variants) : runSize v.fields ≤ payloadSize variants :=
  le_greatestOf (List.mem_map_of_mem hv)

theorem payloadSize_nonneg (h : ∀ v ∈ variants, 0 ≤ runSize v.fields) :
    0 ≤ payloadSize variants := by
  cases variants with
  | nil => exact Int.le_refl 0
  | cons v vs => exact Int.le_trans (h v List.mem_cons_self) (runSize_le_payloadSize (by simp))

variable (hp : ∀ v ∈ variants, ∀ p ∈ v.fields, p.type.Proper)
include hp

theorem isAlignment_payloadAlign : IsAlignment (payloadAlign variants) := by
  induction variants with
  | nil => exact isAlignment_one
  | cons v vs ih =>
    have hv := isAlignment_runAlign fun p h => (hp v List.mem_cons_self p h).align
    exact hv.max (ih fun u hu => hp u (List.mem_cons_of_mem _ hu))

theorem dvd_payloadAlign (hv : v ∈ variants) : runAlign v.fields ∣ payloadAlign variants := by
  induction variants with
  | nil => simp at hv
  | cons u vs ih =>
    have hu := isAlignment_runAlign fun p h => (hp u List.mem_cons_self p h).align
    have hps : ∀ w ∈ vs, ∀ p ∈ w.fields, p.type.Proper := fun w hw =>
      hp w (List.mem_cons_of_mem _ hw)
    rcases List.mem_cons.1 hv with rfl | hv
    · exact hu.dvd_max_left (isAlignment_payloadAlign hps)
    · exact Int.dvd_trans (ih hps hv) (hu.dvd_max_right (isAlignment_payloadAlign hps))

variable {tag : TagLayout} (ht : IsAlignment tag.width)
include ht

theorem proper_union : (union tag variants).Proper := by
  have ha := ht.max (isAlignment_payloadAlign hp)
  exact ⟨ha, dvd_alignUp ha.pos _⟩

/-- Behind the offset of the payloads the union has room for every payload. -/
theorem offset_add_le_union_size :
    alignUp (tag.offset + tag.width) (payloadAlign variants) + payloadSize variants
      ≤ (union tag variants).size :=
  le_alignUp (ht.max (isAlignment_payloadAlign hp)).pos _

theorem union_size_nonneg (h0 : tag.offset = 0) (h : ∀ v ∈ variants, 0 ≤ runSize v.fields) :
    0 ≤ (union tag variants).size := by
  have hoffset := le_alignUp (isAlignment_payloadAlign hp).pos (tag.offset + tag.width)
  have hwidth := ht.pos
  have hsize := payloadSize_nonneg h
  have := offset_add_le_union_size hp ht
  omega

end Union

end Layout

namespace InterfaceType

open Layout

variable {w : WordSize}

/-- A field and the layout that the rule gives its type. -/
def LaidOut (w : WordSize) (f : Field InterfaceType) (p : Field Layout) : Prop :=
  p.name = f.name ∧ f.type.layoutOf w = .ok p.type

/-- A variant and the layouts that the rule gives its fields. -/
def VariantLaidOut (w : WordSize) (v : Variant InterfaceType) (p : Variant Layout) : Prop :=
  p.name = v.name ∧ p.tag = v.tag ∧ List.Forall₂ (LaidOut w) v.fields p.fields

theorem exists_layoutOfFields : ∀ {fs : List (Field InterfaceType)},
    (∀ f ∈ fs, ∃ l, f.type.layoutOf w = .ok l) →
      ∃ parts, layoutOfFields w fs = .ok parts ∧ List.Forall₂ (LaidOut w) fs parts
  | [], _ => ⟨[], rfl, .nil⟩
  | ⟨name, t⟩ :: fs, h => by
    obtain ⟨l, hl⟩ := h ⟨name, t⟩ List.mem_cons_self
    obtain ⟨rest, hrest, hall⟩ :=
      exists_layoutOfFields fun f hf => h f (List.mem_cons_of_mem _ hf)
    refine ⟨⟨name, l⟩ :: rest, ?_, .cons ⟨rfl, hl⟩ hall⟩
    rw [layoutOfFields, hl, hrest]
    rfl

theorem exists_layoutOfVariants : ∀ {vs : List (Variant InterfaceType)},
    (∀ v ∈ vs, ∀ f ∈ v.fields, ∃ l, f.type.layoutOf w = .ok l) →
      ∃ parts, layoutOfVariants w vs = .ok parts ∧ List.Forall₂ (VariantLaidOut w) vs parts
  | [], _ => ⟨[], rfl, .nil⟩
  | ⟨name, tag, fs⟩ :: vs, h => by
    obtain ⟨parts, hparts, hfields⟩ := exists_layoutOfFields (h ⟨name, tag, fs⟩ List.mem_cons_self)
    obtain ⟨rest, hrest, hall⟩ :=
      exists_layoutOfVariants fun v hv => h v (List.mem_cons_of_mem _ hv)
    refine ⟨⟨name, tag, parts⟩ :: rest, ?_, .cons ⟨rfl, rfl, hfields⟩ hall⟩
    rw [layoutOfVariants, hparts, hrest]
    rfl

/-- The rule succeeds on the type with a proper layout, whose size is not negative where no array
has a negative length. -/
def HasProper (w : WordSize) (t : InterfaceType) : Prop :=
  ∃ l, t.layoutOf w = .ok l ∧ l.Proper ∧ (t.NoNegative → 0 ≤ l.size)

theorem HasProper.exists_layout {t : InterfaceType} (h : t.HasProper w) :
    ∃ l, t.layoutOf w = .ok l := by
  obtain ⟨l, hl, -⟩ := h
  exact ⟨l, hl⟩

/-- Where every field has a proper layout, the layouts given to the fields are those. -/
theorem proper_of_laidOut {fs : List (Field InterfaceType)} {parts : List (Field Layout)}
    (h : ∀ f ∈ fs, f.type.HasProper w) (hall : List.Forall₂ (LaidOut w) fs parts) :
    (∀ p ∈ parts, p.type.Proper) ∧
      ((∀ f ∈ fs, f.type.NoNegative) → ∀ p ∈ parts, 0 ≤ p.type.size) := by
  have hone : ∀ p ∈ parts, ∃ f ∈ fs, p.type.Proper ∧ (f.type.NoNegative → 0 ≤ p.type.size) := by
    intro p hp
    obtain ⟨f, hf, -, hlayout⟩ := exists_of_forall₂_of_mem hall hp
    obtain ⟨l, hl, hproper⟩ := h f hf
    obtain rfl : l = p.type := Except.ok.inj (hl.symm.trans hlayout)
    exact ⟨f, hf, hproper⟩
  refine ⟨fun p hp => ?_, fun hn p hp => ?_⟩
  · obtain ⟨-, -, hproper, -⟩ := hone p hp
    exact hproper
  · obtain ⟨f, hf, -, hsize⟩ := hone p hp
    exact hsize (hn f hf)

theorem proper_of_variantLaidOut {vs : List (Variant InterfaceType)}
    {parts : List (Variant Layout)} (h : ∀ v ∈ vs, ∀ f ∈ v.fields, f.type.HasProper w)
    (hall : List.Forall₂ (VariantLaidOut w) vs parts) :
    (∀ v ∈ parts, ∀ p ∈ v.fields, p.type.Proper) ∧
      ((∀ v ∈ vs, ∀ f ∈ v.fields, f.type.NoNegative) →
        ∀ v ∈ parts, ∀ p ∈ v.fields, 0 ≤ p.type.size) := by
  refine ⟨fun v hv => ?_, fun hn v hv => ?_⟩
  · obtain ⟨u, hu, -, -, hfields⟩ := exists_of_forall₂_of_mem hall hv
    exact (proper_of_laidOut (h u hu) hfields).1
  · obtain ⟨u, hu, -, -, hfields⟩ := exists_of_forall₂_of_mem hall hv
    exact (proper_of_laidOut (h u hu) hfields).2 (hn u hu)

/-- A record whose fields have proper layouts is laid out from those. -/
theorem layoutOf_record (name : String) {fs : List (Field InterfaceType)}
    (h : ∀ f ∈ fs, f.type.HasProper w) :
    ∃ parts, (record name fs).layoutOf w = .ok (.record parts)
      ∧ List.Forall₂ (LaidOut w) fs parts ∧ (∀ p ∈ parts, p.type.Proper)
      ∧ ((record name fs).NoNegative → ∀ p ∈ parts, 0 ≤ p.type.size) := by
  obtain ⟨parts, hparts, hall⟩ := exists_layoutOfFields fun f hf => (h f hf).exists_layout
  obtain ⟨hp, hs⟩ := proper_of_laidOut h hall
  refine ⟨parts, ?_, hall, hp, fun hn => hs fun f hf => hn.of_placed (List.mem_map_of_mem hf)⟩
  rw [layoutOf, hparts]
  rfl

/-- A union whose fields have proper layouts and whose tags fit is laid out from those. -/
theorem layoutOf_taggedUnion (name : String) {vs : List (Variant InterfaceType)}
    (hfits : TagsFit (vs.map (·.tag))) (h : ∀ v ∈ vs, ∀ f ∈ v.fields, f.type.HasProper w) :
    ∃ tag parts, (taggedUnion name vs).layoutOf w = .ok (.union tag parts)
      ∧ tag.offset = 0 ∧ IsAlignment tag.width ∧ List.Forall₂ (VariantLaidOut w) vs parts
      ∧ (∀ v ∈ parts, ∀ p ∈ v.fields, p.type.Proper)
      ∧ ((taggedUnion name vs).NoNegative → ∀ v ∈ parts, ∀ p ∈ v.fields, 0 ≤ p.type.size) := by
  obtain ⟨tag, htag, hzero, hwidth⟩ := exists_tagLayout hfits
  obtain ⟨parts, hparts, hall⟩ :=
    exists_layoutOfVariants fun v hv f hf => (h v hv f hf).exists_layout
  obtain ⟨hp, hs⟩ := proper_of_variantLaidOut h hall
  refine ⟨tag, parts, ?_, hzero, hwidth, hall, hp, fun hn => hs fun v hv f hf => ?_⟩
  · rw [layoutOf, htag, hparts]
    rfl
  · exact hn.of_placed (List.mem_flatMap.2 ⟨v, hv, List.mem_map_of_mem hf⟩)

/-- Where everything that a type places fits, the type has a proper layout. -/
theorem exists_proper (w : WordSize) (t : InterfaceType) (h : t.Regular) : t.HasProper w := by
  induction t using parts_induction with
  | h t ih =>
    have hplaced : ∀ u ∈ t.placed, u.HasProper w := fun u hu =>
      ih u (mem_parts_of_mem_placed hu) (h.of_placed hu)
    have hfits := h t .refl
    clear ih
    cases t with
    | primitive k b s =>
      exact ⟨_, rfl, proper_primitive hfits, fun _ => primitive_size_nonneg k b⟩
    | pointer | function | handle =>
      exact ⟨_, rfl, proper_word w, fun _ => Int.le_of_lt (isAlignment_bytes w).pos⟩
    | buffer | text =>
      refine ⟨_, rfl, proper_wordPair w, fun _ => ?_⟩
      exact Int.mul_nonneg (by decide) (Int.le_of_lt (isAlignment_bytes w).pos)
    | array e k n =>
      obtain ⟨l, hl, hproper, hsize⟩ := hplaced e (List.mem_singleton.2 rfl)
      refine ⟨l.array n, by rw [layoutOf, hl]; rfl, hproper.array n, fun hn => ?_⟩
      have he := hsize (hn.of_placed (List.mem_singleton.2 rfl))
      exact hproper.array_size_nonneg he (hn e k n .refl)
    | record name fs =>
      obtain ⟨parts, hlayout, -, hp, hs⟩ :=
        layoutOf_record name fun f hf => hplaced _ (List.mem_map_of_mem hf)
      exact ⟨_, hlayout, proper_record hp, fun hn => runSize_nonneg hp (hs hn)⟩
    | taggedUnion name vs =>
      obtain ⟨tag, parts, hlayout, hzero, hwidth, -, hp, hs⟩ :=
        layoutOf_taggedUnion name hfits fun v hv f hf =>
          hplaced _ (List.mem_flatMap.2 ⟨v, hv, List.mem_map_of_mem hf⟩)
      refine ⟨_, hlayout, proper_union hp hwidth, fun hn => ?_⟩
      exact union_size_nonneg hp hwidth hzero fun v hv => runSize_nonneg (hp v hv) (hs hn v hv)

end InterfaceType

end Crossing
