import Crossing.Proofs.Layout.Checked
import Crossing.Proofs.Layout.Engine
import Crossing.Proofs.Layout.Proper

/-!
# Layouts are sound

Where everything that a type places fits, every engine answers with a sound layout
(`layoutOf_sound`): fields and payloads stand aligned, one behind the other and as their types are
laid out, and the check finds nothing. The one thing that may fail is that the whole encloses its
parts (`Closed`). It does where no array has a negative length; otherwise the size of an array goes
below zero with its length and drags the end of a record along (`not_closed_of_negative`).

For a record this is what `place` does from zero. For a union it is what `place` does from the
offset of the payloads, which is a multiple of all alignments, so that every payload ends where its
own run from zero does, shifted by the offset (`lastEnd_payload_le`).
-/

namespace Crossing

namespace Layout

/-- A field as its declaration and the layout of its type have it, at a multiple of its
alignment. -/
structure FieldSound (w : WordSize) (declared : Field InterfaceType) (f : FieldLayout) : Prop where
  name : f.name = declared.name
  own : ∃ l, declared.type.layoutOf w = .ok l ∧ f.size = l.size ∧ f.align = l.align
  aligned : f.align ∣ f.offset

/-- The fields of a record, each behind the one before it. -/
structure RecordSound (w : WordSize) (declared : List (Field InterfaceType)) (l : Layout) :
    Prop where
  fields : List.Forall₂ (FieldSound w) declared l.fields
  follows : Follows 0 l.fields
  dvd_align : ∀ f ∈ l.fields, f.align ∣ l.align

/-- A variant with its payload from an offset on, each field behind the one before it. -/
structure VariantSound (w : WordSize) (offset : Int) (declared : Variant InterfaceType)
    (v : VariantLayout) : Prop where
  name : v.name = declared.name
  tag : v.tag = declared.tag
  payloadOffset : v.payloadOffset = offset
  fields : List.Forall₂ (FieldSound w) declared.fields v.fields
  follows : Follows offset v.fields

/-- A union with its tag in front, and behind the tag one offset for all payloads. -/
def UnionSound (w : WordSize) (declared : List (Variant InterfaceType)) (l : Layout) : Prop :=
  ∃ tag offset, l.tag = some tag ∧ tag.offset = 0 ∧ tag.offset + tag.width ≤ offset
    ∧ List.Forall₂ (VariantSound w offset) declared l.variants

/-- The parts of a layout are as the type has them. -/
def PartsSound (w : WordSize) (l : Layout) : InterfaceType → Prop
  | .record _ fs => l.RecordSound w fs
  | .taggedUnion _ vs => l.UnionSound w vs
  | _ => True

/-- A proper layout with sound parts, in which the check finds no problem. -/
structure Sound (w : WordSize) (t : InterfaceType) (l : Layout) : Prop where
  proper : l.Proper
  parts : l.PartsSound w t
  noProblem : l.problems t = []

/-- The whole encloses its fields and its payloads, and the fields of a payload keep apart. -/
structure Closed (l : Layout) : Prop where
  fields : ∀ f ∈ l.fields, f.offset + f.size ≤ l.size
  payloads : ∀ v ∈ l.variants, (v.fields.Pairwise fun f g => f.offset + f.size ≤ g.offset)
    ∧ ∀ f ∈ v.fields, v.payloadOffset ≤ f.offset ∧ f.offset + f.size ≤ l.size

theorem closed_of_nil {l : Layout} (hf : l.fields = []) (hv : l.variants = []) : l.Closed :=
  ⟨by simp [hf], by simp [hv]⟩

theorem closed_wordPair (w : WordSize) : (wordPair w).Closed := by
  refine ⟨?_, by simp [wordPair]⟩
  cases w <;> decide

section Fields

variable {w : WordSize} {fs : List (Field InterfaceType)} {parts : List (Field Layout)}
  (hp : ∀ p ∈ parts, p.type.Proper)
include hp

theorem fieldSound_place (hall : List.Forall₂ (InterfaceType.LaidOut w) fs parts) (start : Int) :
    List.Forall₂ (FieldSound w) fs (place start parts) := by
  induction hall generalizing start with
  | nil => exact .nil
  | @cons f p fs parts h _ ih =>
    refine .cons ⟨h.1, ⟨p.type, h.2, rfl, rfl⟩, ?_⟩ (ih (fun q hq => hp q (.tail _ hq)) _)
    exact dvd_alignUp (hp p List.mem_cons_self).align.pos start

theorem runProblems_place (v : Option String) (start : Int) :
    runProblems v start (place start parts) = [] := by
  have ha : ∀ p ∈ parts, IsAlignment p.type.align := fun p h => (hp p h).align
  exact (runProblems_eq_nil_iff v).2
    ⟨fun f hf _ => dvd_offset_of_mem_place ha hf, follows_place ha start⟩

theorem recordSound (hall : List.Forall₂ (InterfaceType.LaidOut w) fs parts) :
    (record parts).RecordSound w fs := by
  have ha : ∀ p ∈ parts, IsAlignment p.type.align := fun p h => (hp p h).align
  refine ⟨fieldSound_place hp hall 0, follows_place ha 0, fun f hf => ?_⟩
  obtain ⟨p, hpm, -, -, halign⟩ := exists_of_mem_place hf
  exact halign ▸ dvd_runAlign ha hpm

theorem recordProblems_record : (record parts).recordProblems = [] := by
  have hend : alignUp (lastEnd 0 (place 0 parts)) (runAlign parts) = runSize parts := by
    rw [lastEnd_place]
    rfl
  exact recordProblems_eq_nil_iff.2 ⟨runProblems_place hp none 0, hend⟩

theorem problems_record (name : String) : (record parts).problems (.record name fs) = [] :=
  problems_eq_nil_iff.2 ⟨(proper_record hp).align, fun _ _ _ => recordProblems_record hp, nofun⟩

theorem closed_record (hs : ∀ p ∈ parts, 0 ≤ p.type.size) : (record parts).Closed := by
  refine ⟨fun f hf => ?_, by simp [record]⟩
  have hend := (follows_place (fun p h => (hp p h).align) 0).end_le
    (fun g hg => size_nonneg_of_mem_place hs hg) f hf
  rw [lastEnd_place] at hend
  exact Int.le_trans hend (runEnd_le_runSize hp)

end Fields

section Payloads

variable {w : WordSize} {vs : List (Variant InterfaceType)} {variants : List (Variant Layout)}
  {tag : TagLayout} (hp : ∀ v ∈ variants, ∀ p ∈ v.fields, p.type.Proper)

/-- The layout of a variant whose payload starts at an offset. -/
def variantAt (offset : Int) (v : Variant Layout) : VariantLayout :=
  { name := v.name
    tag := v.tag
    payloadOffset := offset
    payloadSize := runSize v.fields
    payloadAlign := runAlign v.fields
    fields := place offset v.fields }

/-- Where the payloads of a union start. -/
def payloadsAt (tag : TagLayout) (variants : List (Variant Layout)) : Int :=
  alignUp (tag.offset + tag.width) (payloadAlign variants)

theorem union_variants (tag : TagLayout) (variants : List (Variant Layout)) :
    (union tag variants).variants = variants.map (variantAt (payloadsAt tag variants)) := rfl

include hp

theorem variantSound_variantAt (hall : List.Forall₂ (InterfaceType.VariantLaidOut w) vs variants)
    (offset : Int) : List.Forall₂ (VariantSound w offset) vs (variants.map (variantAt offset)) := by
  induction hall with
  | nil => exact .nil
  | @cons u v vs variants h _ ih =>
    have hv := hp v List.mem_cons_self
    refine .cons ⟨h.1, h.2.1, rfl, fieldSound_place hv h.2.2 offset, ?_⟩
      (ih fun x hx => hp x (.tail _ hx))
    exact follows_place (fun p h => (hv p h).align) offset

theorem unionSound (hall : List.Forall₂ (InterfaceType.VariantLaidOut w) vs variants)
    (hzero : tag.offset = 0) : (union tag variants).UnionSound w vs :=
  ⟨tag, payloadsAt tag variants, rfl, hzero, le_alignUp (isAlignment_payloadAlign hp).pos _,
    variantSound_variantAt hp hall _⟩

/-- A payload ends inside the union. -/
theorem lastEnd_payload_le (hwidth : IsAlignment tag.width) {v : Variant Layout}
    (hv : v ∈ variants) :
    lastEnd (payloadsAt tag variants) (place (payloadsAt tag variants) v.fields)
      ≤ (union tag variants).size := by
  have hdvd : runAlign v.fields ∣ payloadsAt tag variants :=
    Int.dvd_trans (dvd_payloadAlign hp hv) (dvd_alignUp (isAlignment_payloadAlign hp).pos _)
  have hshift := runEnd_add (fun p h => (hp v hv p h).align) hdvd 0
  have hrun := runEnd_le_runSize (hp v hv)
  have hpayload := runSize_le_payloadSize hv
  have hroom : payloadsAt tag variants + payloadSize variants ≤ (union tag variants).size :=
    offset_add_le_union_size hp hwidth
  rw [lastEnd_place]
  rw [Int.add_zero] at hshift
  omega

theorem unionProblems_union (hwidth : IsAlignment tag.width) :
    (union tag variants).unionProblems = [] := by
  rw [unionProblems_eq_nil_iff, union_variants]
  refine ⟨tag, rfl, ⟨payloadsAt tag variants, ?_⟩, ?_⟩
  · exact List.forall_mem_map.2 fun v _ => rfl
  · exact List.forall_mem_map.2 fun v hv => variantProblems_eq_nil_iff.2
      ⟨le_alignUp (isAlignment_payloadAlign hp).pos _, runProblems_place (hp v hv) _ _,
        lastEnd_payload_le hp hwidth hv⟩

theorem problems_union (hwidth : IsAlignment tag.width) (name : String) :
    (union tag variants).problems (.taggedUnion name vs) = [] :=
  problems_eq_nil_iff.2
    ⟨(proper_union hp hwidth).align, nofun, fun _ _ _ => unionProblems_union hp hwidth⟩

theorem closed_union (hwidth : IsAlignment tag.width)
    (hs : ∀ v ∈ variants, ∀ p ∈ v.fields, 0 ≤ p.type.size) : (union tag variants).Closed := by
  refine ⟨by simp [union], fun l hl => ?_⟩
  obtain ⟨v, hv, rfl⟩ := List.mem_map.1 hl
  have hfollows := follows_place (fun p h => (hp v hv p h).align) (payloadsAt tag variants)
  have hsizes : ∀ f ∈ place (payloadsAt tag variants) v.fields, 0 ≤ f.size := fun f hf =>
    size_nonneg_of_mem_place (hs v hv) hf
  refine ⟨hfollows.pairwise hsizes, fun f hf => ⟨hfollows.start_le hsizes f hf, ?_⟩⟩
  exact Int.le_trans (hfollows.end_le hsizes f hf) (lastEnd_payload_le hp hwidth hv)

end Payloads

end Layout

namespace InterfaceType

open Layout

variable {w : WordSize} {t : InterfaceType}

/-- A layout needs no more than to be proper where the type is neither a record nor a union. -/
theorem sound_of_kind {l : Layout} (h : l.Proper) (hr : t.kind ≠ .record)
    (hu : t.kind ≠ .taggedUnion) : l.Sound w t := by
  refine ⟨h, ?_, problems_eq_nil_iff.2 ⟨h.align, ?_, ?_⟩⟩
  · cases t <;> trivial
  · rintro name fs rfl
    exact absurd rfl hr
  · rintro name vs rfl
    exact absurd rfl hu

/-- The rule gives a type a sound layout where everything that the type places fits. -/
theorem exists_sound (w : WordSize) (h : t.Regular) :
    ∃ l, t.layoutOf w = .ok l ∧ l.Sound w t ∧ (t.NoNegative → l.Closed) := by
  have hplaced : ∀ u ∈ t.placed, u.HasProper w := fun u hu => exists_proper w u (h.of_placed hu)
  obtain ⟨l, hl, hproper, -⟩ := exists_proper w t h
  cases t with
  | record name fs =>
    obtain ⟨parts, hlayout, hall, hp, hs⟩ :=
      layoutOf_record name fun f hf => hplaced _ (List.mem_map_of_mem hf)
    refine ⟨_, hlayout, ⟨proper_record hp, recordSound hp hall, problems_record hp name⟩, ?_⟩
    exact fun hn => closed_record hp (hs hn)
  | taggedUnion name vs =>
    obtain ⟨tag, parts, hlayout, hzero, hwidth, hall, hp, hs⟩ :=
      layoutOf_taggedUnion name (h _ .refl) fun v hv f hf =>
        hplaced _ (List.mem_flatMap.2 ⟨v, hv, List.mem_map_of_mem hf⟩)
    refine ⟨_, hlayout, ⟨proper_union hp hwidth, unionSound hp hall hzero,
      problems_union hp hwidth name⟩, ?_⟩
    exact fun hn => closed_union hp hwidth (hs hn)
  | array e k n =>
    obtain ⟨le, hle, -⟩ := hplaced e (List.mem_singleton.2 rfl)
    have hlayout : (array e k n).layoutOf w = .ok (le.array n) := by
      rw [layoutOf, hle]
      rfl
    obtain rfl : l = le.array n := Except.ok.inj (hl.symm.trans hlayout)
    exact ⟨_, hl, sound_of_kind hproper nofun nofun, fun _ => closed_of_nil rfl rfl⟩
  | primitive k b s =>
    obtain rfl := Except.ok.inj hl
    refine ⟨_, hl, sound_of_kind hproper nofun nofun, fun _ => ?_⟩
    cases k <;> exact closed_of_nil rfl rfl
  | pointer | function | handle =>
    obtain rfl := Except.ok.inj hl
    exact ⟨_, hl, sound_of_kind hproper nofun nofun, fun _ => closed_of_nil rfl rfl⟩
  | buffer | text =>
    obtain rfl := Except.ok.inj hl
    exact ⟨_, hl, sound_of_kind hproper nofun nofun, fun _ => closed_wordPair w⟩

end InterfaceType

/-- Every engine, whatever it was asked before, answers with a sound layout where everything that
the type places fits; and the whole encloses its parts where no array has a negative length. -/
theorem layoutOf_sound (w : WordSize) (queries : List InterfaceType) (t : InterfaceType)
    (h : t.Regular) :
    ∃ issued, ((LayoutEngine.after w queries).layoutOf t).1 = .ok issued
      ∧ issued.layout.Sound w t ∧ (t.NoNegative → issued.layout.Closed) := by
  obtain ⟨l, hl, hsound⟩ := InterfaceType.exists_sound w h
  have hengine := LayoutEngine.layoutOf_after w queries t
  rw [hl] at hengine
  rcases hr : ((LayoutEngine.after w queries).layoutOf t).1 with e | issued <;> rw [hr] at hengine
  · simp [Except.map] at hengine
  · obtain rfl : issued.layout = l := Except.ok.inj hengine
    exact ⟨issued, rfl, hsound⟩

section Examples

open InterfaceType

/-- A record of a byte, an array, a text and a union. -/
def packet : InterfaceType :=
  .record "Packet" [⟨"tag", .int 8 false⟩, ⟨"words", .array (.int 16 false) .value 3⟩,
    ⟨"name", .text .utf8 .owned⟩,
    ⟨"weight", .taggedUnion "Option" [⟨"None", 0, []⟩, ⟨"Some", 1, [⟨"0", .float 64⟩]⟩]⟩]

theorem regular_packet : packet.Regular := by
  have hbyte : (int 8 false).Regular := regular_of_placed_eq_nil rfl fun _ => ⟨0, rfl⟩
  have hword : (int 16 false).Regular := regular_of_placed_eq_nil rfl fun _ => ⟨1, rfl⟩
  have hfloat : (float 64).Regular := regular_of_placed_eq_nil rfl fun _ => ⟨3, rfl⟩
  have htext : (text .utf8 .owned).Regular := regular_of_placed_eq_nil rfl trivial
  have hwords : (array (int 16 false) .value 3).Regular :=
    regular_iff.2 ⟨trivial, by simpa [placed] using hword⟩
  have hweight :
      (taggedUnion "Option" [⟨"None", 0, []⟩, ⟨"Some", 1, [⟨"0", float 64⟩]⟩]).Regular :=
    regular_iff.2 ⟨.inl (by decide), by simpa [placed] using hfloat⟩
  exact regular_iff.2 ⟨trivial, by simp [packet, placed, hbyte, hwords, htext, hweight]⟩

theorem noNegative_packet : packet.NoNegative := by
  have hleaf : ∀ {t : InterfaceType}, t.placed = [] → t.NoNegative := noNegative_of_placed_eq_nil
  have hwords : (array (int 16 false) .value 3).NoNegative :=
    noNegative_iff.2 ⟨by simp, by simpa [placed] using hleaf rfl⟩
  have hweight :
      (taggedUnion "Option" [⟨"None", 0, []⟩, ⟨"Some", 1, [⟨"0", float 64⟩]⟩]).NoNegative :=
    noNegative_iff.2 ⟨by simp, by simpa [placed] using hleaf rfl⟩
  refine noNegative_iff.2 ⟨by simp [packet], ?_⟩
  simp only [packet, placed, List.map, List.forall_mem_cons]
  exact ⟨hleaf rfl, hwords, hleaf rfl, hweight, by simp⟩

theorem layoutOf_sound_packet :
    packet.Regular ∧ packet.NoNegative ∧
      ∃ issued, ((LayoutEngine.after .bits32 [packet, .unit]).layoutOf packet).1 = .ok issued
        ∧ issued.layout.Sound .bits32 packet ∧ issued.layout.Closed := by
  obtain ⟨issued, hissued, hsound, hclosed⟩ :=
    layoutOf_sound .bits32 [packet, .unit] packet regular_packet
  exact ⟨regular_packet, noNegative_packet, issued, hissued, hsound, hclosed noNegative_packet⟩

/-- A record with an array of a negative length behind its first field. -/
def negative : InterfaceType :=
  .record "R" [⟨"a", .int 32 false⟩, ⟨"b", .array (.int 32 false) .value (-3)⟩]

/-- The record gets a size below zero, so that its first field ends outside. -/
theorem not_closed_of_negative :
    negative.Regular ∧
      ∃ issued, ((LayoutEngine.after .bits64 []).layoutOf negative).1 = .ok issued
        ∧ issued.layout.size = -8
        ∧ ∃ f ∈ issued.layout.fields, issued.layout.size < f.offset + f.size := by
  have hword : (int 32 false).Regular := regular_of_placed_eq_nil rfl fun _ => ⟨2, rfl⟩
  have hwords : (array (int 32 false) .value (-3)).Regular :=
    regular_iff.2 ⟨trivial, by simpa [placed] using hword⟩
  refine ⟨regular_iff.2 ⟨trivial, by simp [negative, placed, hword, hwords]⟩, _, rfl, rfl, ?_⟩
  exact ⟨⟨"a", 0, 4, 4⟩, List.mem_cons_self, by decide⟩

end Examples

end Crossing
