import Crossing.Proofs.Layout.Engine
import Crossing.Proofs.Layout.Proper
import Crossing.Proofs.Related

/-!
# Which types have a layout

Where the primitives that a type places have powers of two for their sizes, one thing alone keeps
the type from having a layout: tags, anywhere in place, that no tag can hold
(`PowerSized.exists_issued_iff`). A layout that the rule gives is made of the layouts that it gives
to the parts (`record_of_layoutOf`, `union_of_layoutOf`).
-/

namespace Crossing

namespace InterfaceType

/-- Every primitive that the type places has a power of two for its size, unless it is the unit. -/
def PowerSized (t : InterfaceType) : Prop :=
  ∀ k b s, t.Places (.primitive k b s) → k ≠ .unit → IsAlignment (max 1 (b / 8))

/-- The tags of every union that the type places fit 64 bits. -/
def Representable (t : InterfaceType) : Prop :=
  ∀ name vs, t.Places (.taggedUnion name vs) → TagsFit (vs.map (·.tag))

theorem regular_iff_powerSized {t : InterfaceType} :
    t.Regular ↔ t.PowerSized ∧ t.Representable := by
  refine ⟨fun h => ⟨fun k b s hp => h _ hp, fun name vs hp => h _ hp⟩, fun ⟨hp, hr⟩ u hu => ?_⟩
  cases u with
  | primitive k b s => exact hp k b s hu
  | taggedUnion name vs => exact hr name vs hu
  | _ => trivial

variable {w : WordSize}

theorem laidOut_of_layoutOfFields : ∀ {fs : List (Field InterfaceType)}
    {parts : List (Field Layout)}, layoutOfFields w fs = .ok parts →
      List.Forall₂ (LaidOut w) fs parts
  | [], parts, h => by
    obtain rfl : [] = parts := Except.ok.inj h
    exact .nil
  | ⟨name, t⟩ :: fs, parts, h => by
    rw [layoutOfFields] at h
    rcases ht : t.layoutOf w with e | l
    · simp [ht, bind, Except.bind] at h
    rcases hfs : layoutOfFields w fs with e | rest
    · simp [ht, hfs, bind, Except.bind] at h
    rw [ht, hfs] at h
    obtain rfl : ⟨name, l⟩ :: rest = parts := Except.ok.inj h
    exact .cons ⟨rfl, ht⟩ (laidOut_of_layoutOfFields hfs)

theorem layoutOf_record_of_laidOut (name : String) {fs : List (Field InterfaceType)}
    {parts : List (Field Layout)} (h : List.Forall₂ (LaidOut w) fs parts) :
    (record name fs).layoutOf w = .ok (.record parts) := by
  have hfields : layoutOfFields w fs = .ok parts := by
    induction h with
    | nil => rfl
    | @cons f p fs parts hf _ ih =>
      obtain ⟨name, l⟩ := p
      obtain ⟨rfl, hl⟩ := hf
      rw [layoutOfFields, hl, ih]
      rfl
  rw [layoutOf, hfields]
  rfl

theorem variantLaidOut_of_layoutOfVariants : ∀ {vs : List (Variant InterfaceType)}
    {parts : List (Variant Layout)},
    layoutOfVariants w vs = .ok parts → List.Forall₂ (VariantLaidOut w) vs parts
  | [], parts, h => by
    obtain rfl : [] = parts := Except.ok.inj h
    exact .nil
  | ⟨name, tag, fs⟩ :: vs, parts, h => by
    rw [layoutOfVariants] at h
    rcases hfs : layoutOfFields w fs with e | fields
    · simp [hfs, bind, Except.bind] at h
    rcases hvs : layoutOfVariants w vs with e | rest
    · simp [hfs, hvs, bind, Except.bind] at h
    rw [hfs, hvs] at h
    obtain rfl : ⟨name, tag, fields⟩ :: rest = parts := Except.ok.inj h
    exact .cons ⟨rfl, rfl, laidOut_of_layoutOfFields hfs⟩ (variantLaidOut_of_layoutOfVariants hvs)

theorem array_of_layoutOf {e : InterfaceType} {k : Holding} {n : Int} {l : Layout}
    (h : (array e k n).layoutOf w = .ok l) : ∃ le, e.layoutOf w = .ok le ∧ l = le.array n := by
  rw [layoutOf] at h
  rcases he : e.layoutOf w with r | le <;> rw [he] at h
  · simp [bind, Except.bind] at h
  · exact ⟨le, rfl, (Except.ok.inj h).symm⟩

theorem record_of_layoutOf {name : String} {fs : List (Field InterfaceType)} {l : Layout}
    (h : (record name fs).layoutOf w = .ok l) :
    ∃ parts, layoutOfFields w fs = .ok parts ∧ l = .record parts := by
  rw [layoutOf] at h
  rcases hfs : layoutOfFields w fs with e | parts <;> rw [hfs] at h
  · simp [bind, Except.bind] at h
  · exact ⟨parts, rfl, (Except.ok.inj h).symm⟩

theorem union_of_layoutOf {name : String} {vs : List (Variant InterfaceType)} {l : Layout}
    (h : (taggedUnion name vs).layoutOf w = .ok l) :
    ∃ tag parts, tagLayout (vs.map (·.tag)) = .ok tag ∧ layoutOfVariants w vs = .ok parts
      ∧ l = .union tag parts := by
  rw [layoutOf] at h
  rcases htag : tagLayout (vs.map (·.tag)) with e | tag
  · simp [htag, bind, Except.bind] at h
  rcases hvs : layoutOfVariants w vs with e | parts
  · simp [htag, hvs, bind, Except.bind] at h
  rw [htag, hvs] at h
  exact ⟨tag, parts, htag, rfl, (Except.ok.inj h).symm⟩

/-- What a type with a layout places has one too. -/
theorem exists_layoutOf_of_placed {t u : InterfaceType} (h : ∃ l, t.layoutOf w = .ok l)
    (hu : u ∈ t.placed) : ∃ l, u.layoutOf w = .ok l := by
  obtain ⟨l, hl⟩ := h
  cases t with
  | array e k n =>
    obtain ⟨le, he, -⟩ := array_of_layoutOf hl
    obtain rfl := List.mem_singleton.1 hu
    exact ⟨le, he⟩
  | record name fs =>
    obtain ⟨parts, hparts, -⟩ := record_of_layoutOf hl
    obtain ⟨f, hf, rfl⟩ := List.mem_map.1 hu
    obtain ⟨p, -, -, hp⟩ := Related.exists_of_mem (laidOut_of_layoutOfFields hparts) hf
    exact ⟨_, hp⟩
  | taggedUnion name vs =>
    obtain ⟨-, parts, -, hparts, -⟩ := union_of_layoutOf hl
    obtain ⟨v, hv, hu⟩ := List.mem_flatMap.1 hu
    obtain ⟨f, hf, rfl⟩ := List.mem_map.1 hu
    obtain ⟨q, -, -, -, hq⟩ := Related.exists_of_mem (variantLaidOut_of_layoutOfVariants hparts) hv
    obtain ⟨p, -, -, hp⟩ := Related.exists_of_mem hq hf
    exact ⟨_, hp⟩
  | _ => simp [placed] at hu

theorem exists_layoutOf_of_places {t u : InterfaceType} (h : ∃ l, t.layoutOf w = .ok l)
    (hu : t.Places u) : ∃ l, u.layoutOf w = .ok l := by
  induction hu with
  | refl => exact h
  | tail _ hu ih => exact exists_layoutOf_of_placed ih hu

theorem representable_of_layoutOf {t : InterfaceType} (h : ∃ l, t.layoutOf w = .ok l) :
    t.Representable := by
  intro name vs hplaces
  obtain ⟨l, hl⟩ := exists_layoutOf_of_places h hplaces
  obtain ⟨tag, -, htag, -⟩ := union_of_layoutOf hl
  exact tagsFit_of_tagLayout htag

section PowerSized

variable {t : InterfaceType} (h : t.PowerSized)
include h

theorem PowerSized.regular {l : Layout} (hl : t.layoutOf w = .ok l) : t.Regular :=
  regular_iff_powerSized.2 ⟨h, representable_of_layoutOf ⟨l, hl⟩⟩

/-- The engine has a layout for a type whose primitives have powers of two for their sizes when all
tags can be held, and only then. -/
theorem PowerSized.exists_issued_iff (queries : List InterfaceType) :
    (∃ issued, ((LayoutEngine.after w queries).layoutOf t).1 = .ok issued) ↔ t.Representable :=
  LayoutEngine.exists_issued_iff.trans ⟨representable_of_layoutOf, fun hr =>
    (exists_proper w t (regular_iff_powerSized.2 ⟨h, hr⟩)).exists_layout⟩

end PowerSized

end InterfaceType

end Crossing
