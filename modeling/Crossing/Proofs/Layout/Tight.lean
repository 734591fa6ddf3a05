import Crossing.Proofs.Layout.Defined
import Crossing.Proofs.Layout.Sound

/-!
# Records waste nothing

No offsets that fields could have, in their order and aligned, are smaller than those of the engine,
in any place (`record_tight`). The run is greedy: each field goes to the least multiple of its
alignment behind the one before it (`alignUp_le`), so whoever begins no earlier is never ahead,
field by field (`place_le_of_placement`). An array of a negative length ends before it begins. What
is declared behind it may then stand in front of it, and the offsets need not increase
(`not_ordered_of_negative`).
-/

namespace Crossing

namespace Layout

/-- Offsets that some fields can have from a start on: multiples of their alignments, and none
before the end of the field in front of it. -/
inductive Placement : Int → List FieldLayout → List Int → Prop where
  | nil {start : Int} : Placement start [] []
  | cons {start o : Int} {f : FieldLayout} {fs : List FieldLayout} {os : List Int}
      (behind : start ≤ o) (aligned : f.align ∣ o) (rest : Placement (o + f.size) fs os) :
      Placement start (f :: fs) (o :: os)

/-- The offsets begin at or after zero and never decrease. -/
def Ordered (os : List Int) : Prop := (∀ o ∈ os, 0 ≤ o) ∧ os.Pairwise (· ≤ ·)

/-- Of some lists of offsets, the one that is the smallest in every place. -/
def Tightest (S : List Int → Prop) (os : List Int) : Prop :=
  S os ∧ ∀ os', S os' → List.Forall₂ (· ≤ ·) os os'

/-- The layout of a record, with no byte more than its fields ask for. -/
structure Tight (w : WordSize) (declared : List (Field InterfaceType)) (l : Layout) : Prop where
  fields : List.Forall₂ (FieldSound w) declared l.fields
  tightest : Tightest (Placement 0 l.fields) (l.fields.map (·.offset))
  align : IsLeast {n | 0 < n ∧ ∀ f ∈ l.fields, f.align ∣ n} l.align
  align_empty : declared = [] → l.align = 1
  size : IsLeast {n | l.align ∣ n ∧ lastEnd 0 l.fields ≤ n} l.size

section Placement

variable {start : Int} {fs : List FieldLayout} {os : List Int}

theorem Placement.ordered (h : Placement start fs os) (hs : ∀ f ∈ fs, 0 ≤ f.size) :
    (∀ o ∈ os, start ≤ o) ∧ os.Pairwise (· ≤ ·) := by
  induction h with
  | nil => exact ⟨by simp, .nil⟩
  | @cons start o f fs os behind aligned rest ih =>
    obtain ⟨hfirst, hpairwise⟩ := ih fun g hg => hs g (.tail _ hg)
    have hf := hs f List.mem_cons_self
    have hall : ∀ o' ∈ os, o ≤ o' := fun o' ho' => by
      have := hfirst o' ho'
      omega
    refine ⟨List.forall_mem_cons.2 ⟨behind, fun o' ho' => ?_⟩, .cons hall hpairwise⟩
    have := hall o' ho'
    omega

end Placement

section Run

variable {parts : List (Field Layout)} (ha : ∀ p ∈ parts, IsAlignment p.type.align)
include ha

theorem placement_place (start : Int) :
    Placement start (place start parts) ((place start parts).map (·.offset)) := by
  induction parts generalizing start with
  | nil => exact .nil
  | cons p parts ih =>
    have hpos := (ha p List.mem_cons_self).pos
    exact .cons (le_alignUp hpos start) (dvd_alignUp hpos start)
      (ih (fun q hq => ha q (.tail _ hq)) _)

/-- Whoever places the same fields from no earlier a start places none of them earlier. -/
theorem place_le_of_placement {start u : Int} {os : List Int} (hu : start ≤ u)
    (h : Placement u (place start parts) os) :
    List.Forall₂ (· ≤ ·) ((place start parts).map (·.offset)) os := by
  induction parts generalizing start u os with
  | nil =>
    cases h
    exact .nil
  | cons p parts ih =>
    cases h with
    | @cons _ o _ _ os behind aligned rest =>
      have hle : alignUp start p.type.align ≤ o :=
        alignUp_le (ha p List.mem_cons_self).pos (Int.le_trans hu behind) aligned
      exact .cons hle (ih (fun q hq => ha q (.tail _ hq)) (Int.add_le_add_right hle _) rest)

theorem tightest_place : Tightest (Placement 0 (place 0 parts)) ((place 0 parts).map (·.offset)) :=
  ⟨placement_place ha 0, fun _ h => place_le_of_placement ha (Int.le_refl 0) h⟩

theorem isLeast_runAlign :
    IsLeast {n | 0 < n ∧ ∀ f ∈ place 0 parts, f.align ∣ n} (runAlign parts) := by
  refine ⟨⟨(isAlignment_runAlign ha).pos, fun f hf => ?_⟩, fun n ⟨hpos, hdvd⟩ => ?_⟩
  · obtain ⟨p, hp, -, -, halign⟩ := exists_of_mem_place hf
    exact halign ▸ dvd_runAlign ha hp
  · refine Int.le_of_dvd hpos ((runAlign_dvd_iff ha).2 fun p hp => ?_)
    obtain ⟨f, hf, -, -, halign⟩ := Related.exists_of_mem (forall₂_place 0 parts) hp
    exact halign ▸ hdvd f hf

end Run

theorem tight_record {w : WordSize} {fs : List (Field InterfaceType)} {parts : List (Field Layout)}
    (hp : ∀ p ∈ parts, p.type.Proper) (hall : List.Forall₂ (InterfaceType.LaidOut w) fs parts) :
    (record parts).Tight w fs := by
  have ha : ∀ p ∈ parts, IsAlignment p.type.align := fun p h => (hp p h).align
  refine ⟨fieldSound_place hp hall 0, tightest_place ha, isLeast_runAlign ha, ?_, ?_⟩
  · rintro rfl
    cases hall
    rfl
  · have hend : (record parts).size = alignUp (lastEnd 0 (place 0 parts)) (runAlign parts) := by
      rw [lastEnd_place]
      rfl
    rw [hend]
    exact isLeast_alignUp (isAlignment_runAlign ha).pos _

/-- Where no size is negative, the offsets are also ordered, so that they are the smallest of the
ordered ones too. -/
theorem Tightest.ordered {l : Layout}
    (h : Tightest (Placement 0 l.fields) (l.fields.map (·.offset)))
    (hs : ∀ f ∈ l.fields, 0 ≤ f.size) :
    Tightest (fun os => Ordered os ∧ Placement 0 l.fields os) (l.fields.map (·.offset)) :=
  ⟨⟨h.1.ordered hs, h.1⟩, fun os hos => h.2 os hos.2⟩

end Layout

open Layout InterfaceType

/-- The engine lays a record out with the smallest offsets of all, for the least common alignment
and the least size. -/
theorem record_tight (w : WordSize) (queries : List InterfaceType) (name : String)
    (fs : List (Field InterfaceType)) (h : (record name fs).PowerSized) :
    ((∃ issued, ((LayoutEngine.after w queries).layoutOf (record name fs)).1 = .ok issued)
        ↔ (record name fs).Representable) ∧
      ∀ issued, ((LayoutEngine.after w queries).layoutOf (record name fs)).1 = .ok issued →
        issued.layout.Tight w fs ∧
        ((record name fs).NoNegative →
          Tightest (fun os => Ordered os ∧ Placement 0 issued.layout.fields os)
            (issued.layout.fields.map (·.offset))) := by
  refine ⟨h.exists_issued_iff queries, fun issued hissued => ?_⟩
  have hlayout := LayoutEngine.layoutOf_of_issued hissued
  have hregular := h.regular hlayout
  obtain ⟨parts, hparts, hall, hp, hs⟩ := layoutOf_record name fun f hf =>
    exists_proper w f.type (hregular.of_placed (List.mem_map_of_mem hf))
  obtain hrecord : issued.layout = .record parts := Except.ok.inj (hlayout.symm.trans hparts)
  rw [hrecord]
  have htight := tight_record hp hall
  exact ⟨htight, fun hn => htight.tightest.ordered fun f hf => size_nonneg_of_mem_place (hs hn) hf⟩

section Examples

/-- Fields with a gap between them, and one that takes no room. -/
def gapped : List (Field InterfaceType) :=
  [⟨"flag", .int 8 false⟩, ⟨"word", .int 32 false⟩, ⟨"nothing", .unit⟩, ⟨"half", .int 16 true⟩]

theorem regular_gapped : (record "Gapped" gapped).Regular := by
  have hsized {k : Nat} {b : Int} {s : Bool} (h : max 1 (b / 8) = 2 ^ k) : (int b s).Regular :=
    regular_of_placed_eq_nil rfl fun _ => ⟨k, h⟩
  have hunit : unit.Regular := regular_of_placed_eq_nil rfl fun h => absurd rfl h
  refine regular_iff.2 ⟨trivial, ?_⟩
  simp only [gapped, placed, List.map, List.forall_mem_cons]
  exact ⟨hsized (k := 0) rfl, hsized (k := 2) rfl, hunit, hsized (k := 1) rfl, by simp⟩

theorem record_tight_gapped :
    (record "Gapped" gapped).PowerSized ∧
      ∃ issued, ((LayoutEngine.after .bits32 [.unit]).layoutOf (record "Gapped" gapped)).1
          = .ok issued
        ∧ issued.layout.fields.map (·.offset) = [0, 4, 8, 8]
        ∧ issued.layout.Tight .bits32 gapped := by
  have hsized := (regular_iff_powerSized.1 regular_gapped).1
  exact ⟨hsized, _, rfl, rfl, ((record_tight .bits32 [.unit] "Gapped" gapped hsized).2 _ rfl).1⟩

/-- A record with an array of a negative length between two fields. -/
def receding : InterfaceType :=
  .record "R" [⟨"a", .int 32 false⟩, ⟨"b", .array (.int 32 false) .value (-3)⟩, ⟨"c", .int 8 false⟩]

/-- The last field ends up in front of the first one, though there is room for it at 4. -/
theorem not_ordered_of_negative :
    receding.PowerSized ∧
      ∃ issued, ((LayoutEngine.after .bits64 []).layoutOf receding).1 = .ok issued
        ∧ issued.layout.fields.map (·.offset) = [0, 4, -8]
        ∧ ¬ Tightest (fun os => Ordered os ∧ Placement 0 issued.layout.fields os)
          (issued.layout.fields.map (·.offset))
        ∧ Tightest (fun os => Ordered os ∧ Placement 0 issued.layout.fields os) [0, 4, 4] := by
  have hbyte : (int 8 false).Regular := regular_of_placed_eq_nil rfl fun _ => ⟨0, rfl⟩
  have hword : (int 32 false).Regular := regular_of_placed_eq_nil rfl fun _ => ⟨2, rfl⟩
  have hwords : (array (int 32 false) .value (-3)).Regular :=
    regular_iff.2 ⟨trivial, by simpa [placed] using hword⟩
  have hregular : receding.Regular :=
    regular_iff.2 ⟨trivial, by simp [receding, placed, hbyte, hword, hwords]⟩
  refine ⟨(regular_iff_powerSized.1 hregular).1, _, rfl, rfl, fun h => ?_, ⟨?_, ?_⟩, ?_⟩
  · have : (0 : Int) ≤ -8 := h.1.1.1 (-8) (by decide)
    omega
  · exact ⟨by decide, by decide⟩
  · exact .cons (by decide) (by decide) (.cons (by decide) (by decide)
      (.cons (by decide) (by decide) .nil))
  · rintro os ⟨⟨-, hordered⟩, hplacement⟩
    change Placement 0 [⟨"a", 0, 4, 4⟩, ⟨"b", 4, -12, 4⟩, ⟨"c", -8, 1, 1⟩] os at hplacement
    obtain - | ⟨hfirst, -, - | ⟨hsecond, -, - | ⟨-, -, ⟨⟩⟩⟩⟩ := hplacement
    obtain ⟨-, hthird⟩ := List.pairwise_cons.1 hordered
    have hlast := (List.pairwise_cons.1 hthird).1 _ List.mem_cons_self
    dsimp only at hsecond
    exact .cons hfirst (.cons (by omega) (.cons (by omega) .nil))

end Examples

end Crossing
