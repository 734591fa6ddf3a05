import Crossing.Proofs.Layout.Alignment
import Mathlib.Data.List.Forall2

/-!
# Fields one after another

What `place` does to a list of fields: names, sizes and alignments stay (`forall₂_place`), every
offset is a multiple of the alignment of its field, and every field follows the one before it
(`follows_place`). The end of the last field is `runEnd` (`lastEnd_place`), and a start that is a
multiple of every alignment shifts all of it (`runEnd_add`, `place_add`). Only where no size is
negative do fields that follow each other also keep apart from all others (`Follows.pairwise`).
-/

namespace Crossing

theorem exists_of_forall₂_of_mem {α β : Type} {R : α → β → Prop} {as : List α} {bs : List β}
    (h : List.Forall₂ R as bs) {b : β} (hb : b ∈ bs) : ∃ a ∈ as, R a b := by
  induction h with
  | nil => simp at hb
  | cons hr _ ih =>
    rcases List.mem_cons.1 hb with rfl | hb
    · exact ⟨_, List.mem_cons_self, hr⟩
    · obtain ⟨a, ha, hr⟩ := ih hb
      exact ⟨a, List.mem_cons_of_mem _ ha, hr⟩

/-- The field further on. -/
def FieldLayout.shift (d : Int) (f : FieldLayout) : FieldLayout :=
  { f with offset := d + f.offset }

namespace Layout

/-- Each field starts no earlier than the one before it ends, the first no earlier than `start`. -/
def Follows (start : Int) : List FieldLayout → Prop
  | [] => True
  | f :: fs => start ≤ f.offset ∧ Follows (f.offset + f.size) fs

section Follows

variable {start : Int} {fs : List FieldLayout}

theorem Follows.le_lastEnd (h : Follows start fs) (hs : ∀ f ∈ fs, 0 ≤ f.size) :
    start ≤ lastEnd start fs := by
  induction fs generalizing start with
  | nil => exact Int.le_refl _
  | cons f fs ih =>
    have hf := hs f List.mem_cons_self
    have := ih h.2 fun g hg => hs g (List.mem_cons_of_mem _ hg)
    have := h.1
    rw [lastEnd]
    omega

theorem Follows.start_le (h : Follows start fs) (hs : ∀ f ∈ fs, 0 ≤ f.size) :
    ∀ f ∈ fs, start ≤ f.offset := by
  induction fs generalizing start with
  | nil => simp
  | cons f fs ih =>
    intro g hg
    rcases List.mem_cons.1 hg with rfl | hg
    · exact h.1
    · have hf := hs f List.mem_cons_self
      have := ih h.2 (fun g hg => hs g (List.mem_cons_of_mem _ hg)) g hg
      have := h.1
      omega

/-- No field reaches beyond the end of the last one. -/
theorem Follows.end_le (h : Follows start fs) (hs : ∀ f ∈ fs, 0 ≤ f.size) :
    ∀ f ∈ fs, f.offset + f.size ≤ lastEnd start fs := by
  induction fs generalizing start with
  | nil => simp
  | cons f fs ih =>
    have hs' : ∀ g ∈ fs, 0 ≤ g.size := fun g hg => hs g (List.mem_cons_of_mem _ hg)
    intro g hg
    rw [lastEnd]
    rcases List.mem_cons.1 hg with rfl | hg
    · exact h.2.le_lastEnd hs'
    · exact ih h.2 hs' g hg

/-- Fields that follow each other keep apart from all fields before them. -/
theorem Follows.pairwise (h : Follows start fs) (hs : ∀ f ∈ fs, 0 ≤ f.size) :
    fs.Pairwise fun f g => f.offset + f.size ≤ g.offset := by
  induction fs generalizing start with
  | nil => exact .nil
  | cons f fs ih =>
    have hs' : ∀ g ∈ fs, 0 ≤ g.size := fun g hg => hs g (List.mem_cons_of_mem _ hg)
    exact .cons (h.2.start_le hs') (ih h.2 hs')

/-- The check finds nothing in a run when every field is aligned and follows the one before it. -/
theorem runProblems_eq_nil_iff (v : Option String) :
    runProblems v start fs = [] ↔
      (∀ f ∈ fs, 1 < f.align → f.align ∣ f.offset) ∧ Follows start fs := by
  induction fs generalizing start with
  | nil => simp [runProblems, Follows]
  | cons f fs ih =>
    rw [runProblems, List.append_eq_nil_iff, List.append_eq_nil_iff, ih, Follows,
      List.forall_mem_cons, Int.dvd_iff_emod_eq_zero]
    simp only [ite_eq_right_iff, List.cons_ne_nil, imp_false, not_and, not_not, Int.not_lt]
    tauto

end Follows

section Place

variable {parts : List (Field Layout)}

theorem forall₂_place (start : Int) (parts : List (Field Layout)) :
    List.Forall₂ (fun p f => f.name = p.name ∧ f.size = p.type.size ∧ f.align = p.type.align)
      parts (place start parts) := by
  induction parts generalizing start with
  | nil => exact .nil
  | cons p parts ih => exact .cons ⟨rfl, rfl, rfl⟩ (ih _)

theorem exists_of_mem_place {start : Int} {f : FieldLayout} (h : f ∈ place start parts) :
    ∃ p ∈ parts, f.name = p.name ∧ f.size = p.type.size ∧ f.align = p.type.align := by
  induction parts generalizing start with
  | nil => simp [place] at h
  | cons p parts ih =>
    rcases List.mem_cons.1 h with rfl | h
    · exact ⟨p, List.mem_cons_self, rfl, rfl, rfl⟩
    · obtain ⟨q, hq, hf⟩ := ih h
      exact ⟨q, List.mem_cons_of_mem _ hq, hf⟩

theorem size_nonneg_of_mem_place (hs : ∀ p ∈ parts, 0 ≤ p.type.size) {start : Int}
    {f : FieldLayout} (h : f ∈ place start parts) : 0 ≤ f.size := by
  obtain ⟨p, hp, -, hsize, -⟩ := exists_of_mem_place h
  exact hsize ▸ hs p hp

theorem lastEnd_place (start : Int) (parts : List (Field Layout)) :
    lastEnd start (place start parts) = runEnd start parts := by
  induction parts generalizing start with
  | nil => rfl
  | cons p parts ih => exact ih _

variable (ha : ∀ p ∈ parts, IsAlignment p.type.align)
include ha

theorem dvd_offset_of_mem_place {start : Int} {f : FieldLayout} (h : f ∈ place start parts) :
    f.align ∣ f.offset := by
  induction parts generalizing start with
  | nil => simp [place] at h
  | cons p parts ih =>
    rcases List.mem_cons.1 h with rfl | h
    · exact dvd_alignUp (ha p List.mem_cons_self).pos start
    · exact ih (fun q hq => ha q (List.mem_cons_of_mem _ hq)) h

theorem follows_place (start : Int) : Follows start (place start parts) := by
  induction parts generalizing start with
  | nil => trivial
  | cons p parts ih =>
    exact ⟨le_alignUp (ha p List.mem_cons_self).pos start,
      ih (fun q hq => ha q (List.mem_cons_of_mem _ hq)) _⟩

theorem isAlignment_runAlign : IsAlignment (runAlign parts) := by
  induction parts with
  | nil => exact isAlignment_one
  | cons p parts ih =>
    exact (ha p List.mem_cons_self).max (ih fun q hq => ha q (List.mem_cons_of_mem _ hq))

theorem dvd_runAlign {p : Field Layout} (hp : p ∈ parts) : p.type.align ∣ runAlign parts := by
  induction parts with
  | nil => simp at hp
  | cons q parts ih =>
    have hq := ha q List.mem_cons_self
    have hrest : ∀ p ∈ parts, IsAlignment p.type.align := fun p hp =>
      ha p (List.mem_cons_of_mem _ hp)
    rcases List.mem_cons.1 hp with rfl | hp
    · exact hq.dvd_max_left (isAlignment_runAlign hrest)
    · exact Int.dvd_trans (ih hrest hp) (hq.dvd_max_right (isAlignment_runAlign hrest))

/-- A start that is a multiple of every alignment shifts the run. -/
theorem runEnd_add {q : Int} (hq : runAlign parts ∣ q) (start : Int) :
    runEnd (q + start) parts = q + runEnd start parts := by
  have hdvd : ∀ p ∈ parts, p.type.align ∣ q := fun p hp => Int.dvd_trans (dvd_runAlign ha hp) hq
  clear hq
  induction parts generalizing start with
  | nil => rfl
  | cons p parts ih =>
    have hp := ha p List.mem_cons_self
    rw [runEnd, runEnd, alignUp_add hp.pos (hdvd p List.mem_cons_self), Int.add_assoc]
    exact ih (fun r hr => ha r (List.mem_cons_of_mem _ hr)) _
      fun r hr => hdvd r (List.mem_cons_of_mem _ hr)

/-- A start that is a multiple of every alignment shifts every field. -/
theorem place_add {q : Int} (hq : runAlign parts ∣ q) (start : Int) :
    place (q + start) parts = (place start parts).map (·.shift q) := by
  have hdvd : ∀ p ∈ parts, p.type.align ∣ q := fun p hp => Int.dvd_trans (dvd_runAlign ha hp) hq
  clear hq
  induction parts generalizing start with
  | nil => rfl
  | cons p parts ih =>
    have hp := ha p List.mem_cons_self
    rw [place, place, alignUp_add hp.pos (hdvd p List.mem_cons_self), Int.add_assoc,
      ih (fun r hr => ha r (List.mem_cons_of_mem _ hr)) _
        fun r hr => hdvd r (List.mem_cons_of_mem _ hr)]
    rfl

/-- The alignment of a run divides just what all of its fields' alignments divide. -/
theorem runAlign_dvd_iff {n : Int} : runAlign parts ∣ n ↔ ∀ p ∈ parts, p.type.align ∣ n := by
  refine ⟨fun h p hp => Int.dvd_trans (dvd_runAlign ha hp) h, fun h => ?_⟩
  induction parts with
  | nil => exact Int.one_dvd n
  | cons p parts ih =>
    have hrest := ih (fun q hq => ha q (List.mem_cons_of_mem _ hq)) fun q hq =>
      h q (List.mem_cons_of_mem _ hq)
    rw [runAlign]
    rcases Int.le_total p.type.align (runAlign parts) with hle | hle
    · rwa [Int.max_eq_right hle]
    · rw [Int.max_eq_left hle]
      exact h p List.mem_cons_self

end Place

end Layout

end Crossing
