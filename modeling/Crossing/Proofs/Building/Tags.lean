import Crossing.Building.Tags
import Crossing.Proofs.Layout.Tag

/-!
# Which tags are refused

The range check and the layout of a tag are two tests of one condition: the check passes exactly
what some tag holds (`rangeProblems_eq_nil_iff`, `rangeProblems_ne_nil_iff_error`). The other check
passes tags that are all different (`clashes_eq_nil_iff`).
-/

namespace Crossing.Building

/-- The tags of variants, of which each has a number of its own or the one after the tag before. -/
def tagsAfter (previous : Int) : List NativeVariant → List Int
  | [] => []
  | v :: vs =>
    let tag := v.discriminant.getD (previous + 1)
    tag :: tagsAfter tag vs

theorem map_tag_tagVariants (next : Int) (taken : List (Int × String))
    (variants : List NativeVariant) :
    (tagVariants next taken variants).map (·.tag) = tagsAfter (next - 1) variants := by
  induction variants generalizing next taken with
  | nil => rfl
  | cons v vs ih =>
    simp only [tagVariants, List.map_cons, tagsAfter, Int.sub_add_cancel, ih, Int.add_sub_cancel]

section Range

variable {name : String} {tags : List Int}

theorem exceedsTag_iff : exceedsTag (leastOf tags) (greatestOf tags) = true ↔ ¬ TagsFit tags := by
  have hbounds : ∀ g ∈ tags, leastOf tags ≤ g ∧ g ≤ greatestOf tags := fun g hg =>
    ⟨leastOf_le hg, le_greatestOf hg⟩
  unfold exceedsTag
  simp only [bitRange_eq, Bool.or_eq_true, Bool.and_eq_true, decide_eq_true_eq]
  constructor
  · rintro hexceeds (h | h)
    · have := le_leastOf (b := 0) (by decide) fun g hg => (h g hg).1
      have := greatestOf_lt (b := 2 ^ 64) (by decide) fun g hg => (h g hg).2
      omega
    · have := le_leastOf (b := -2 ^ 63) (by decide) fun g hg => (h g hg).1
      have := greatestOf_lt (b := 2 ^ 63) (by decide) fun g hg => (h g hg).2
      omega
  · intro hfit
    by_contra hpass
    refine hfit ?_
    by_cases hneg : leastOf tags < 0
    · refine .inr fun g hg => ?_
      have := hbounds g hg
      omega
    · refine .inl fun g hg => ?_
      have := hbounds g hg
      omega

theorem rangeProblems_eq_nil_iff : rangeProblems name tags = [] ↔ TagsFit tags := by
  unfold rangeProblems
  dsimp only
  split
  · rename_i hexceeds
    exact iff_of_false (by simp) (exceedsTag_iff.1 hexceeds)
  · rename_i hpass
    exact iff_of_true rfl (Classical.not_not.1 fun hfit => hpass (exceedsTag_iff.2 hfit))

theorem tagsFit_of_rangeProblems (h : rangeProblems name tags = []) : TagsFit tags :=
  rangeProblems_eq_nil_iff.1 h

/-- The layout of the tag fails on exactly the tags that the range check refuses. -/
theorem rangeProblems_ne_nil_iff_error :
    rangeProblems name tags ≠ [] ↔ ∃ range, tagLayout tags = .error range := by
  rw [Ne, rangeProblems_eq_nil_iff]
  rcases htag : tagLayout tags with range | tag
  · refine iff_of_true (fun hfit => ?_) ⟨range, rfl⟩
    obtain ⟨tag, hok, -⟩ := exists_tagLayout hfit
    simp [htag] at hok
  · exact iff_of_false (fun hfit => hfit (tagsFit_of_tagLayout htag)) (by simp)

end Range

/-- Variants do not clash when their tags are all different, and none of them was taken before. -/
theorem clashes_eq_nil_iff (name : String) (next : Int) (taken : List (Int × String))
    (variants : List NativeVariant) :
    (tagVariants next taken variants).flatMap (·.problems name) = []
      ↔ (tagsAfter (next - 1) variants).Nodup
        ∧ ∀ g ∈ tagsAfter (next - 1) variants, g ∉ taken.map (·.1) := by
  induction variants generalizing next taken with
  | nil => simp [tagVariants, tagsAfter]
  | cons v vs ih =>
    have hhead (tag : Int) : (TaggedVariant.mk v tag (taken.lookup tag)).problems name = []
        ↔ tag ∉ taken.map (·.1) := by
      have htaken : taken.lookup tag = none ↔ tag ∉ taken.map (·.1) := by
        simp [List.lookup_eq_none_iff]
        grind
      rw [← htaken]
      cases taken.lookup tag <;> simp [TaggedVariant.problems]
    simp only [tagVariants, tagsAfter, List.flatMap_cons, List.append_eq_nil_iff, hhead, ih,
      Int.add_sub_cancel, Int.sub_add_cancel, List.nodup_cons, List.map_cons, List.mem_cons]
    grind

end Crossing.Building
