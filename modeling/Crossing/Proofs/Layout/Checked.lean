import Crossing.Proofs.Layout.Run

/-!
# What the check of a layout comes to

The check goes through the fields once and compares each with the end of the one before it, and only
the last end with the size. Where no field has a negative size this is enough for all of them: a
layout without problems, from whatever source, has the geometry that its type asks for, and no other
layout passes (`checked_iff`). The step from neighbours to all fields is that of `Follows`: what
starts behind the end of its neighbour starts behind every end before it, and the last end is the
furthest (`follows_iff_apart`).
-/

namespace Crossing

namespace Layout

/-- Fields in some room: aligned where an alignment asks for anything, each behind all that are
declared before it, none before `start` and none beyond `total`. -/
structure Apart (start total : Int) (fs : List FieldLayout) : Prop where
  aligned : ∀ f ∈ fs, 1 < f.align → f.align ∣ f.offset
  ordered : fs.Pairwise fun f g => f.offset + f.size ≤ g.offset
  behind : ∀ f ∈ fs, start ≤ f.offset
  within : ∀ f ∈ fs, f.offset + f.size ≤ total

/-- Fields that keep apart inside the record, and a size that closes behind the last of them. -/
structure RecordGeometry (l : Layout) : Prop where
  fields : Apart 0 l.size l.fields
  size : IsLeast {n | l.align ∣ n ∧ lastEnd 0 l.fields ≤ n} l.size

/-- A tag, and behind it one offset for the payloads of all variants, inside the union. The fields
of a variant keep apart from each other and from the tag. -/
structure UnionGeometry (l : Layout) (tag : TagLayout) (offset : Int) : Prop where
  tag_eq : l.tag = some tag
  tag_first : tag.offset + tag.width ≤ offset
  shared : ∀ v ∈ l.variants, v.payloadOffset = offset
  fields : ∀ v ∈ l.variants, Apart offset l.size v.fields
  clear : ∀ v ∈ l.variants, ∀ f ∈ v.fields, tag.offset + tag.width ≤ f.offset
  room : ∀ v ∈ l.variants, offset ≤ l.size

/-- The geometry that a type asks of its layout. -/
structure Geometry (t : InterfaceType) (l : Layout) : Prop where
  align : IsAlignment l.align
  record : ∀ name fs, t = .record name fs → l.RecordGeometry
  union : ∀ name vs, t = .taggedUnion name vs → ∃ tag offset, l.UnionGeometry tag offset

/-- No field, of the whole or of a variant, has a negative size. -/
structure Sized (l : Layout) : Prop where
  fields : ∀ f ∈ l.fields, 0 ≤ f.size
  payloads : ∀ v ∈ l.variants, ∀ f ∈ v.fields, 0 ≤ f.size

section Fields

variable {start total : Int} {fs : List FieldLayout}

theorem follows_of_ordered (h : fs.Pairwise fun f g => f.offset + f.size ≤ g.offset)
    (hstart : ∀ f ∈ fs, start ≤ f.offset) : Follows start fs := by
  induction h generalizing start with
  | nil => trivial
  | @cons f fs hf _ ih => exact ⟨hstart f List.mem_cons_self, ih hf⟩

theorem lastEnd_le (hstart : start ≤ total) (h : ∀ f ∈ fs, f.offset + f.size ≤ total) :
    lastEnd start fs ≤ total := by
  induction fs generalizing start with
  | nil => exact hstart
  | cons f fs ih => exact ih (h f List.mem_cons_self) fun g hg => h g (List.mem_cons_of_mem _ hg)

/-- A run without problems whose last end is inside keeps all of its fields apart, and inside. -/
theorem run_iff_apart (v : Option String) (hs : ∀ f ∈ fs, 0 ≤ f.size) :
    runProblems v start fs = [] ∧ lastEnd start fs ≤ total ↔
      start ≤ total ∧ Apart start total fs := by
  rw [runProblems_eq_nil_iff]
  constructor
  · rintro ⟨⟨haligned, hfollows⟩, hend⟩
    have hstart := hfollows.le_lastEnd hs
    refine ⟨Int.le_trans hstart hend, haligned, hfollows.pairwise hs, hfollows.start_le hs, ?_⟩
    exact fun f hf => Int.le_trans (hfollows.end_le hs f hf) hend
  · rintro ⟨hroom, haligned, hordered, hbehind, hwithin⟩
    exact ⟨⟨haligned, follows_of_ordered hordered hbehind⟩, lastEnd_le hroom hwithin⟩

end Fields

section Record

variable {l : Layout}

theorem recordProblems_eq_nil_iff : l.recordProblems = [] ↔
    runProblems none 0 l.fields = [] ∧ alignUp (lastEnd 0 l.fields) l.align = l.size := by
  simp [recordProblems]

/-- A size is the end of the last field, rounded up, when it is the least multiple behind it. -/
theorem alignUp_eq_iff {a v n : Int} (ha : 0 < a) :
    alignUp v a = n ↔ IsLeast {m | a ∣ m ∧ v ≤ m} n :=
  ⟨fun h => h ▸ isLeast_alignUp ha v, (isLeast_alignUp ha v).unique⟩

theorem recordProblems_iff (ha : 0 < l.align) (hs : l.Sized) :
    l.recordProblems = [] ↔ l.RecordGeometry := by
  rw [recordProblems_eq_nil_iff, alignUp_eq_iff ha]
  constructor
  · rintro ⟨hrun, hsize⟩
    exact ⟨((run_iff_apart none hs.fields).1 ⟨hrun, hsize.1.2⟩).2, hsize⟩
  · rintro ⟨hfields, hsize⟩
    have hfollows := follows_of_ordered hfields.ordered hfields.behind
    have hroom : 0 ≤ l.size := Int.le_trans (hfollows.le_lastEnd hs.fields) hsize.1.2
    exact ⟨((run_iff_apart none hs.fields).2 ⟨hroom, hfields⟩).1, hsize⟩

end Record

section Union

variable {l : Layout} {tag : TagLayout} {v : VariantLayout}

theorem variantProblems_eq_nil_iff : variantProblems l tag v = [] ↔
    tag.offset + tag.width ≤ v.payloadOffset ∧ runProblems (some v.name) v.payloadOffset v.fields = []
      ∧ lastEnd v.payloadOffset v.fields ≤ l.size := by
  simp [variantProblems]

theorem length_eraseDups_le_one_iff {ns : List Int} :
    ns.eraseDups.length ≤ 1 ↔ ∃ n, ∀ m ∈ ns, m = n := by
  cases ns with
  | nil => simp
  | cons n ns =>
    rw [List.eraseDups_cons, List.length_cons, Nat.succ_le_succ_iff, Nat.le_zero,
      List.length_eq_zero_iff]
    constructor
    · intro h
      refine ⟨n, List.forall_mem_cons.2 ⟨rfl, fun m hm => ?_⟩⟩
      by_contra hne
      have : m ∈ (ns.filter fun b => !b == n).eraseDups := by simpa [hm] using hne
      rw [h] at this
      exact List.not_mem_nil this
    · rintro ⟨k, hk⟩
      obtain ⟨rfl, hall⟩ := List.forall_mem_cons.1 hk
      rw [List.filter_eq_nil_iff.2 fun m hm => by simp [hall m hm]]
      rfl

/-- The check counts at most one payload offset when the variants share one. -/
theorem length_payloadOffsets_le_one_iff :
    l.payloadOffsets.length ≤ 1 ↔ ∃ offset, ∀ v ∈ l.variants, v.payloadOffset = offset := by
  rw [payloadOffsets, List.length_mergeSort, length_eraseDups_le_one_iff]
  simp

theorem unionProblems_eq_nil_iff : l.unionProblems = [] ↔
    ∃ tag, l.tag = some tag ∧ (∃ offset, ∀ v ∈ l.variants, v.payloadOffset = offset)
      ∧ ∀ v ∈ l.variants, variantProblems l tag v = [] := by
  rw [unionProblems, ← length_payloadOffsets_le_one_iff]
  cases l.tag <;> simp

theorem unionProblems_iff (hs : l.Sized) :
    l.unionProblems = [] ↔ ∃ tag offset, l.UnionGeometry tag offset := by
  rw [unionProblems_eq_nil_iff]
  constructor
  · rintro ⟨tag, htag, ⟨offset, hshared⟩, hvariants⟩
    have hvariant : ∀ v ∈ l.variants,
        tag.offset + tag.width ≤ offset ∧ offset ≤ l.size ∧ Apart offset l.size v.fields := by
      intro v hv
      obtain ⟨hfirst, hrun⟩ := variantProblems_eq_nil_iff.1 (hvariants v hv)
      rw [hshared v hv] at hfirst hrun
      exact ⟨hfirst, (run_iff_apart _ (hs.payloads v hv)).1 hrun⟩
    by_cases hnone : l.variants = []
    -- Without variants any offset will do, such as the one right behind the tag.
    · exact ⟨tag, tag.offset + tag.width, htag, Int.le_refl _, by simp [hnone], by simp [hnone],
        by simp [hnone], by simp [hnone]⟩
    · obtain ⟨v, hv⟩ := List.exists_mem_of_ne_nil _ hnone
      have hfirst := (hvariant v hv).1
      exact ⟨tag, offset, htag, hfirst, hshared, fun v hv => (hvariant v hv).2.2,
        fun v hv f hf => Int.le_trans hfirst ((hvariant v hv).2.2.behind f hf),
        fun v hv => (hvariant v hv).2.1⟩
  · rintro ⟨tag, offset, h⟩
    refine ⟨tag, h.tag_eq, ⟨offset, h.shared⟩, fun v hv => variantProblems_eq_nil_iff.2 ?_⟩
    rw [h.shared v hv]
    exact ⟨h.tag_first, (run_iff_apart _ (hs.payloads v hv)).2 ⟨h.room v hv, h.fields v hv⟩⟩

end Union

theorem problems_eq_nil_iff {t : InterfaceType} {l : Layout} :
    l.problems t = [] ↔ IsAlignment l.align
      ∧ (∀ name fs, t = .record name fs → l.recordProblems = [])
      ∧ ∀ name vs, t = .taggedUnion name vs → l.unionProblems = [] := by
  rw [← isPowerOfTwo_iff]
  cases t <;> simp [problems]

end Layout

open Layout

/-- Where no field has a negative size, the check finds nothing in a layout just when the layout has
the geometry of its type. -/
theorem checked_iff (t : InterfaceType) (l : Layout) (hs : l.Sized) :
    l.problems t = [] ↔ l.Geometry t := by
  rw [problems_eq_nil_iff]
  constructor
  · rintro ⟨halign, hrecord, hunion⟩
    exact ⟨halign, fun name fs ht => (recordProblems_iff halign.pos hs).1 (hrecord name fs ht),
      fun name vs ht => (unionProblems_iff hs).1 (hunion name vs ht)⟩
  · rintro ⟨halign, hrecord, hunion⟩
    exact ⟨halign, fun name fs ht => (recordProblems_iff halign.pos hs).2 (hrecord name fs ht),
      fun name vs ht => (unionProblems_iff hs).2 (hunion name vs ht)⟩

section Examples

/-- A union as some other source may lay it out: its tag away from the start, payloads with gaps and
with a field that takes no room. -/
def spacious : Layout where
  size := 24
  align := 8
  tag := some ⟨1, 2, false⟩
  variants := [⟨"Empty", 0, 4, 0, 1, []⟩,
    ⟨"Full", 1, 4, 16, 8, [⟨"a", 4, 0, 4⟩, ⟨"b", 6, 1, 2⟩, ⟨"c", 16, 8, 8⟩]⟩]

theorem checked_iff_spacious :
    spacious.Sized ∧ spacious.problems (.taggedUnion "crate::E" []) = []
      ∧ spacious.Geometry (.taggedUnion "crate::E" []) := by
  have hs : spacious.Sized := ⟨by decide, by decide⟩
  have hnone : spacious.problems (.taggedUnion "crate::E" []) = [] := by cbv
  exact ⟨hs, hnone, (checked_iff _ _ hs).1 hnone⟩

end Examples

end Crossing
