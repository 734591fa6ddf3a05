import Crossing.Proofs.InterfaceType.Parts
import Mathlib.Order.MinMax
import Mathlib.Order.Nat

/-!
# Functions inside functions

How deeply functions nest is told from the parts of a type: it is what the deepest part has, and
one more for a function (`lt_callbackDepth_iff`, `succ_lt_callbackDepth_iff`). So a depth above zero
means that there is a function somewhere (`callbackDepth_pos_iff`), and a depth above one that there
is one inside another (`one_lt_callbackDepth_iff`).
-/

namespace Crossing.InterfaceType

/-- There is a function at or below the type. -/
def HasFunction (t : InterfaceType) : Prop := ∃ f, t.Contains f ∧ f.kind = .function

/-- There is a function inside another one at or below the type. -/
def NestsCallbacks (t : InterfaceType) : Prop :=
  ∃ f, t.Contains f ∧ f.kind = .function ∧ ∃ u ∈ f.parts, u.HasFunction

variable {t u : InterfaceType} {n : Nat}

/-- What lies at or below a type is the type itself or lies at or below a part of it. -/
theorem exists_contains_iff {P : InterfaceType → Prop} :
    (∃ f, t.Contains f ∧ P f) ↔ P t ∨ ∃ u ∈ t.parts, ∃ f, u.Contains f ∧ P f := by
  simp only [contains_iff (t := t), or_and_right, exists_or, exists_eq_left]
  refine or_congr_right ⟨?_, ?_⟩
  · rintro ⟨f, ⟨u, hu, hf⟩, hP⟩
    exact ⟨u, hu, f, hf, hP⟩
  · rintro ⟨u, hu, f, hf, hP⟩
    exact ⟨f, ⟨u, hu, hf⟩, hP⟩

theorem hasFunction_iff : t.HasFunction ↔ t.kind = .function ∨ ∃ u ∈ t.parts, u.HasFunction :=
  exists_contains_iff

theorem nestsCallbacks_iff : t.NestsCallbacks ↔
    (t.kind = .function ∧ ∃ u ∈ t.parts, u.HasFunction) ∨ ∃ u ∈ t.parts, u.NestsCallbacks :=
  exists_contains_iff

section Depth

theorem lt_callbackDepthList {ts : List InterfaceType} :
    n < callbackDepthList ts ↔ ∃ t ∈ ts, n < t.callbackDepth := by
  induction ts with
  | nil => simp [callbackDepthList]
  | cons t ts ih => simp [callbackDepthList, ih]

theorem lt_callbackDepthFields {fs : List (Field InterfaceType)} :
    n < callbackDepthFields fs ↔ ∃ t ∈ fs.map (·.type), n < t.callbackDepth := by
  induction fs with
  | nil => simp [callbackDepthFields]
  | cons f fs ih =>
    simp only [callbackDepthFields, lt_max_iff, ih, List.map_cons, List.mem_cons, or_and_right,
      exists_or, exists_eq_left]

theorem lt_callbackDepthVariants {vs : List (Variant InterfaceType)} :
    n < callbackDepthVariants vs ↔
      ∃ t ∈ vs.flatMap fun v => v.fields.map (·.type), n < t.callbackDepth := by
  induction vs with
  | nil => simp [callbackDepthVariants]
  | cons v vs ih =>
    simp only [callbackDepthVariants, lt_max_iff, lt_callbackDepthFields, ih, List.flatMap_cons,
      List.mem_append, or_and_right, exists_or]

theorem lt_callbackDepthFailure {f : Failure InterfaceType} :
    n < callbackDepthFailure f ↔ ∃ t ∈ (failureParts f).map (·.2), n < t.callbackDepth := by
  cases f <;> simp [callbackDepthFailure, failureParts]

theorem lt_callbackDepth_iff (h : t.kind ≠ .function) :
    n < t.callbackDepth ↔ ∃ u ∈ t.parts, n < u.callbackDepth := by
  cases t with
  | function => exact absurd rfl h
  | record name fs => simp only [callbackDepth, lt_callbackDepthFields, parts_record]
  | taggedUnion name vs => simp only [callbackDepth, lt_callbackDepthVariants, parts_taggedUnion]
  | _ => simp [callbackDepth]

theorem callbackDepth_pos (h : t.kind = .function) : 0 < t.callbackDepth := by
  cases t <;> simp [kind, callbackDepth] at h ⊢

theorem succ_lt_callbackDepth_iff (h : t.kind = .function) :
    n + 1 < t.callbackDepth ↔ ∃ u ∈ t.parts, n < u.callbackDepth := by
  cases t with
  | function ps r f holding =>
    simp only [callbackDepth, Nat.add_lt_add_iff_right, lt_max_iff, lt_callbackDepthList,
      lt_callbackDepthFailure, parts_function, List.mem_append, List.mem_cons, or_and_right,
      exists_or, exists_eq_left, or_assoc]
  | _ => simp [kind] at h

theorem callbackDepth_pos_iff : 0 < t.callbackDepth ↔ t.HasFunction := by
  induction t using parts_induction with
  | h t ih =>
    rw [hasFunction_iff]
    by_cases hkind : t.kind = .function
    · exact iff_of_true (callbackDepth_pos hkind) (.inl hkind)
    · rw [lt_callbackDepth_iff hkind, or_iff_right hkind]
      exact exists_congr fun u => and_congr_right (ih u)

theorem one_lt_callbackDepth_iff : 1 < t.callbackDepth ↔ t.NestsCallbacks := by
  induction t using parts_induction with
  | h t ih =>
    have hparts : (∃ u ∈ t.parts, 1 < u.callbackDepth) ↔ ∃ u ∈ t.parts, u.NestsCallbacks :=
      exists_congr fun u => and_congr_right (ih u)
    rw [nestsCallbacks_iff, ← hparts]
    by_cases hkind : t.kind = .function
    · simp only [succ_lt_callbackDepth_iff hkind, callbackDepth_pos_iff, hkind, true_and]
      refine ⟨.inl, ?_⟩
      rintro (h | ⟨u, hu, hdepth⟩)
      · exact h
      · exact ⟨u, hu, callbackDepth_pos_iff.1 (Nat.lt_trans Nat.zero_lt_one hdepth)⟩
    · rw [lt_callbackDepth_iff hkind, or_iff_right fun h => hkind h.1]

end Depth

end Crossing.InterfaceType
