import Crossing.Proofs.Run.Outcome

/-!
# Results up to the numbers of layouts

The numbers of layouts tell the layout on record from an equal one, and nothing else. Two runs that
come to the same outcomes up to these numbers have results that differ in nothing else, and the same
documents (`toJson_unnumbered`, `unnumbered_resultOf`).
-/

namespace Crossing

namespace Slot

mutual

theorem toJson_unnumbered : ∀ p : Slot, p.unnumbered.toJson = p.toJson
  | ⟨label, path, type, layout, mode, obligation, role, children⟩ => by
    rw [unnumbered, toJson, toJson, toJsonAll_unnumberedAll]

theorem toJsonAll_unnumberedAll : ∀ ps : List Slot, toJsonAll (unnumberedAll ps) = toJsonAll ps
  | [] => rfl
  | p :: ps => by
    rw [unnumberedAll, toJsonAll, toJsonAll, toJson_unnumbered p, toJsonAll_unnumberedAll ps]

end

end Slot

theorem Bundle.itemJson_unnumbered (r : ResolvedItem) :
    Bundle.itemJson r.unnumbered = Bundle.itemJson r := by
  have hlayout : r.unnumbered.layout = r.layout := by
    unfold ResolvedItem.layout ResolvedItem.unnumbered
    cases r.root
    rfl
  have hmode : r.unnumbered.mode = r.mode := Slot.mode_unnumbered r.root
  have hroot : r.unnumbered.root.toJson = r.root.toJson := r.root.toJson_unnumbered
  unfold Bundle.itemJson
  rw [hlayout, hmode, hroot]
  rfl

/-- The bundle without the numbers of layouts. -/
def Bundle.unnumbered (b : Bundle) : Bundle := { b with items := b.items.map .unnumbered }

/-- The document of a bundle does not tell the numbers of layouts. -/
theorem Bundle.toJson_unnumbered (b : Bundle) : b.unnumbered.toJson = b.toJson := by
  have hitems : b.unnumbered.items.map itemJson = b.items.map itemJson := by
    rw [unnumbered, List.map_map]
    exact List.map_congr_left fun r _ => itemJson_unnumbered r
  unfold toJson
  rw [hitems]
  rfl

/-- The result without the numbers of layouts. -/
def RunResult.unnumbered (r : RunResult) : RunResult :=
  { r with bundle := r.bundle.map Bundle.unnumbered }

namespace Run

variable (found : List (Findings Diagnostic ResolvedItem))

theorem values_unnumbered : (found.map unnumbered).filterMap Findings.value? =
    (found.filterMap Findings.value?).map ResolvedItem.unnumbered := by
  rw [List.filterMap_map, List.map_filterMap]
  refine List.filterMap_congr fun r _ => ?_
  cases r <;> rfl

theorem problems_unnumbered :
    (found.map unnumbered).flatMap Findings.problems = found.flatMap Findings.problems := by
  rw [List.flatMap_map]
  refine List.flatMap_congr fun r _ => ?_
  cases r <;> rfl

/-- Outcomes without numbers make a result without numbers. -/
theorem unnumbered_resultOf (module : NativeModule) (settings : RunSettings)
    (collection : Export.Collection) (ds : List Diagnostic) (nominals : List String) :
    (resultOf module settings collection found ds nominals).unnumbered
      = resultOf module settings collection (found.map unnumbered) ds nominals := by
  unfold resultOf RunResult.unnumbered
  simp only [values_unnumbered, problems_unnumbered]
  split <;> rfl

end Run

end Crossing
