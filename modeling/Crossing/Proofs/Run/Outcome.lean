import Crossing.Proofs.InterfaceType.Preorder
import Crossing.Proofs.Layout.Sound
import Crossing.Proofs.Ownership.Ruling
import Crossing.Proofs.Run.Through
import Crossing.Proofs.Validation

/-!
# What items come to

An item that comes through a run is resolved for good: all of its types are registered and laid out,
its slots cover them, and the target renders every slot (`Resolved`). An item that does not has
diagnostics which name it (`Processed.refused`); and where everything can be built with the standard
recognizers, nothing but a helper without a name is ever at fault (`Processed.unnamed`).
-/

namespace Crossing.Run

open Building (Task TypeModel)
open Ownership (Names IsUnnamed)

variable {m : TypeModel} {w : WordSize} {terms : Ownership.Terms} {item : ExportItem}
  {r : ResolvedItem} {s : RunState}

/-- What is known of an item that came through as `r`. -/
structure Resolved (m : TypeModel) (w : WordSize) (terms : Ownership.Terms) (item : ExportItem)
    (r : ResolvedItem) (s : RunState) : Prop where
  source : r.item = item
  built : Building.Answers m item (.ok r.type)
  registered : ∀ t, r.type.Contains t → t ∈ s.builder.table.types
  complete : Ownership.Complete terms r.type r.slots
  recorded : ∀ p ∈ r.slots, s.resolver.engine.cache.lookup p.type = some p.layout
  ruled : ∀ p ∈ r.slots, p.type.layoutOf w = .ok p.layout.layout

theorem Processed.resolved_item {allowed : String × String → Prop}
    (h : Processed m w terms item (.ok (.ok r)) s) (hs : (running m w allowed).Inv s) :
    Resolved m w terms item r s := by
  obtain ⟨⟨-, hregistering⟩, ⟨hfaithful, -⟩⟩ := hs
  generalize hanswer : Except.ok (Except.ok r) = answer at h
  rcases h with ⟨-⟩ | ⟨-⟩ | ⟨hbuilt, hregistered, hanswers, heq⟩
  · simp at hanswer
  · simp at hanswer
  obtain rfl := mapError_eq_ok (hanswer.trans heq).symm
  obtain ⟨hitem, rfl⟩ := (Ownership.root_of_ruledItem hanswers.ruled).2 r rfl
  refine ⟨hitem, hbuilt, fun t ht => hregistering.1.contains hregistered ht,
    Ownership.ruling_item hanswers.ruled, hanswers.recorded r rfl, fun p hp => ?_⟩
  exact hfaithful.2 p.type p.layout (hanswers.recorded r rfl p hp)

/-- What does not come through has diagnostics, which name the item. -/
theorem Processed.refused_item {ds : List Diagnostic}
    (h : Processed m w terms item (.ok (.error ds)) s) : ds ≠ [] ∧ ∀ d ∈ ds, Names item d := by
  generalize hanswer : Except.ok (Except.error ds) = answer at h
  rcases h with ⟨-⟩ | ⟨hbuilt⟩ | ⟨hbuilt, -, hanswers, heq⟩
  · simp at hanswer
  · obtain rfl := Except.error.inj (Except.ok.inj hanswer)
    exact ⟨hbuilt.refused.1, fun d hd => (hbuilt.refused.2 d hd).2⟩
  · obtain rfl := mapError_eq_ok (hanswer.trans heq).symm
    exact Ownership.ruling_item hanswers.ruled

/-- What is built with the standard recognizers is sturdy. -/
theorem sturdy_of_answers (hstandard : m.recognizers = .standard)
    (hword : IsAlignment (max 1 (m.wordBits / 8))) {t : InterfaceType}
    (h : Building.Answers m item (.ok t)) : t.Sturdy :=
  Building.sturdy_of_yields hstandard hword h.yields (Task.sturdy_ofItem hstandard hword item) t rfl

/-- An item that can be built with the standard recognizers is at fault for a helper at most. -/
theorem Processed.unnamed {fault : RunFault} (hstandard : m.recognizers = .standard)
    (hword : IsAlignment (max 1 (m.wordBits / 8))) (hbuilds : ¬ (Task.ofItem m item).Doomed m)
    (h : Processed m w terms item (.error fault) s) :
    ∃ f, fault = .ownership f ∧ IsUnnamed terms f := by
  generalize hanswer : Except.error fault = answer at h
  rcases h with ⟨hdoomed⟩ | ⟨-⟩ | ⟨hbuilt, -, hanswers, heq⟩
  · exact absurd hdoomed hbuilds
  · simp at hanswer
  · obtain ⟨f, rfl, rfl⟩ := mapError_eq_error (hanswer.trans heq).symm
    exact ⟨f, rfl, Ownership.ruling_item hanswers.ruled (sturdy_of_answers hstandard hword hbuilt)⟩

namespace Resolved

variable {settings : RunSettings}

/-- Every type inside a resolved item has a layout on record, which is that of the rule. -/
theorem exists_issued (h : Resolved m w terms item r s) {t : InterfaceType}
    (ht : r.type.Contains t) : ∃ issued, s.resolver.engine.cache.lookup t = some issued ∧
      t.layoutOf w = .ok issued.layout := by
  obtain ⟨p, hp, rfl⟩ := h.complete.covers t ht
  exact ⟨p.layout, h.recorded p hp, h.ruled p hp⟩

theorem onRecord (h : Resolved m w terms item r s) :
    Validation.OnRecord w (recordsOf settings s) r := by
  refine ⟨fun t ht => ?_, fun p hp => ?_⟩
  · have hcontains := InterfaceType.mem_graph.1 ht
    obtain ⟨issued, hissued, hlayout⟩ := h.exists_issued hcontains
    exact Validation.typeCause?_of_issued (h.registered t hcontains) hissued hlayout
  · simp [Validation.isOnRecord, recordsOf, h.recorded p hp]

theorem entries (h : Resolved m w terms item r s) :
    ∀ p ∈ r.slots, (terms.capabilities.entry p.type.kind p.mode).isSome = true :=
  fun p hp => (CapabilityTable.gap?_eq_none_iff.1 (h.complete.renders p hp)).2

end Resolved

/-- The layout of the rule for a sturdy type passes its check. -/
theorem problems_of_sturdy {t : InterfaceType} {l : Layout} (h : t.Sturdy)
    (hl : t.layoutOf w = .ok l) : l.problems t = [] := by
  obtain ⟨l', hl', hsound, -⟩ := InterfaceType.exists_sound w h.regular
  obtain rfl : l' = l := Except.ok.inj (hl'.symm.trans hl)
  exact hsound.noProblem

theorem ruledCause?_of_sturdy {t : InterfaceType} (h : t.Sturdy) :
    Validation.ruledCause? w t = none := by
  obtain ⟨l, hl, -⟩ := InterfaceType.exists_sound w h.regular
  simp [Validation.ruledCause?, Validation.layoutCause?, hl, problems_of_sturdy h hl,
    Except.toOption]

end Crossing.Run
