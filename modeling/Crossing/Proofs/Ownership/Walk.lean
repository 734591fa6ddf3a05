import Mathlib
import Crossing.Proofs.InterfaceType.Preorder
import Crossing.Proofs.Nominal.Walk
import Crossing.Proofs.Ownership.Coherence
import Crossing.Proofs.Ownership.Paths

/-!
# Slots along the walk

The resolver goes into the signature of a function in a way of its own, and into everything else by
its parts. Either way the slots of an item hold its type and all that is inside it in preorder, as
often as each occurs there (`map_type_slots`). So the walk over the type, which meets each type
once, meets what the slots hold (`InterfaceType.graph_exact`).
-/

namespace Crossing

namespace Slot

theorem map_type_preorder {p : Slot} (hparts : p.children.map (·.type) = p.type.parts)
    (hchildren : ∀ c ∈ p.children, c.preorder.map (·.type) = c.type.preorder) :
    p.preorder.map (·.type) = p.type.preorder := by
  rw [preorder_eq, InterfaceType.preorder_eq, ← hparts, List.map_cons, List.map_flatMap,
    List.flatMap_map]
  exact congrArg _ (List.flatMap_congr hchildren)

theorem Traced.map_type {path : String} {p : Slot} (h : Traced path p) :
    p.preorder.map (·.type) = p.type.preorder := by
  induction h with
  | intro _ hparts _ ih =>
    refine map_type_preorder ?_ ih
    rw [InterfaceType.parts, ← hparts, List.map_map]
    rfl

end Slot

namespace Ownership

variable {terms : Terms} {item : ExportItem} {t : InterfaceType} {b : Resolver} {r : ResolvedItem}

/-- The slots of a resolved item hold the types of a recursive walk, in its order. -/
theorem map_type_slots (h : ((resolveItem terms item t).run.run b).1 = .ok (.ok r)) :
    r.slots.map (·.type) = t.preorder := by
  obtain ⟨-, -, htype, -⟩ := rooted_of_resolveItem h
  obtain ⟨-, hparts, htraced⟩ := traced_of_resolveItem h
  have htypes : r.root.children.map (·.type) = r.root.type.parts := by
    rw [htype, ← map_snd_rootParts item t, ← hparts, List.map_map]
    rfl
  rw [← htype]
  exact Slot.map_type_preorder htypes fun c hc => (htraced c hc).map_type

end Ownership

/-- The walk below a root meets each type that lies there, each once, and in the order in which a
recursive walk first comes to them. It meets what the slots of any item of the type hold, whatever
the item was resolved with and after. -/
theorem InterfaceType.graph_exact (t : InterfaceType) :
    (∀ u, u ∈ t.graph ↔ t.Contains u) ∧ t.graph.Nodup ∧ t.graph = t.preorder.eraseDups
      ∧ ∀ terms item b r, ((Ownership.resolveItem terms item t).run.run b).1 = .ok (.ok r) →
        ∀ u, u ∈ t.graph ↔ ∃ p ∈ r.slots, p.type = u := by
  refine ⟨fun u => mem_graph, ?_, graph_eq_eraseDups t, fun terms item b r h u => ?_⟩
  · rw [graph_eq_eraseDups]
    exact nodup_eraseDups _
  · rw [graph_eq_eraseDups, List.mem_eraseDups, ← Ownership.map_type_slots h, List.mem_map]

section Examples

/-- Takes a text, a text beside a sequence of texts, and a callback that takes a text. The text
occurs at five places. -/
def repeating : InterfaceType :=
  .function [.text .utf8 .owned,
    .record "" [⟨"0", .text .utf8 .owned⟩, ⟨"1", .buffer (.text .utf8 .owned) .owned⟩],
    .function [.text .utf8 .owned] .unit .never .value] (.text .utf8 .owned) .never .value

theorem graph_exact_repeating :
    (∀ u, u ∈ repeating.graph ↔ repeating.Contains u) ∧ repeating.graph.Nodup
      ∧ repeating.graph = repeating.preorder.eraseDups ∧ repeating.graph.length = 6
      ∧ ∃ r, ((Ownership.resolveItem { capabilities := renderer } exported repeating).run.run
          { engine := { word := .bits64 } }).1 = .ok (.ok r)
        ∧ r.slots.length = 10 ∧ ∀ u, u ∈ repeating.graph ↔ ∃ p ∈ r.slots, p.type = u := by
  obtain ⟨hmem, hnodup, hpreorder, hslots⟩ := InterfaceType.graph_exact repeating
  refine ⟨hmem, hnodup, hpreorder, ?once, ?r, ?resolved, ?count, hslots _ _ _ ?r ?resolved⟩
  case once => cbv
  case resolved =>
    cbv
    rfl
  case count => rfl

end Examples

end Crossing
