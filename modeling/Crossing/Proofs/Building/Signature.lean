import Crossing.Proofs.Building.Expression
import Crossing.Proofs.Building.Made

/-!
# What becomes of a signature

A function item has its parameters and its return type under one list of labels, where the return
type is labelled `return`. A parameter of that name is taken for another return type and left out;
the others build in their order (`params_of_function`).
-/

namespace Crossing.Building

variable {m : TypeModel} {item : ExportItem} {ps : List Parameter} {ret : Option TypeExpr}
  {receiver : Option String} {isAsync isUnsafe : Bool} {abi : Option String}

/-- The parameters that are told from the return type. -/
def keptParameters (ps : List Parameter) : List Parameter := ps.filter (·.name != "return")

theorem keptParameters_eq_self_iff : keptParameters ps = ps ↔ ∀ p ∈ ps, p.name ≠ "return" := by
  simp [keptParameters, List.filter_eq_self]

theorem length_keptParameters_iff :
    (keptParameters ps).length = ps.length ↔ ∀ p ∈ ps, p.name ≠ "return" := by
  simp [keptParameters, List.length_filter_eq_length_iff]

section Function

variable (h : item.declaration.body = .function ps ret receiver isAsync isUnsafe abi)
include h

theorem typeRefs_of_function :
    item.typeRefs = ps.map (fun p => (p.name, p.type)) ++ [("return", ret.getD .unit)] := by
  simp only [ExportItem.typeRefs, Declaration.typeRefs, h]

theorem parameterTypes_of_function :
    parameterTypes item = (ps.filter (·.name != "return")).map (·.type) := by
  simp [parameterTypes, typeRefs_of_function h, List.filter_map, Function.comp_def]

theorem returnType?_of_function : returnType? item = some (ret.getD .unit) := by
  simp [returnType?, typeRefs_of_function h]

theorem labels_of_function : (item.typeRefs.map (·.1)).filter (· != "return")
    = (keptParameters ps).map (·.name) := by
  simp [typeRefs_of_function h, keptParameters, List.filter_map, Function.comp_def]

/-- A function item has the types of the parameters that are kept, in their order. -/
theorem params_of_function (hnodup : m.index.names.Nodup) (hkind : item.kind = .function)
    {t : InterfaceType} (hyields : Yields m (.ofItem m item) (.ok t)) :
    ∃ params returned failure, t = .function params returned failure .value
      ∧ List.Forall₂ (fun p u => Builds m (m.site item.scope) p.type u) (keptParameters ps)
        params := by
  simp only [Task.ofItem, hkind] at hyields
  obtain ⟨made, params, rs, hfst, hmade, hsnd, -, hgather⟩ :=
    fits_function_iff.1 (yields_function_iff.1 hyields)
  obtain ⟨⟨returned, failure⟩, -, rfl⟩ := Option.map_eq_some_iff.1 hgather
  refine ⟨params, returned, failure, rfl, ?_⟩
  have hparams := forall₂_of_made (P := fun e o =>
    Yields m (.follow (m.site item.scope) (m.recipe item.scope e)) o) hmade hsnd
  rw [hfst, parameterTypes_of_function h, List.forall₂_map_left_iff] at hparams
  exact hparams.imp fun p u hp => (builds_iff hnodup).2 hp

end Function

end Crossing.Building
