import Crossing.Export.Collection
import Crossing.Proofs.Building.Declared
import Crossing.Proofs.Building.Signature
import Crossing.Proofs.InterfaceType.Nesting

/-!
# Callbacks in the type of an item

The depth of callbacks is checked position by position for a function item, and for the type as a
whole otherwise. For every position of a function there is a label, so the check overlooks none
(`nestingProblems_eq_nil_iff`), and an item whose types build is refused exactly where callbacks
nest (`buildItem_eq_ok_iff`).
-/

namespace Crossing

/-- Callbacks nest inside the type of the item. A function item is no callback itself. -/
def ExportItem.NestsCallbacks (item : ExportItem) (t : InterfaceType) : Prop :=
  match item.kind with
  | .function => ∃ u ∈ t.parts, u.NestsCallbacks
  | .alias | .struct | .enumeration => t.NestsCallbacks

namespace Export

/-- An item of the kind of a function declares one. -/
theorem exists_function_of_mem_collect {module : NativeModule} {markers : List String}
    {item : ExportItem} (h : item ∈ (collect module markers).items)
    (hkind : item.kind = .function) :
    ∃ ps ret receiver isAsync isUnsafe abi,
      item.declaration.body = .function ps ret receiver isAsync isUnsafe abi := by
  obtain ⟨p, -, hof⟩ := isItemOf_of_mem_collect h
  have hbody := hof.kind
  rw [← hof.declaration, hkind] at hbody
  cases hd : item.declaration.body <;> simp_all [DeclarationBody.itemKind?]

end Export

namespace Building

variable {m : TypeModel} {item : ExportItem} {t : InterfaceType}

@[simp]
theorem callbackProblems_eq_nil_iff {label : String} :
    callbackProblems label t = [] ↔ ¬ t.NestsCallbacks := by
  simp [callbackProblems, ← InterfaceType.one_lt_callbackDepth_iff]

/-- Labels enough leave no position out. -/
theorem flatMap_zip_eq_nil_iff (labels : List String) (ts : List InterfaceType)
    (hlength : ts.length ≤ labels.length) :
    ((labels.zip ts).flatMap fun (label, t) => callbackProblems label t) = []
      ↔ ∀ t ∈ ts, ¬ t.NestsCallbacks := by
  conv_rhs => rw [← List.map_snd_zip hlength]
  simp only [List.flatMap_eq_nil_iff, List.forall_mem_map, callbackProblems_eq_nil_iff]

theorem nestingProblems_eq_nil_iff (h : item.kind = .function →
      ∃ params ret failure holding, t = .function params ret failure holding
        ∧ params.length < item.typeRefs.length) :
    nestingProblems item t = [] ↔ ¬ item.NestsCallbacks t := by
  unfold nestingProblems ExportItem.NestsCallbacks
  cases hkind : item.kind with
  | function =>
    obtain ⟨params, ret, failure, holding, rfl, hlength⟩ := h hkind
    have hpositions := flatMap_zip_eq_nil_iff (item.typeRefs.map (·.1)) (params ++ [ret])
      (by simpa using hlength)
    cases failure <;>
      simp [hpositions, InterfaceType.failureParts, or_imp, forall_and, and_assoc]
  | «alias» => simp
  | struct => simp
  | enumeration => simp

theorem reported_unnested_eq_ok_iff {u : InterfaceType} :
    reported item (unnested item (.ok t)) = .ok u ↔ u = t ∧ nestingProblems item t = [] := by
  simp only [unnested]
  split
  · rename_i hnil
    simp [reported, hnil, eq_comm]
  · rename_i hne
    exact iff_of_false (by simp [reported]) fun h => hne h.2

/-- A function item has a label for each parameter of its type and one more. -/
theorem length_params_lt (hnodup : m.index.names.Nodup) {module : NativeModule}
    {markers : List String} (hitem : item ∈ (Export.collect module markers).items)
    (hkind : item.kind = .function) (h : Yields m (.ofItem m item) (.ok t)) :
    ∃ params ret failure holding, t = .function params ret failure holding
      ∧ params.length < item.typeRefs.length := by
  obtain ⟨ps, ret, receiver, isAsync, isUnsafe, abi, hbody⟩ :=
    Export.exists_function_of_mem_collect hitem hkind
  obtain ⟨params, returned, failure, rfl, hparams⟩ := params_of_function hbody hnodup hkind h
  refine ⟨params, returned, failure, .value, rfl, ?_⟩
  have hkept : (keptParameters ps).length ≤ ps.length := List.length_filter_le ..
  rw [← hparams.length_eq, typeRefs_of_function hbody]
  simpa using Nat.lt_succ_of_le hkept

namespace Builder

/-- Building an item is building what it declares, with a look at its callbacks. -/
theorem run_buildItem (b : Builder) : ((buildItem m item).run.run b).1 =
    ((buildDeclared m item).run.run b).1.map fun o => reported item (unnested item o) :=
  run_bindPure ..

end Builder

/-- Where the types of an item build, it is refused exactly if callbacks nest in them. -/
theorem buildItem_eq_ok_iff (hnodup : m.index.names.Nodup) {module : NativeModule}
    {markers : List String} (hitem : item ∈ (Export.collect module markers).items) {b : Builder}
    (hb : b.Faithful m) (h : ((Builder.buildDeclared m item).run.run b).1 = .ok (.ok t))
    {u : InterfaceType} :
    ((Builder.buildItem m item).run.run b).1 = .ok (.ok u) ↔ u = t ∧ ¬ item.NestsCallbacks t := by
  have hyields := ((Builder.keeps_buildDeclared hnodup item).run hb).1
  rw [h] at hyields
  have hnesting := nestingProblems_eq_nil_iff fun hkind =>
    length_params_lt hnodup hitem hkind hyields
  rw [Builder.run_buildItem, h, ← hnesting, ← reported_unnested_eq_ok_iff]
  exact ⟨Except.ok.inj, congrArg Except.ok⟩

/-- Where the types of an item build and callbacks nest in them, the item has diagnostics. -/
theorem buildItem_eq_error_iff (hnodup : m.index.names.Nodup) {module : NativeModule}
    {markers : List String} (hitem : item ∈ (Export.collect module markers).items) {b : Builder}
    (hb : b.Faithful m) (h : ((Builder.buildDeclared m item).run.run b).1 = .ok (.ok t)) :
    (∃ ds, ((Builder.buildItem m item).run.run b).1 = .ok (.error ds)) ↔ item.NestsCallbacks t := by
  have hok {u : InterfaceType} := buildItem_eq_ok_iff hnodup hitem hb h (u := u)
  rw [Builder.run_buildItem, h] at hok ⊢
  cases hr : reported item (unnested item (.ok t)) with
  | ok u => exact iff_of_false (by simp [Except.map, hr]) (hok.1 (congrArg Except.ok hr)).2
  | error ds =>
    refine iff_of_true ⟨ds, congrArg Except.ok hr⟩ (by_contra fun hnests => ?_)
    have hbuilt : reported item (unnested item (.ok t)) = .ok t :=
      Except.ok.inj (hok.2 ⟨rfl, hnests⟩)
    rw [hr] at hbuilt
    cases hbuilt

end Building

/-- The type of a callback that takes a value. -/
def callback (param : TypeExpr) : TypeExpr := .function false none [param] none

end Crossing
