import Mathlib
import Crossing.Proofs.Run.Agreement

/-!
# Runs fail closed

A run that ends has a bundle exactly when it has no diagnostic, and then the bundle has all
collected items in their order; any other run hands out nothing. An item that did not come through has
diagnostics of its own among those of the run (`run_fails_closed`). The reason is that an outcome of
an item is either the item, resolved, or diagnostics which name it (`IsAccounted`).
-/

namespace Crossing

namespace Run

variable {module : NativeModule} {settings : RunSettings} {collection : Export.Collection}
  {outcomes : Except RunFault (List (Findings Diagnostic ResolvedItem))} {s : RunState}
  {ending : Except RunFault RunResult × List Log.Record}

/-- The outcome of an item is the item, resolved, or else diagnostics that name it. -/
inductive IsAccounted (item : ExportItem) : Findings Diagnostic ResolvedItem → Prop where
  | resolved {r : ResolvedItem} (source : r.item = item) : IsAccounted item (.ok r)
  | refused {ds : List Diagnostic} (some : ds ≠ []) (named : ∀ d ∈ ds, Ownership.Names item d) :
      IsAccounted item (.error ds)

/-- A result comes of outcomes, one for each item, and of what the validation found in them. -/
theorem Goes.exists_validated {result : RunResult} (h : Goes module settings outcomes s ending)
    (hresult : ending.1 = .ok result) : ∃ found ds, outcomes = .ok found ∧
      Validation.validate (recordsOf settings s)
        ((found.filterMap Findings.value?).map .ofItem) = .ok ds ∧
      result = resultOf module settings (Export.collect module settings.markers) found ds
        s.builder.table.nominals := by
  rw [h.ends] at hresult
  cases outcomes with
  | error fault =>
    rw [finish_of_error] at hresult
    cases hresult
  | ok found =>
    cases hvalidated : Validation.validate (recordsOf settings s)
        ((found.filterMap Findings.value?).map .ofItem) with
    | error fault =>
      rw [finish_of_invalid hvalidated] at hresult
      cases hresult
    | ok ds =>
      rw [finish_of_valid hvalidated] at hresult
      exact ⟨found, ds, rfl, hvalidated, (Except.ok.inj hresult).symm⟩

/-- A result comes of outcomes, one for each item, and of some diagnostics. -/
theorem Goes.exists_found {result : RunResult} (h : Goes module settings outcomes s ending)
    (hresult : ending.1 = .ok result) : ∃ found ds, outcomes = .ok found ∧
      result = resultOf module settings (Export.collect module settings.markers) found ds
        s.builder.table.nominals := by
  obtain ⟨found, ds, houtcomes, -, hresultOf⟩ := h.exists_validated hresult
  exact ⟨found, ds, houtcomes, hresultOf⟩

theorem Goes.accounted {found : List (Findings Diagnostic ResolvedItem)}
    (h : Goes module settings (.ok found) s ending) :
    List.Forall₂ IsAccounted (Export.collect module settings.markers).items found := by
  obtain ⟨hlater, hitems⟩ := h.processed
  refine hitems.forall₂.imp fun item r hr => ?_
  cases r with
  | ok r => exact .resolved (hr.resolved_item hlater.1).source
  | error ds => exact .refused hr.refused_item.1 hr.refused_item.2

section Result

variable {found : List (Findings Diagnostic ResolvedItem)} {ds : List Diagnostic}
  {nominals : List String}

theorem ok_resultOf : (resultOf module settings collection found ds nominals).ok = true ↔
    (resultOf module settings collection found ds nominals).diagnostics = [] := by
  unfold RunResult.ok resultOf
  simp only
  split
  · rename_i h
    exact iff_of_true rfl (List.isEmpty_iff.1 h)
  · rename_i h
    exact iff_of_false (by simp) fun hnil => h (List.isEmpty_iff.2 hnil)

/-- Where nothing is wrong with any item, the values are those of all items in their order. -/
theorem map_item_values {items : List ExportItem} (h : List.Forall₂ IsAccounted items found)
    (hnone : found.flatMap Findings.problems = []) :
    (found.filterMap Findings.value?).map (·.item) = items := by
  induction h with
  | nil => rfl
  | @cons item r items found hr _ ih =>
    rw [List.flatMap_cons, List.append_eq_nil_iff] at hnone
    cases hr with
    | resolved source =>
      rw [List.filterMap_cons, Findings.value?]
      simp only [List.map_cons, source, ih hnone.2]
    | refused hsome named => exact absurd hnone.1 hsome

theorem items_resultOf (hok : (resultOf module settings collection found ds nominals).ok = true) :
    found.flatMap Findings.problems = [] ∧
      (resultOf module settings collection found ds nominals).items
        = found.filterMap Findings.value? := by
  have hnil := ok_resultOf.1 hok
  have hempty := List.isEmpty_iff.2 hnil
  unfold resultOf RunResult.items at *
  simp only at hnil hempty ⊢
  rw [if_pos hempty]
  simp only [List.append_eq_nil_iff] at hnil
  exact ⟨hnil.1.2, rfl⟩

/-- What is wrong with an item is told in the result. -/
theorem mem_diagnostics {problems : List Diagnostic} (h : .error problems ∈ found) {d : Diagnostic}
    (hd : d ∈ problems) : d ∈ (resultOf module settings collection found ds nominals).diagnostics :=
  List.mem_append_left _ (List.mem_append_right _ (List.mem_flatMap.2 ⟨_, h, hd⟩))

end Result

end Run

open Run

/-- A run that ends, whichever way it goes, has no diagnostic if and only if it has a bundle; the
items of the bundle are then the collected ones in their order. Otherwise it has no items, and
nothing is handed out for any target. And every collected item is resolved, or it has diagnostics of
its own that name it. -/
theorem run_fails_closed {module : NativeModule} {settings : RunSettings}
    {outcomes : Except RunFault (List (Findings Diagnostic ResolvedItem))} {s : RunState}
    {ending : Except RunFault RunResult × List Log.Record} {result : RunResult}
    (h : Goes module settings outcomes s ending) (hresult : ending.1 = .ok result) :
    (result.ok = true ↔ result.diagnostics = []) ∧
      (result.ok = true ↔ ∃ bundle, result.bundle = some bundle) ∧
      (result.ok = true → result.items.map (·.item) = result.collected) ∧
      (result.ok = false → result.items = [] ∧ ∀ target, handOff result target =
        (.ok none, [Log.info "rua.pipeline" ("not emitting: run failed with "
          ++ toString result.diagnostics.length ++ " diagnostic(s)")])) ∧
      result.collected = (Export.collect module settings.markers).items ∧
      ∃ found, outcomes = .ok found ∧ List.Forall₂ (fun item outcome =>
        (∃ r, outcome = .ok r ∧ r.item = item) ∨ ∃ ds, outcome = .error ds ∧ ds ≠ [] ∧
          ∀ d ∈ ds, d ∈ result.diagnostics ∧ d.item = some item.qualifiedName)
        result.collected found := by
  obtain ⟨found, ds, rfl, hresultOf⟩ := h.exists_found hresult
  have haccounted := h.accounted
  have hcollected : result.collected = (Export.collect module settings.markers).items := by
    rw [hresultOf]
    rfl
  refine ⟨?diagnostics, ?bundle, fun hok => ?items, fun hfailed => ?failed, hcollected, found, rfl,
    ?accounted⟩
  case diagnostics =>
    rw [hresultOf]
    exact ok_resultOf
  case bundle => rw [RunResult.ok, Option.isSome_iff_exists]
  case items =>
    rw [hresultOf] at hok ⊢
    obtain ⟨hnone, hitems⟩ := items_resultOf hok
    rw [hitems]
    exact map_item_values haccounted hnone
  case failed =>
    have hbundle : result.bundle = none :=
      Option.not_isSome_iff_eq_none.1 (ne_true_of_eq_false hfailed)
    refine ⟨by rw [RunResult.items, hbundle], fun target => ?_⟩
    rw [handOff, hbundle]
  case accounted =>
    have hmem : List.Forall₂ (fun outcome item => outcome ∈ found ∧ IsAccounted item outcome) found
        (Export.collect module settings.markers).items :=
      (List.forall₂_and_left _ _).2 ⟨fun _ h => h, haccounted.flip⟩
    rw [hcollected]
    refine hmem.flip.imp ?_
    rintro item outcome ⟨houtcome, hitem⟩
    cases hitem with
    | resolved source => exact .inl ⟨_, rfl, source⟩
    | refused hsome named =>
      refine .inr ⟨_, rfl, hsome, fun d hd => ⟨?_, named d hd⟩⟩
      rw [hresultOf]
      exact mem_diagnostics houtcome hd

section Examples

def byValue : TypeExpr := .ofNames ["Handle"]

theorem failed_byValue : (run (guarded byValue) darting).1.map (·.ok) = .ok false := by
  cbv

theorem Run.exists_result {ending : Except RunFault RunResult × List Log.Record} {ok : Bool}
    (h : ending.1.map (·.ok) = .ok ok) : ∃ result, ending.1 = .ok result ∧ result.ok = ok := by
  cases hresult : ending.1 with
  | error => rw [hresult] at h; cases h
  | ok result =>
    rw [hresult] at h
    exact ⟨result, rfl, Except.ok.inj h⟩

/-- A function that borrows a struct crosses with the struct. A function that takes it by value does
not, and then nothing is handed out, although the struct itself could cross. -/
theorem fails_closed_byValue :
    (∃ result, (run (guarded lone) darting).1 = .ok result ∧ result.diagnostics = [] ∧
      result.items.map (·.item) = (Export.collect (guarded lone) darting.markers).items) ∧
    ∃ result, (run (guarded byValue) darting).1 = .ok result ∧ result.diagnostics ≠ [] ∧
      result.items = [] ∧ (handOff result "dart").1 = .ok none := by
  obtain ⟨result, hresult, hok⟩ := exists_result ok_guarded
  obtain ⟨outcomes, s, h⟩ := goes_run (guarded lone) darting
  obtain ⟨hnone, -, hitems, -, hcollected, -⟩ := run_fails_closed h hresult
  refine ⟨⟨result, hresult, hnone.1 hok, (hitems hok).trans hcollected⟩, ?_⟩
  obtain ⟨result', hresult', hfailed⟩ := exists_result failed_byValue
  obtain ⟨outcomes', s', h'⟩ := goes_run (guarded byValue) darting
  obtain ⟨hnone', -, -, hempty, -⟩ := run_fails_closed h' hresult'
  refine ⟨result', hresult', fun hnil => ?_, (hempty hfailed).1, ?_⟩
  · rw [hnone'.2 hnil] at hfailed
    cases hfailed
  · rw [(hempty hfailed).2]

end Examples

end Crossing
