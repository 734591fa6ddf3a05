import Mathlib
import Crossing.Capability.Builtin
import Crossing.Proofs.Run.Outcome

/-!
# The stages of a run agree

Where every item can be built with the standard recognizers, no stage is at fault for what another
stage has done: what is built is registered, laid out and resolved by the same rules that the
validation goes by (`stages_agree`). What is left for the validation to find are helpers that the
target lacks.
-/

namespace Crossing.Run

open Building (Task TypeModel)
open Ownership (IsUnnamed)

/-- Every item of a module can be built, with or without diagnostics. -/
def Buildable (module : NativeModule) (settings : RunSettings) : Prop :=
  let m := modelOf module settings
  ∀ item ∈ (Export.collect module settings.markers).items,
    ∃ r, ((Building.Builder.buildItem m item).run.run (.ofModel m)).1 = .ok r

/-- What the stages say of a resolved item is the same: its types are registered, with layouts on
record that pass their check, and its slots have the layouts that the engine answers with. -/
structure Agrees (s : RunState) (r : ResolvedItem) : Prop where
  registered : ∀ t ∈ r.type.graph, t ∈ s.builder.table.types
  laidOut : ∀ t ∈ r.type.graph, ∃ issued, s.resolver.engine.cache.lookup t = some issued ∧
    issued.layout.problems t = []
  slots : ∀ p ∈ r.slots, (s.resolver.engine.layoutOf p.type).1 = .ok p.layout

variable {module : NativeModule} {settings : RunSettings} {item : ExportItem}
  {outcomes : Except RunFault (List (Findings Diagnostic ResolvedItem))} {s : RunState}
  {ending : Except RunFault RunResult × List Log.Record}

theorem Buildable.not_doomed (h : Buildable module settings)
    (hitem : item ∈ (Export.collect module settings.markers).items) :
    ¬ (Task.ofItem (modelOf module settings) item).Doomed (modelOf module settings) := by
  have hnodup := nodup_names_modelOf module settings
  rw [← Building.doomed_iff hnodup (Building.Builder.faithful_ofModel hnodup)]
  obtain ⟨r, hr⟩ := h item hitem
  rintro ⟨fault, hfault⟩
  rw [hr] at hfault
  cases hfault

theorem isAlignment_wordBits (module : NativeModule) (settings : RunSettings) :
    IsAlignment (max 1 ((modelOf module settings).wordBits / 8)) := by
  have hbits : (modelOf module settings).wordBits = settings.word.bits := rfl
  rw [hbits]
  cases settings.word with
  | bits32 => exact ⟨2, rfl⟩
  | bits64 => exact ⟨3, rfl⟩

theorem Goes.exists_processed {found : List (Findings Diagnostic ResolvedItem)}
    (h : Goes module settings (.ok found) s ending) {r : ResolvedItem} (hr : .ok r ∈ found) :
    ∃ item ∈ (Export.collect module settings.markers).items,
      Processed (modelOf module settings) settings.word (termsOf settings) item (.ok (.ok r)) s := by
  obtain ⟨made, hfst, rfl, hmade⟩ := exists_of_forall₂ h.processed.2.forall₂
  obtain ⟨x, hx, hxr⟩ := List.mem_map.1 hr
  have hprocessed := hmade x hx
  rw [hxr] at hprocessed
  exact ⟨x.1, hfst ▸ List.mem_map_of_mem hx, hprocessed⟩

/-- The items that came through, each with what is known of it. -/
theorem Goes.resolved {found : List (Findings Diagnostic ResolvedItem)}
    (h : Goes module settings (.ok found) s ending) {r : ResolvedItem} (hr : .ok r ∈ found) :
    ∃ item ∈ (Export.collect module settings.markers).items,
      Resolved (modelOf module settings) settings.word (termsOf settings) item r s := by
  obtain ⟨item, hitem, hprocessed⟩ := h.exists_processed hr
  exact ⟨item, hitem, hprocessed.resolved_item h.processed.1.1⟩

theorem mem_filterMap_value? {found : List (Findings Diagnostic ResolvedItem)} {r : ResolvedItem} :
    r ∈ found.filterMap Findings.value? ↔ .ok r ∈ found := by
  rw [List.mem_filterMap]
  constructor
  · rintro ⟨_ | a, ha, heq⟩
    · cases heq
    · exact Option.some.inj heq ▸ ha
  · exact fun h => ⟨_, h, rfl⟩

section Standard

variable (hstandard : settings.recognizers = .standard)
include hstandard

theorem Resolved.sturdy {r : ResolvedItem}
    (h : Resolved (modelOf module settings) settings.word (termsOf settings) item r s) :
    r.type.Sturdy :=
  sturdy_of_answers hstandard (isAlignment_wordBits module settings) h.built

theorem Resolved.agrees {r : ResolvedItem}
    (h : Resolved (modelOf module settings) settings.word (termsOf settings) item r s) :
    Agrees s r := by
  refine ⟨fun t ht => ?_, fun t ht => ?_, fun p hp => ?_⟩
  · exact h.registered t (InterfaceType.mem_graph.1 ht)
  · have hcontains := InterfaceType.mem_graph.1 ht
    obtain ⟨issued, hissued, hlayout⟩ := h.exists_issued hcontains
    exact ⟨issued, hissued, problems_of_sturdy ((h.sturdy hstandard).of_contains hcontains) hlayout⟩
  · exact LayoutEngine.layoutOf_of_lookup (h.recorded p hp)

/-- The validation of what came through finds nothing but helpers that the target lacks. -/
theorem Goes.validated {found : List (Findings Diagnostic ResolvedItem)}
    (h : Goes module settings (.ok found) s ending) :
    ∃ ds, Validation.validate (recordsOf settings s)
        ((found.filterMap Findings.value?).map .ofItem) = .ok ds ∧
      ∀ d ∈ ds, ∃ r, .ok r ∈ found ∧
        ∃ p ∈ r.slots, Validation.LacksHelper (recordsOf settings s) r.item p d := by
  refine ⟨_, Validation.validate_of_consistent (w := settings.word) (fun r hr => ?_)
    fun r hr t ht => ?_, fun d hd => ?_⟩
  · obtain ⟨item, -, hresolved⟩ := h.resolved (mem_filterMap_value?.1 hr)
    exact hresolved.onRecord
  · obtain ⟨item, -, hresolved⟩ := h.resolved (mem_filterMap_value?.1 hr)
    exact ruledCause?_of_sturdy
      ((hresolved.sturdy hstandard).of_contains (InterfaceType.mem_graph.1 ht))
  · obtain ⟨r, hr, hd⟩ := List.mem_flatMap.1 hd
    obtain ⟨item, -, hresolved⟩ := h.resolved (mem_filterMap_value?.1 hr)
    exact ⟨r, mem_filterMap_value?.1 hr, Validation.lacksHelper_of_mem hresolved.entries hd⟩

end Standard

end Run

open Run Building

/-- Where all items can be built with the standard recognizers, whatever else is asked of a run and
whichever way it goes: it ends with a result unless the name of a helper cannot be made; the stages
agree about every item that came through; every union in a built type has a tag, as have all tags
that the builder does not refuse; and the validation finds nothing but helpers that the target
lacks. -/
theorem stages_agree (module : NativeModule) (settings : RunSettings)
    (hstandard : settings.recognizers = .standard) (hbuilds : Buildable module settings)
    {outcomes : Except RunFault (List (Findings Diagnostic ResolvedItem))} {s : RunState}
    {ending : Except RunFault RunResult × List Log.Record}
    (h : Goes module settings outcomes s ending) :
    ((∃ result, ending.1 = .ok result) ∨
        ∃ fault, ending.1 = .error (.ownership fault) ∧
          Ownership.IsUnnamed (termsOf settings) fault) ∧
      (∀ found r, outcomes = .ok found → .ok r ∈ found → Agrees s r) ∧
      (∀ item ∈ (Export.collect module settings.markers).items, ∀ t,
        ((Builder.buildItem (modelOf module settings) item).run.run
          (.ofModel (modelOf module settings))).1 = .ok (.ok t) →
        ∀ name vs, t.Contains (.taggedUnion name vs) →
          ∃ tag, tagLayout (vs.map (·.tag)) = .ok tag) ∧
      (∀ name tags, rangeProblems name tags = [] → ∃ tag, tagLayout tags = .ok tag) ∧
      ∀ found, outcomes = .ok found → ∃ ds result, Validation.validate (recordsOf settings s)
          ((found.filterMap Findings.value?).map .ofItem) = .ok ds ∧
        ending.1 = .ok result ∧
        result.diagnostics = (Export.collect module settings.markers).diagnostics
          ++ found.flatMap Findings.problems ++ ds ∧
        ∀ d ∈ ds, ∃ r, .ok r ∈ found ∧
          ∃ p ∈ r.slots, Validation.LacksHelper (recordsOf settings s) r.item p d := by
  have hword := isAlignment_wordBits module settings
  have hnodup := nodup_names_modelOf module settings
  refine ⟨?ends, ?agrees, ?unions, ?tags, ?validated⟩
  case ends =>
    rw [h.ends]
    cases outcomes with
    | error fault =>
      obtain ⟨item, hitem, hfailed⟩ := h.processed.2.exists_failed
      obtain ⟨f, rfl, hunnamed⟩ := hfailed.unnamed hstandard hword (hbuilds.not_doomed hitem)
      exact .inr ⟨f, rfl, hunnamed⟩
    | ok found =>
      obtain ⟨ds, hds, -⟩ := h.validated hstandard
      rw [finish_of_valid hds]
      exact .inl ⟨_, rfl⟩
  case agrees =>
    rintro found r rfl hr
    obtain ⟨item, -, hresolved⟩ := h.resolved hr
    exact hresolved.agrees hstandard
  case unions =>
    intro item _ t ht name vs hcontains
    have hanswers := answers_of_buildItem hnodup (Builder.faithful_ofModel hnodup) ht
    have hfits := (sturdy_of_answers hstandard hword hanswers _ hcontains).fits
    obtain ⟨tag, htag, -⟩ := exists_tagLayout hfits
    exact ⟨tag, htag⟩
  case tags =>
    intro name tags hrange
    obtain ⟨tag, htag, -⟩ := exists_tagLayout (tagsFit_of_rangeProblems hrange)
    exact ⟨tag, htag⟩
  case validated =>
    rintro found rfl
    obtain ⟨ds, hds, hlacks⟩ := h.validated hstandard
    refine ⟨ds, resultOf module settings (Export.collect module settings.markers) found ds
      s.builder.table.nominals, hds, ?_, rfl, hlacks⟩
    rw [h.ends, finish_of_valid hds]

section Examples

def darting : RunSettings := { capabilities := .dart }

theorem buildable_of_all {module : NativeModule} {settings : RunSettings}
    (h : ((Export.collect module settings.markers).items.all fun item =>
      (((Builder.buildItem (modelOf module settings) item).run.run
        (.ofModel (modelOf module settings))).1).toBool) = true) : Buildable module settings := by
  intro item hitem
  have hbuilt := List.all_eq_true.1 h item hitem
  cases hr : ((Builder.buildItem (modelOf module settings) item).run.run
      (.ofModel (modelOf module settings))).1 with
  | error =>
    rw [hr] at hbuilt
    cases hbuilt
  | ok r => exact ⟨r, rfl⟩

theorem buildable_guarded : Buildable (guarded lone) darting := by
  refine buildable_of_all ?_
  cbv

theorem ok_guarded : (run (guarded lone) darting).1.map (·.ok) = .ok true := by
  cbv

/-- The stages agree about a struct and a function that borrows it. -/
theorem agrees_of_lone : darting.recognizers = .standard ∧ Buildable (guarded lone) darting ∧
    ∃ outcomes s, Goes (guarded lone) darting outcomes s (run (guarded lone) darting) ∧
      (∃ result, (run (guarded lone) darting).1 = .ok result) ∧
      ∀ found r, outcomes = .ok found → .ok r ∈ found → Agrees s r := by
  obtain ⟨outcomes, s, h⟩ := goes_run (guarded lone) darting
  obtain ⟨hends, hagrees, -⟩ := stages_agree (guarded lone) darting rfl buildable_guarded h
  refine ⟨rfl, buildable_guarded, outcomes, s, h, hends.resolve_right ?_, hagrees⟩
  rintro ⟨fault, hfault, -⟩
  have hok := ok_guarded
  rw [hfault] at hok
  cases hok

end Examples

end Crossing
