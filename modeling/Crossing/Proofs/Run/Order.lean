import Crossing.Proofs.Run.Agreement
import Crossing.Proofs.Run.Unnumbered
import Crossing.Proofs.Schedule

/-!
# The order of work makes no difference

A builder that remembers nothing is the reference for what an item comes to. Where all items can be
built, any number of them, in any order and as often as one likes, processed at once with one
builder and one resolver in any interleaving of their steps, come to the same as they do by
themselves with the reference (`run_in_any_order`). So all ways that a run can go end alike (`Alike`), and every
endless schedule with a worker gets there.
-/

namespace Crossing

namespace Run

open Building (Task TypeModel)

/-- A builder that remembers nothing: it looks up every path and builds all contents anew. -/
def forgetful (m : TypeModel) : Building.Builder :=
  { Building.Builder.ofModel m with forgets := true }

/-- What building an item comes to by itself, with nothing remembered. -/
def referenceBuild (m : TypeModel) (item : ExportItem) :
    Except Building.Fault (Findings Diagnostic InterfaceType) :=
  ((Building.Builder.buildItem m item).run.run (forgetful m)).1

/-- What processing an item comes to by itself, with nothing remembered. -/
def referenceProcess (m : TypeModel) (settings : RunSettings) (collection : Export.Collection)
    (item : ExportItem) : Except RunFault (Findings Diagnostic ResolvedItem) :=
  ((process m (termsOf settings) item).run.run
    { start m settings collection with builder := forgetful m }).1

/-- Two runs end alike: with the same result or fault up to the numbers of layouts, the same
document, and the same warnings. -/
structure Alike (e e' : Except RunFault RunResult × List Log.Record) : Prop where
  result : e.1.map RunResult.unnumbered = e'.1.map RunResult.unnumbered
  document : e.1.map (fun r => r.bundle.map Bundle.toJson)
    = e'.1.map (fun r => r.bundle.map Bundle.toJson)
  warned : warnings e.2 = warnings e'.2

variable {m : TypeModel} {settings : RunSettings} {collection : Export.Collection}
  {item : ExportItem}

section Reference

theorem building_forgetful (h : m.index.names.Nodup) : (building m).Inv (forgetful m) := by
  obtain ⟨hfaithful, hregistering⟩ := building_ofModel h
  exact ⟨⟨hfaithful.handles, hfaithful.means, hfaithful.remembers⟩, hregistering⟩

variable (hnodup : m.index.names.Nodup)
include hnodup

theorem keeps_buildItem_reference (hbuilds : ¬ (Task.ofItem m item).Doomed m) :
    Keeps (Building.Builder.Faithful m) (Building.Builder.buildItem m item)
      (· = referenceBuild m item) := by
  have hanswer : ∀ a : Except Building.Fault _, OnValue (Building.Answers m item) a ∧
      OnFailure ((Task.ofItem m item).DoomedBy m) a → ∃ r, a = .ok r ∧ Building.Answers m item r := by
    rintro (fault | r) ⟨hvalue, hfailure⟩
    · exact absurd hfailure.doomed hbuilds
    · exact ⟨r, rfl, hvalue⟩
  have hkeeps := Building.Builder.keeps_buildItem_answer hnodup item
  obtain ⟨r, hr, hreference⟩ := hanswer _ (hkeeps.run (building_forgetful hnodup).1).1
  refine hkeeps.mono fun a ha => ?_
  obtain ⟨r', rfl, hr'⟩ := hanswer a ha
  rw [referenceBuild, hr, hreference.unique hr']

theorem processed_reference (settings : RunSettings) (collection : Export.Collection)
    (item : ExportItem) : ∃ s, Processed m settings.word (termsOf settings) item
    (referenceProcess m settings collection item) s := by
  have hprocess : Ensures (running m settings.word fun _ => True)
      { start m settings collection with builder := forgetful m }
      (process m (termsOf settings) item) (Processed m settings.word (termsOf settings) item) :=
    ensures_process hnodup item _ fun _ _ _ _ => trivial
  exact ⟨_, (hprocess.run ⟨building_forgetful hnodup, resolving_start settings.word⟩).2⟩

theorem Processed.eq_reference {r : Except RunFault (Findings Diagnostic ResolvedItem)}
    {s : RunState} (hbuilds : ¬ (Task.ofItem m item).Doomed m)
    (h : Processed m settings.word (termsOf settings) item r s) :
    r.map unnumbered = (referenceProcess m settings collection item).map unnumbered := by
  obtain ⟨s', hreference⟩ := processed_reference hnodup settings collection item
  exact h.unique hbuilds hreference

end Reference

section Ends

variable {module : NativeModule} {found found' : List (Findings Diagnostic ResolvedItem)}
  {s s' : RunState} {ending ending' : Except RunFault RunResult × List Log.Record}
  {outcomes outcomes' : Except RunFault (List (Findings Diagnostic ResolvedItem))}

/-- Whichever way a run goes, its items come to what they come to by themselves. -/
theorem Goes.eq_reference (hbuilds : Buildable module settings)
    (h : Goes module settings outcomes s ending) :
    let collection := Export.collect module settings.markers
    outcomes.map (List.map unnumbered) = collection.items.mapM fun item =>
      (referenceProcess (modelOf module settings) settings collection item).map unnumbered := by
  have hnodup := nodup_names_modelOf module settings
  exact (h.processed.2.imp fun item hitem r hr =>
    hr.eq_reference hnodup (hbuilds.not_doomed hitem)).eq_mapM

/-- The hints that are noted in the end are those that the rules make use of. -/
theorem Goes.mem_applied (h : Goes module settings (.ok found) s ending) (hint : String × String) :
    hint ∈ s.resolver.applied ↔ Hinted (modelOf module settings) (termsOf settings)
      (Export.collect module settings.markers).items hint := by
  obtain ⟨hlater, hitems⟩ := h.processed
  refine ⟨hlater.1.2.2 hint, ?_⟩
  rintro ⟨item, hitem, t, ht, hhint⟩
  obtain ⟨made, hfst, -, hmade⟩ := exists_of_forall₂ hitems.forall₂
  rw [← hfst] at hitem
  obtain ⟨x, hx, rfl⟩ := List.mem_map.1 hitem
  exact (hmade x hx).noted ht hint hhint

theorem Goes.unusedHints_eq (h : Goes module settings (.ok found) s ending)
    (h' : Goes module settings (.ok found') s' ending') :
    s.resolver.unusedHints (termsOf settings) = s'.resolver.unusedHints (termsOf settings) := by
  have hcontains (hint) :
      s.resolver.applied.contains hint = s'.resolver.applied.contains hint := by
    rw [Bool.eq_iff_iff, List.contains_iff_mem, List.contains_iff_mem, h.mem_applied,
      h'.mem_applied]
  unfold Ownership.Resolver.unusedHints
  simp only [hcontains]

theorem Goes.warnings_log (h : Goes module settings outcomes s ending) :
    warnings s.log = warnings (Export.collect module settings.markers).log :=
  h.processed.1.2.2.2

theorem Goes.nominals (h : Goes module settings outcomes s ending) :
    s.builder.table.nominals
      = (modelOf module settings).index.handled (modelOf module settings).graph :=
  h.processed.1.1.1.1.handles

theorem warnings_append (l l' : List Log.Record) :
    warnings (l ++ l') = warnings l ++ warnings l' := List.filter_append ..

theorem Alike.of_result {e e' : Except RunFault RunResult × List Log.Record}
    (hresult : e.1.map RunResult.unnumbered = e'.1.map RunResult.unnumbered)
    (hwarnings : warnings e.2 = warnings e'.2) : Alike e e' := by
  have hdocument : ∀ a : Except RunFault RunResult, a.map (fun r => r.bundle.map Bundle.toJson) =
      (a.map RunResult.unnumbered).map (fun r => r.bundle.map Bundle.toJson) := by
    rintro (fault | r)
    · rfl
    · cases hbundle : r.bundle <;>
        simp [Except.map, RunResult.unnumbered, hbundle, Bundle.toJson_unnumbered]
  exact ⟨hresult, by rw [hdocument, hresult, ← hdocument], hwarnings⟩

theorem warnings_hintedLog : warnings (hintedLog settings s) = warnings s.log ++
    warnings ((s.resolver.unusedHints (termsOf settings)).map hintRecord) := warnings_append ..

/-- Nobody is warned behind the hints. -/
theorem warnings_concluded (records : List Log.Record) (items : List Validation.Submission)
    (ds : List Diagnostic) (result : RunResult) :
    warnings (records ++ [Validation.record items ds] ++ [result.record]) = warnings records := by
  have hvalidated : warnings [Validation.record items ds] = [] := rfl
  have hresult : warnings [result.record] = [] := rfl
  rw [warnings_append, warnings_append, hvalidated, hresult, List.append_nil, List.append_nil]

theorem Goes.warnings_hintedLog (h : Goes module settings (.ok found) s ending)
    (h' : Goes module settings (.ok found') s' ending') :
    warnings (hintedLog settings s) = warnings (hintedLog settings s') := by
  rw [Run.warnings_hintedLog, Run.warnings_hintedLog, h.warnings_log, h'.warnings_log,
    h.unusedHints_eq h']

theorem Goes.onRecord (h : Goes module settings (.ok found) s ending) :
    ∀ r ∈ found.filterMap Findings.value?,
      Validation.OnRecord settings.word (recordsOf settings s) r := by
  intro r hr
  obtain ⟨item, -, hresolved⟩ := h.resolved (mem_filterMap_value?.1 hr)
  exact hresolved.onRecord

/-- All ways that a run can go end alike. -/
theorem Goes.alike (hbuilds : Buildable module settings)
    (h : Goes module settings outcomes s ending) (h' : Goes module settings outcomes' s' ending') :
    Alike ending ending' := by
  have hsame : outcomes.map (List.map unnumbered) = outcomes'.map (List.map unnumbered) :=
    (h.eq_reference hbuilds).trans (h'.eq_reference hbuilds).symm
  rw [h.ends, h'.ends]
  rcases outcomes with fault | found <;> rcases outcomes' with fault' | found'
  · obtain rfl := Except.error.inj hsame
    exact .of_result rfl (h.warnings_log.trans h'.warnings_log.symm)
  · cases hsame
  · cases hsame
  have hfound : found.map unnumbered = found'.map unnumbered := Except.ok.inj hsame
  have hvalues : (found.filterMap Findings.value?).map ResolvedItem.unnumbered =
      (found'.filterMap Findings.value?).map ResolvedItem.unnumbered := by
    rw [← values_unnumbered, ← values_unnumbered, hfound]
  -- The two records differ in the numbers of their layouts, so neither validation is that of the
  -- other; both are what the rules say of the items without these numbers.
  have hcapabilities : (recordsOf settings s).capabilities = (recordsOf settings s').capabilities :=
    rfl
  have hvalidated :=
    Validation.validate_eq_of_unnumbered hcapabilities.symm h.onRecord h'.onRecord hvalues
  have hwarned := h.warnings_hintedLog h'
  cases hds : Validation.validate (recordsOf settings s)
      ((found.filterMap Findings.value?).map .ofItem) with
  | error fault =>
    rw [finish_of_invalid hds, finish_of_invalid (hvalidated.symm.trans hds)]
    exact .of_result rfl hwarned
  | ok ds =>
    rw [finish_of_valid hds, finish_of_valid (hvalidated.symm.trans hds)]
    refine .of_result ?_ ?_
    · simp only [Except.map, unnumbered_resultOf, hfound, h.nominals, h'.nominals]
    · rw [warnings_concluded, warnings_concluded, hwarned]

end Ends

end Run

open Run Building

/-- Where all items of a module can be built, processing any of them with one builder and one
resolver, in any order, with repetitions and in any interleaving, gives each the type that it gets
from a builder without memory, and the same slots and diagnostics up to the numbers of layouts. So a
run with workers ends like the run without them, whatever its schedule is, and it ends. -/
theorem run_in_any_order (module : NativeModule) (settings : RunSettings)
    (hbuilds : Buildable module settings) :
    let m := modelOf module settings
    let collection := Export.collect module settings.markers
    let first := start m settings collection
    (∀ jobs : List ExportItem, (∀ item ∈ jobs, item ∈ collection.items) →
      Steps.Settles first.builder jobs (fun item => (Builder.buildItem m item).run)
          (fun item answer => answer = referenceBuild m item) ∧
        Steps.Settles first jobs (fun item => (process m (termsOf settings) item).run)
          fun item answer => answer.map unnumbered
            = (referenceProcess m settings collection item).map unnumbered) ∧
      (∀ workers schedule ending, runInterleaved workers schedule module settings = some ending →
        Alike ending (run module settings)) ∧
      ∀ workers, 0 < workers → ∀ choices : Nat → Nat, ∃ n ending,
        runInterleaved workers ((List.range n).map choices) module settings = some ending := by
  intro m collection first
  have hnodup := nodup_names_modelOf module settings
  have hinv : ∀ allowed, (running m settings.word allowed).Inv first := fun _ =>
    running_start hnodup settings collection
  have hprocess : ∀ jobs : List ExportItem, (∀ item ∈ jobs, item ∈ collection.items) →
      Steps.Settles first jobs (fun item => (process m (termsOf settings) item).run)
        fun item answer => answer.map unnumbered
          = (referenceProcess m settings collection item).map unnumbered :=
    fun jobs hjobs => Steps.settles_of_upholds (hinv fun _ => True)
      (fun item _ => ensures_process hnodup item first fun _ _ _ _ => trivial)
      fun item hitem _ _ hr => hr.eq_reference hnodup (hbuilds.not_doomed (hjobs item hitem))
  refine ⟨fun jobs hjobs => ⟨?built, hprocess jobs hjobs⟩, fun workers schedule ending h => ?alike,
    fun workers hworkers choices => ?ends⟩
  case built =>
    exact Steps.settles_of_upholds (D := .ofInv (Builder.Faithful m)) (building_ofModel hnodup).1
      (fun item hitem => keeps_buildItem_reference hnodup (hbuilds.not_doomed (hjobs item hitem)) _)
      fun _ _ _ _ hr => hr
  case alike =>
    obtain ⟨outcomes, s, hgoes⟩ := exists_goes h
    obtain ⟨outcomes', s', hrun⟩ := goes_run module settings
    exact hgoes.alike hbuilds hrun
  case ends =>
    obtain ⟨n, answers, hanswers⟩ :=
      (hprocess collection.items fun _ h => h).2 workers hworkers choices
    refine ⟨n, Option.isSome_iff_exists.1 ?_⟩
    simp only [runInterleaved, throughInterleaved, Option.isSome_map]
    rw [hanswers]
    rfl

/-- With two workers that take turns, a struct and a function that borrows it end like one after the
other. -/
theorem in_any_order_of_lone : Buildable (guarded lone) darting ∧
    (∀ schedule ending, runInterleaved 2 schedule (guarded lone) darting = some ending →
      Alike ending (run (guarded lone) darting)) ∧
    ∃ n ending, runInterleaved 2 ((List.range n).map id) (guarded lone) darting = some ending := by
  obtain ⟨-, halike, hends⟩ := run_in_any_order (guarded lone) darting buildable_guarded
  exact ⟨buildable_guarded, halike 2, hends 2 (by decide) id⟩

end Crossing
