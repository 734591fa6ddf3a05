import Crossing.Proofs.Run.Process

/-!
# Going through a run

A run goes its way with one worker or with several (`Goes`). Either way the items are processed as
they are one by one (`Goes.processed`), and the end of the run is made of what became of them and of
the state behind them (`finish_of_ok`). The hints that are noted then are those that the rules make
use of (`Goes.mem_applied`).
-/

namespace Crossing

/-- Answers that belong to the elements of a list come together as those of a loop. -/
theorem OnEach.of_forall₂ {ε σ α β : Type} {R : α → Except ε β → σ → Prop} {xs : List α}
    {rs : List (Except ε β)} {s : σ} (h : List.Forall₂ (fun x r => R x r s) xs rs) :
    OnEach R xs (rs.mapM id) s := by
  induction h with
  | nil => exact .nil
  | @cons x r xs rs hx _ ih =>
    rw [List.mapM_cons]
    cases r with
    | error e => exact .failed hx
    | ok y =>
      cases hrs : rs.mapM id with
      | error e => exact .later hx (hrs ▸ ih)
      | ok ys => exact .cons hx (hrs ▸ ih)

namespace Run

open Building (TypeModel)

/-- The hints that items of a run take a mode from by the rules. -/
def Hinted (m : TypeModel) (terms : Ownership.Terms) (items : List ExportItem)
    (h : String × String) : Prop :=
  ∃ item ∈ items, ∃ t, Building.Answers m item (.ok t) ∧ h ∈ Ownership.hintedItem terms item t

/-- A run, with what became of its items, the state behind them and the end. -/
inductive Goes (module : NativeModule) (settings : RunSettings) :
    Except RunFault (List (Findings Diagnostic ResolvedItem)) → RunState →
      Except RunFault RunResult × List Log.Record → Prop where
  | alone {outcomes : Except RunFault (List (Findings Diagnostic ResolvedItem))} {s : RunState}
      (items : through (modelOf module settings) settings (Export.collect module settings.markers)
        = (outcomes, s)) :
      Goes module settings outcomes s (run module settings)
  | together {workers : Nat} {schedule : List Nat}
      {outcomes : Except RunFault (List (Findings Diagnostic ResolvedItem))} {s : RunState}
      {ending : Except RunFault RunResult × List Log.Record}
      (items : throughInterleaved workers schedule (modelOf module settings) settings
        (Export.collect module settings.markers) = some (outcomes, s))
      (ends : runInterleaved workers schedule module settings = some ending) :
      Goes module settings outcomes s ending

theorem goes_run (module : NativeModule) (settings : RunSettings) :
    ∃ outcomes s, Goes module settings outcomes s (run module settings) :=
  ⟨_, _, .alone rfl⟩

theorem exists_goes {module : NativeModule} {settings : RunSettings} {workers : Nat}
    {schedule : List Nat} {ending : Except RunFault RunResult × List Log.Record}
    (h : runInterleaved workers schedule module settings = some ending) :
    ∃ outcomes s, Goes module settings outcomes s ending := by
  obtain ⟨⟨outcomes, s⟩, hitems, -⟩ := Option.map_eq_some_iff.1 h
  exact ⟨outcomes, s, .together hitems h⟩

section Start

variable {m : TypeModel} {w : WordSize} {allowed : String × String → Prop}

theorem building_ofModel (h : m.index.names.Nodup) : (building m).Inv (.ofModel m) :=
  ⟨Building.Builder.faithful_ofModel h, Building.Builder.registering_ofModel m⟩

theorem resolving_start (w : WordSize) :
    (Ownership.resolving w allowed).Inv { engine := { word := w } } :=
  ⟨⟨rfl, by simp⟩, by simp⟩

theorem running_start (h : m.index.names.Nodup) (settings : RunSettings)
    (collection : Export.Collection) :
    (running m settings.word allowed).Inv (start m settings collection) :=
  ⟨building_ofModel h, resolving_start settings.word⟩

end Start

section Items

variable {m : TypeModel} (settings : RunSettings) (collection : Export.Collection)

/-- One after the other, the items are processed. -/
theorem processed_through (hnodup : m.index.names.Nodup) :
    let terms := termsOf settings
    let gone := through m settings collection
    (running m settings.word (Hinted m terms collection.items)).Later
        (start m settings collection) gone.2 ∧
      OnEach (Processed m settings.word terms) collection.items gone.1 gone.2 := by
  intro terms gone
  have hitems : Ensures (running m settings.word (Hinted m terms collection.items))
      (start m settings collection) (collection.items.mapM (process m terms))
      (OnEach (Processed m settings.word terms) collection.items) :=
    Ensures.mapM fun item hitem s _ => ensures_process hnodup item s
      fun t ht h hh => ⟨item, hitem, t, ht, hh⟩
  exact hitems.run (running_start hnodup settings collection)

variable {settings collection}

/-- Several at a time, the items are processed as they are one by one. -/
theorem processed_throughInterleaved (hnodup : m.index.names.Nodup) {workers : Nat}
    {schedule : List Nat} {outcomes : Except RunFault (List (Findings Diagnostic ResolvedItem))}
    {s : RunState}
    (h : throughInterleaved workers schedule m settings collection = some (outcomes, s)) :
    (running m settings.word (Hinted m (termsOf settings) collection.items)).Later
        (start m settings collection) s ∧
      OnEach (Processed m settings.word (termsOf settings)) collection.items outcomes s := by
  have hjobs : List.Forall₂ (fun item x => Steps.Upholds
      (running m settings.word (Hinted m (termsOf settings) collection.items))
      (Processed m settings.word (termsOf settings) item) x (start m settings collection))
      collection.items
      (collection.items.map fun item => (process m (termsOf settings) item).run) := by
    rw [List.forall₂_map_right_iff, List.forall₂_same]
    exact fun item hitem => ensures_process hnodup item _
      fun t ht h hh => ⟨item, hitem, t, ht, hh⟩
  obtain ⟨answers, hanswers, heq⟩ := Option.map_eq_some_iff.1 h
  obtain ⟨hlater, hpool⟩ := Steps.forall₂_interleave workers schedule
    (running_start hnodup settings collection) hjobs
  obtain ⟨rfl, rfl⟩ := Prod.mk.inj heq
  exact ⟨hlater, OnEach.of_forall₂ (Steps.forall₂_answers hlater.1 hpool hanswers)⟩

end Items

section Finish

variable {module : NativeModule} {settings : RunSettings} {collection : Export.Collection}
  {outcomes : List (Findings Diagnostic ResolvedItem)} {s : RunState}

/-- What a run is validated against. -/
def recordsOf (settings : RunSettings) (s : RunState) : Validation.Records :=
  ⟨settings.capabilities, s.resolver.engine, some s.builder.table⟩

theorem run_hintRecords (hints : List (String × String)) (s : RunState) :
    (hints.forM fun hint => log (hintRecord hint)).run.run s
      = (.ok (), { s with log := s.log ++ hints.map hintRecord }) := by
  induction hints generalizing s with
  | nil => simp [pure, Steps.run, ExceptT.pure, ExceptT.mk, ExceptT.run]
  | cons hint hints ih =>
    have hstep : ((hint :: hints).forM fun hint => log (hintRecord hint)).run.run s
        = (hints.forM fun hint => log (hintRecord hint)).run.run
          { s with log := s.log ++ [hintRecord hint] } := rfl
    rw [hstep, ih, List.map_cons, List.append_assoc, List.singleton_append]

/-- The log behind the items of a run and the hints without effect. -/
def hintedLog (settings : RunSettings) (s : RunState) : List Log.Record :=
  s.log ++ (s.resolver.unusedHints (termsOf settings)).map hintRecord

theorem finish_of_error (fault : RunFault) :
    finish module settings collection (.error fault) s = (.error fault, s.log) := rfl

theorem run_conclude : (conclude module settings collection outcomes).run.run s =
    (validate settings (outcomes.filterMap Findings.value?) >>= fun found => do
      let result :=
        resultOf module settings collection outcomes found (← get).builder.table.nominals
      log result.record
      pure result).run.run { s with log := hintedLog settings s } := by
  unfold conclude
  rw [run_getBind, run_bind_of_run (run_hintRecords _ s)]
  rfl

theorem finish_of_invalid {fault : Validation.Fault}
    (h : Validation.validate (recordsOf settings s)
      ((outcomes.filterMap Findings.value?).map .ofItem) = .error fault) :
    finish module settings collection (.ok outcomes) s
      = (.error (.validation fault), hintedLog settings s) := by
  have hfinish : finish module settings collection (.ok outcomes) s =
      let gone := (conclude module settings collection outcomes).run.run s
      (gone.1, gone.2.log) := rfl
  rw [hfinish, run_conclude]
  unfold validate
  simp only [bind_assoc]
  rw [run_getBind]
  unfold recordsOf at h
  rw [h]
  rfl

/-- The end of a run whose items are through. -/
theorem finish_of_valid {found : List Diagnostic}
    (h : Validation.validate (recordsOf settings s)
      ((outcomes.filterMap Findings.value?).map .ofItem) = .ok found) :
    let result := resultOf module settings collection outcomes found s.builder.table.nominals
    let validated := Validation.record ((outcomes.filterMap Findings.value?).map .ofItem) found
    finish module settings collection (.ok outcomes) s =
      (.ok result, hintedLog settings s ++ [validated] ++ [result.record]) := by
  have hfinish : finish module settings collection (.ok outcomes) s =
      let gone := (conclude module settings collection outcomes).run.run s
      (gone.1, gone.2.log) := rfl
  intro result validated
  rw [hfinish, run_conclude]
  unfold validate
  simp only [bind_assoc]
  rw [run_getBind]
  unfold recordsOf at h
  rw [h]
  rfl

end Finish

section Goes

variable {module : NativeModule} {settings : RunSettings}
  {outcomes : Except RunFault (List (Findings Diagnostic ResolvedItem))} {s : RunState}
  {ending : Except RunFault RunResult × List Log.Record}

theorem nodup_names_modelOf (module : NativeModule) (settings : RunSettings) :
    (modelOf module settings).index.names.Nodup :=
  NominalIndex.nodup_names_ofModule module

theorem Goes.ends (h : Goes module settings outcomes s ending) :
    ending = finish module settings (Export.collect module settings.markers) outcomes s := by
  rcases h with hitems | ⟨hitems, hends⟩
  · simp only [run, hitems]
  · simp only [runInterleaved, hitems] at hends
    exact (Option.some.inj hends).symm

/-- Whichever way a run goes, its state has grown as it should, and the items are processed. -/
theorem Goes.processed (h : Goes module settings outcomes s ending) :
    let m := modelOf module settings
    let terms := termsOf settings
    let collection := Export.collect module settings.markers
    (running m settings.word (Hinted m terms collection.items)).Later
        (start m settings collection) s
      ∧ OnEach (Processed m settings.word terms) collection.items outcomes s := by
  intro m terms collection
  rcases h with hitems | ⟨hitems, -⟩
  · have hprocessed := processed_through settings collection (nodup_names_modelOf module settings)
    simp only [collection] at hprocessed
    rwa [hitems] at hprocessed
  · exact processed_throughInterleaved (nodup_names_modelOf module settings) hitems

end Goes

end Run

end Crossing
