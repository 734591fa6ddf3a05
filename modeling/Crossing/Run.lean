import Crossing.Building.Item
import Crossing.Bundle
import Crossing.Export.Collection
import Crossing.Ownership.Resolver
import Crossing.Validation

/-!
# Runs

A run takes a module through all stages: its items are collected, built, resolved and validated. An
item with a diagnostic goes no further, while the others do, so that one run reports every problem.
A bundle comes out only of a run without any diagnostic. Items are taken through one after the
other, or several at a time by workers that share the state of the run; what comes out follows the
order of the collection either way.
-/

namespace Crossing

/-- What a run is asked for. -/
structure RunSettings where
  capabilities : CapabilityTable
  word : WordSize := .bits64
  markers : List String := Export.defaultMarkers
  hints : OwnershipHints := []
  recognizers : Building.RecognizerSet := .standard

/-- What ends a run without a result. -/
inductive RunFault where
  | building (fault : Building.Fault)
  | ownership (fault : Ownership.Fault)
  | validation (fault : Validation.Fault)

/-- The state that the items of a run share. -/
structure RunState where
  builder : Building.Builder
  resolver : Ownership.Resolver
  log : List Log.Record := []

/-- A part of a run. A fault keeps the state before it, and what was logged. -/
abbrev RunM := ExceptT RunFault (Steps RunState)

/-- The result of a run. -/
structure RunResult where
  module : String
  target : String
  collected : List ExportItem
  diagnostics : List Diagnostic
  bundle : Option Bundle

namespace RunResult

def ok (r : RunResult) : Bool := r.bundle.isSome

/-- The items of the bundle. -/
def items (r : RunResult) : List ResolvedItem :=
  match r.bundle with
  | some b => b.items
  | none => []

/-- What the log tells about a run. -/
def record (r : RunResult) : Log.Record :=
  Log.info "rua.pipeline" (r.module ++ ": " ++ toString r.collected.length
    ++ " item(s) collected, " ++ toString r.items.length ++ " resolved, "
    ++ toString r.diagnostics.length ++ " diagnostic(s), target " ++ r.target)

end RunResult

namespace Run

open Building (Builder TypeModel)

def log (r : Log.Record) : RunM Unit := modify fun s => { s with log := s.log ++ [r] }

/-- A computation of a stage, on the part of the state that belongs to the stage. -/
def stage {ε τ α : Type} (part : RunState → τ) (replace : RunState → τ → RunState)
    (fault : ε → RunFault) (x : ExceptT ε (Steps τ) α) : RunM α :=
  ExceptT.mk ((·.mapError fault) <$> x.run.within part replace)

/-- Builds an item with the builder of the run. -/
def build (m : TypeModel) (item : ExportItem) : RunM (Findings Diagnostic InterfaceType) :=
  stage RunState.builder (fun s builder => { s with builder }) .building (Builder.buildItem m item)

/-- Resolves an item with the resolver of the run. -/
def resolve (terms : Ownership.Terms) (item : ExportItem) (t : InterfaceType) :
    RunM (Findings Diagnostic ResolvedItem) :=
  stage RunState.resolver (fun s resolver => { s with resolver }) .ownership
    (Ownership.resolveItem terms item t)

/-- Takes an item through building and resolving. -/
def process (m : TypeModel) (terms : Ownership.Terms) (item : ExportItem) :
    RunM (Findings Diagnostic ResolvedItem) := do
  let built ← build m item
  log (Building.record item built)
  match built with
  | .error ds => pure (.error ds)
  | .ok t => do
    let resolved ← resolve terms item t
    log (Ownership.record item resolved)
    pure resolved

/-- What the items of a run are resolved against. -/
def termsOf (settings : RunSettings) : Ownership.Terms := ⟨settings.capabilities, settings.hints⟩

def hintRecord (hint : String × String) : Log.Record :=
  Log.warning "rua.pipeline" ("ownership hint for " ++ hint.1 ++ " at `" ++ hint.2
    ++ "` matched no raw pointer slot")

/-- Validates the resolved items. -/
def validate (settings : RunSettings) (items : List ResolvedItem) : RunM (List Diagnostic) := do
  let s ← get
  let submissions := items.map Validation.Submission.ofItem
  match Validation.validate ⟨settings.capabilities, s.resolver.engine, some s.builder.table⟩
      submissions with
  | .error fault => throw (.validation fault)
  | .ok ds => do
    log (Validation.record submissions ds)
    pure ds

/-- The result of a run, from what became of its items and what the validation found. -/
def resultOf (module : NativeModule) (settings : RunSettings) (collection : Export.Collection)
    (outcomes : List (Findings Diagnostic ResolvedItem)) (found : List Diagnostic)
    (nominals : List String) : RunResult :=
  let diagnostics := collection.diagnostics ++ outcomes.flatMap Findings.problems ++ found
  let bundle : Bundle :=
    ⟨outcomes.filterMap Findings.value?, settings.capabilities, settings.word, nominals⟩
  { module := module.name
    target := settings.capabilities.target
    collected := collection.items
    diagnostics
    bundle := if diagnostics.isEmpty then some bundle else none }

/-- What comes of a run when its items are through. -/
def conclude (module : NativeModule) (settings : RunSettings) (collection : Export.Collection)
    (outcomes : List (Findings Diagnostic ResolvedItem)) : RunM RunResult := do
  ((← get).resolver.unusedHints (termsOf settings)).forM fun hint => log (hintRecord hint)
  let found ← validate settings (outcomes.filterMap Findings.value?)
  let result :=
    resultOf module settings collection outcomes found (← get).builder.table.nominals
  log result.record
  pure result

/-- The end of a run. The log is kept also when the run ends with a fault. -/
def finish (module : NativeModule) (settings : RunSettings) (collection : Export.Collection)
    (outcomes : Except RunFault (List (Findings Diagnostic ResolvedItem))) (s : RunState) :
    Except RunFault RunResult × List Log.Record :=
  let (result, s) :=
    (liftExcept outcomes >>= conclude module settings collection).run.run s
  (result, s.log)

/-- What a run knows about the types of a module. -/
def modelOf (module : NativeModule) (settings : RunSettings) : TypeModel :=
  .ofModule module settings.word.bits settings.recognizers

/-- The state that a run begins with. -/
def start (m : TypeModel) (settings : RunSettings) (collection : Export.Collection) : RunState where
  builder := .ofModel m
  resolver := { engine := { word := settings.word } }
  log := collection.log

/-- Takes the items of a collection through, one after the other. -/
def through (m : TypeModel) (settings : RunSettings) (collection : Export.Collection) :
    Except RunFault (List (Findings Diagnostic ResolvedItem)) × RunState :=
  (collection.items.mapM (process m (termsOf settings))).run.run (start m settings collection)

/-- Takes the items of a collection through with several workers, whose steps follow each other as
the schedule says; none as long as an item is not through. The fault of the first item that has one
counts. -/
def throughInterleaved (workers : Nat) (schedule : List Nat) (m : TypeModel)
    (settings : RunSettings) (collection : Export.Collection) :
    Option (Except RunFault (List (Findings Diagnostic ResolvedItem)) × RunState) :=
  let jobs := collection.items.map fun item => (process m (termsOf settings) item).run
  let (jobs, state) := Steps.interleave workers schedule jobs (start m settings collection)
  (jobs.mapM Steps.answer?).map fun answers => (answers.mapM id, state)

end Run

/-- Runs a module through all stages, one item after the other. -/
def run (module : NativeModule) (settings : RunSettings) :
    Except RunFault RunResult × List Log.Record :=
  let collection := Export.collect module settings.markers
  let (outcomes, state) := Run.through (Run.modelOf module settings) settings collection
  Run.finish module settings collection outcomes state

/-- Runs a module with several workers, whose steps follow each other as the schedule says; none as
long as an item is not through. -/
def runInterleaved (workers : Nat) (schedule : List Nat) (module : NativeModule)
    (settings : RunSettings) : Option (Except RunFault RunResult × List Log.Record) :=
  let collection := Export.collect module settings.markers
  (Run.throughInterleaved workers schedule (Run.modelOf module settings) settings collection).map
    fun (outcomes, state) => Run.finish module settings collection outcomes state

/-- Gives the bundle of a run to an emitter for a target. A run without a bundle gives nothing, and
a bundle for another target is a fault. -/
def handOff (result : RunResult) (target : String) :
    Except Report (Option Json) × List Log.Record :=
  match result.bundle with
  | none =>
    (.ok none, [Log.info "rua.pipeline" ("not emitting: run failed with "
      ++ toString result.diagnostics.length ++ " diagnostic(s)")])
  | some bundle =>
    if target ≠ bundle.capabilities.target then
      (.error {
        reason := Report.Kind.internalFault.code
        message := "bundle resolved for target `" ++ bundle.capabilities.target
          ++ "` handed to emitter `" ++ target ++ "`"
        path := none
        place := some "hand_off" }, [])
    else
      (.ok (some bundle.toJson), [Log.debug "rua.pipeline" ("emitting "
        ++ toString bundle.items.length ++ " item(s) for " ++ target)])

end Crossing
