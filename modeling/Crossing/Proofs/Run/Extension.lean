import Mathlib
import Crossing.Capability.Builtin
import Crossing.Proofs.Ownership.Extension
import Crossing.Proofs.Run.Closed

/-!
# Running against a target that renders more

A run that succeeds is the same run against any table that extends its own: every item takes the same
steps through building and resolving, alone or beside others (`through_against`,
`throughInterleaved_against`), and the validation finds nothing either (`validate_against`). So the
result is the same but for the table in its bundle, and so is the log (`capabilities_monotone`).
-/

namespace Crossing

open Ownership (Fruitless Terms)

/-- The same run for another target. -/
def RunSettings.against (settings : RunSettings) (b : CapabilityTable) : RunSettings :=
  { settings with capabilities := b }

/-- The same result for another target of the same name. -/
def RunResult.against (r : RunResult) (b : CapabilityTable) : RunResult :=
  { r with bundle := r.bundle.map fun bundle => { bundle with capabilities := b } }

theorem RunResult.items_against (r : RunResult) (b : CapabilityTable) :
    (r.against b).items = r.items := by
  unfold items against
  cases r.bundle <;> rfl

theorem RunResult.ok_against (r : RunResult) (b : CapabilityTable) : (r.against b).ok = r.ok := by
  unfold ok against
  cases r.bundle <;> rfl

theorem RunResult.record_against (r : RunResult) (b : CapabilityTable) :
    (r.against b).record = r.record := by
  rw [record, record, items_against]
  rfl

namespace Validation

variable {records : Records} {b : CapabilityTable}

/-- The same records for another target. -/
def Records.against (records : Records) (b : CapabilityTable) : Records :=
  { records with capabilities := b }

/-- Nothing is found at all exactly when nothing is found in each. -/
theorem flatten_mapM_eq_nil_iff {α β ε : Type} {f : α → Except ε (List β)} {xs : List α} :
    (do
      let found ← xs.mapM f
      pure found.flatten) = .ok [] ↔ ∀ x ∈ xs, f x = .ok [] := by
  constructor
  · intro h
    obtain ⟨found, hfound, hnil⟩ := Findings.exists_of_bind h
    have hchecked := OnEach.of_mapM f xs ()
    rw [hfound] at hchecked
    obtain ⟨made, rfl, rfl, hmade⟩ := exists_of_forall₂ hchecked.forall₂
    intro x hx
    obtain ⟨p, hp, rfl⟩ := List.mem_map.1 hx
    rw [hmade p hp, List.flatten_eq_nil_iff.1 (Except.ok.inj hnil) _ (List.mem_map_of_mem hp)]
  · intro h
    rw [mapM_eq_ok (g := fun _ => []) h]
    exact congrArg Except.ok (List.flatten_eq_nil_iff.2 (by simp))

variable (h : b.Extends records.capabilities)
include h

theorem slotDiagnostics_against {item : ExportItem} {s : SubmittedSlot} {mode : OwnershipMode}
    (hnone : slotDiagnostics records item s mode = []) :
    slotDiagnostics (records.against b) item s mode = [] := by
  unfold slotDiagnostics at hnone
  split at hnone
  · cases hnone
  rename_i hentry
  split at hnone
  · rename_i hconcrete
    obtain ⟨e, he⟩ := Option.ne_none_iff_exists'.1 (by simpa using hentry)
    have hlarge : (records.against b).capabilities.entry s.type.kind mode = some e :=
      h.entry _ _ e he
    simp [slotDiagnostics, hlarge, hconcrete]
  · cases hnone

theorem checkSlot_against {item : ExportItem} {s : SubmittedSlot}
    (hnone : checkSlot records item s = .ok []) : checkSlot (records.against b) item s = .ok [] := by
  have hrecord : isOnRecord (records.against b) s.type s.layout
      = isOnRecord records s.type s.layout := rfl
  unfold checkSlot at hnone ⊢
  rw [hrecord]
  cases hmode : s.mode with
  | none =>
    rw [hmode] at hnone
    cases hnone
  | some mode =>
    rw [hmode] at hnone
    cases honRecord : isOnRecord records s.type s.layout with
    | false => simp [honRecord] at hnone
    | true =>
      simp only [honRecord, if_true, Except.ok.injEq] at hnone ⊢
      exact slotDiagnostics_against h hnone

/-- Where nothing is found against the smaller table, nothing is against the larger one. -/
theorem validate_against {items : List Submission} (hnone : validate records items = .ok []) :
    validate (records.against b) items = .ok [] := by
  have htypes : ∀ s, checkTypes (records.against b) s = checkTypes records s := fun _ => rfl
  refine flatten_mapM_eq_nil_iff.2 fun s hs => ?_
  have hitem := flatten_mapM_eq_nil_iff.1 hnone s hs
  unfold checkItem at hitem ⊢
  obtain ⟨u, hu, hslots⟩ := Findings.exists_of_bind hitem
  rw [htypes, hu]
  exact flatten_mapM_eq_nil_iff.2 fun slot hslot =>
    checkSlot_against h (flatten_mapM_eq_nil_iff.1 hslots slot hslot)

end Validation

namespace Run

open Building (TypeModel)

variable {m : TypeModel} {terms : Terms} {b : CapabilityTable} {item : ExportItem}

theorem follows_stage {ε τ α : Type} {part : RunState → τ} {replace : RunState → τ → RunState}
    {fault : ε → RunFault} {x y : ExceptT ε (Steps τ) (Findings Diagnostic α)}
    (hget : ∀ s t, part (replace s t) = t) (h : Follows Fruitless x y) :
    Follows Fruitless (stage part replace fault x) (stage part replace fault y) := by
  unfold stage Follows
  rw [ExceptT.run_mk, ExceptT.run_mk, map_eq_pure_bind, map_eq_pure_bind]
  refine (Steps.Follows.within h hget).bind (fun r hr _ _ _ found hfound => ?_) fun _ => .refl _
  exact hr found (mapError_eq_ok hfound)

/-- Against the larger table an item is processed as against the smaller one, step by step, as long
as that lacks nothing for it. -/
theorem follows_process (h : b.Extends terms.capabilities) :
    Follows Fruitless (process m terms item) (process m (terms.against b) item) := by
  unfold process
  refine Follows.bindSame fun built => Follows.bindSame fun _ => ?_
  cases built with
  | error ds => exact Follows.refl _
  | ok t =>
    have hresolve : Follows Fruitless (resolve terms item t) (resolve (terms.against b) item t) :=
      follows_stage (fun _ _ => rfl) (Ownership.follows_resolveItem h t)
    refine hresolve.bind Ownership.fruitless_error (fun found hfound => ?_) fun _ => Follows.refl _
    exact (Keeps.anyway _).bind (fun e _ => Ownership.fruitless_error e) fun _ _ =>
      Keeps.pure hfound

section Through

variable {module : NativeModule} {settings : RunSettings} {collection : Export.Collection}
  {found : List (Findings Diagnostic ResolvedItem)} {s : RunState}
  (h : b.Extends settings.capabilities) (hnone : found.flatMap Findings.problems = [])
include h hnone

theorem through_against (hthrough : through m settings collection = (.ok found, s)) :
    through m (settings.against b) collection = (.ok found, s) := by
  have hfollows : Follows _ (collection.items.mapM (process m (termsOf settings)))
      (collection.items.mapM (process m ((termsOf settings).against b))) :=
    Follows.mapM fun item _ => follows_process h
  rw [← hthrough]
  refine hfollows.run_eq fun hbad => ?_
  have hran : (through m settings collection).1 = .ok found := by rw [hthrough]
  obtain ⟨r, hr, hfruitless⟩ := hbad found hran
  exact hfruitless r rfl (List.flatMap_eq_nil_iff.1 hnone r hr)

theorem throughInterleaved_against {workers : Nat} {schedule : List Nat}
    (hthrough : throughInterleaved workers schedule m settings collection = some (.ok found, s)) :
    throughInterleaved workers schedule m (settings.against b) collection = some (.ok found, s) := by
  rw [← hthrough]
  obtain ⟨answers, hanswers, heq⟩ := Option.map_eq_some_iff.1 hthrough
  have hjobs : List.Forall₂ (Steps.Follows Fruitless)
      (collection.items.map fun item => (process m (termsOf settings) item).run)
      (collection.items.map fun item => (process m ((termsOf settings).against b) item).run) := by
    rw [List.forall₂_map_left_iff, List.forall₂_map_right_iff, List.forall₂_same]
    exact fun item _ => follows_process h
  have hsame := Steps.interleave_eq workers schedule hjobs hanswers fun a ha hbad => ?_
  · unfold throughInterleaved
    exact congrArg (fun gone => (gone.1.mapM Steps.answer?).map fun answers =>
      (answers.mapM id, gone.2)) hsame
  · -- Every answer is that of an item without problems.
    have hended := OnEach.of_mapM (id : Except RunFault _ → _) answers ()
    rw [(Prod.mk.inj heq).1] at hended
    obtain ⟨made, rfl, rfl, hmade⟩ := exists_of_forall₂ hended.forall₂
    obtain ⟨p, hp, rfl⟩ := List.mem_map.1 ha
    exact hbad p.2 (hmade p hp)
      (List.flatMap_eq_nil_iff.1 hnone p.2 (List.mem_map_of_mem hp))

end Through

section Finish

variable {module : NativeModule} {settings : RunSettings} {collection : Export.Collection}
  {found : List (Findings Diagnostic ResolvedItem)} {ds : List Diagnostic} {nominals : List String}

theorem resultOf_against (htarget : b.target = settings.capabilities.target) :
    resultOf module (settings.against b) collection found ds nominals
      = (resultOf module settings collection found ds nominals).against b := by
  have hsame : (settings.against b).capabilities.target = settings.capabilities.target := htarget
  unfold resultOf RunResult.against
  rw [hsame]
  simp only
  split <;> rfl

/-- A run that succeeds ends against the larger table as against the smaller one, with outcomes that
have no problems. -/
theorem Goes.finish_against {s : RunState} {result : RunResult} {log : List Log.Record}
    {outcomes : Except RunFault (List (Findings Diagnostic ResolvedItem))}
    (h : b.Extends settings.capabilities) (hgoes : Goes module settings outcomes s (.ok result, log))
    (hok : result.ok = true) :
    let collection := Export.collect module settings.markers
    ∃ found, outcomes = .ok found ∧ found.flatMap Findings.problems = [] ∧
      finish module (settings.against b) collection (.ok found) s = (.ok (result.against b), log) := by
  intro collection
  obtain ⟨found, ds, rfl, hvalidated, hresult⟩ := hgoes.exists_validated rfl
  have hends := hgoes.ends
  rw [hresult] at hok
  obtain ⟨hnone, -⟩ := items_resultOf hok
  obtain rfl : ds = [] := (List.append_eq_nil_iff.1 (ok_resultOf.1 hok)).2
  have hvalidated' : Validation.validate (recordsOf (settings.against b) s)
      ((found.filterMap Findings.value?).map .ofItem) = .ok [] :=
    Validation.validate_against h hvalidated
  refine ⟨found, rfl, hnone, ?_⟩
  rw [finish_of_valid hvalidated] at hends
  obtain ⟨hresult, hlog⟩ := Prod.mk.inj hends
  obtain rfl := Except.ok.inj hresult
  rw [finish_of_valid hvalidated', resultOf_against h.target, RunResult.record_against, hlog]
  rfl

end Finish

end Run

open Run

/-- Let a table extend that of a run. If the run succeeds, it does so against the larger table too,
whether items are taken through one by one or several at a time: the result is the same but for the
table in its bundle, and the log is the same. And whatever becomes of an item, the resolver reports
the same of it against both tables but for what they lack, and the larger one lacks something only for
slots that the smaller one lacks something for, unless the larger table cannot name a helper of a
type inside the item. -/
theorem capabilities_monotone {settings : RunSettings} {b : CapabilityTable}
    (h : b.Extends settings.capabilities) :
    (∀ module result log, result.ok = true →
      (run module settings = (.ok result, log) →
        run module (settings.against b) = (.ok (result.against b), log)) ∧
      (∀ workers schedule,
        runInterleaved workers schedule module settings = some (.ok result, log) →
          runInterleaved workers schedule module (settings.against b)
            = some (.ok (result.against b), log)) ∧
      (result.against b).ok = true ∧ (result.against b).items = result.items) ∧
    ∀ (w : WordSize) (item : ExportItem) (t : InterfaceType) (small large : Ownership.Resolver),
      small.engine.Faithful w → large.engine.Faithful w →
      Ownership.Eased (termsOf settings) b item t
        ((Ownership.resolveItem (termsOf settings) item t).run.run small).1
        ((Ownership.resolveItem (termsOf (settings.against b)) item t).run.run large).1 := by
  refine ⟨fun module result log hok => ⟨fun hrun => ?alone, fun workers schedule hrun => ?together,
    (result.ok_against b).trans hok, result.items_against b⟩, fun w item t small large => ?items⟩
  case alone =>
    rcases hthrough : through (modelOf module settings) settings
      (Export.collect module settings.markers) with ⟨outcomes, s⟩
    have hgoes : Goes module settings outcomes s (run module settings) := .alone hthrough
    rw [hrun] at hgoes
    obtain ⟨found, rfl, hnone, hfinish⟩ := hgoes.finish_against h hok
    have hagainst : Goes module (settings.against b) (.ok found) s
      (run module (settings.against b)) := .alone (through_against h hnone hthrough)
    exact hagainst.ends.trans hfinish
  case together =>
    obtain ⟨⟨outcomes, s⟩, hthrough, -⟩ := Option.map_eq_some_iff.1 hrun
    obtain ⟨found, rfl, hnone, hfinish⟩ := (Goes.together hthrough hrun).finish_against h hok
    have hagainst : runInterleaved workers schedule module (settings.against b)
        = some (finish module (settings.against b) (Export.collect module settings.markers)
          (.ok found) s) :=
      Option.map_eq_some_iff.2 ⟨_, throughInterleaved_against h hnone hthrough, rfl⟩
    rw [hagainst, hfinish]
  case items => exact Ownership.eased_resolveItem h t

section Examples

theorem CapabilityTable.entry_of_entries {a b : CapabilityTable}
    (h : ∀ kind mode e, a.entries kind mode = some e → b.entries kind mode = some e) :
    ∀ kind mode e, a.entry kind mode = some e → b.entry kind mode = some e := by
  intro kind mode e he
  obtain ⟨he, hsupported⟩ := Option.filter_eq_some_iff.1 he
  exact Option.filter_eq_some_iff.2 ⟨h kind mode e he, hsupported⟩

/-- The Dart table with wider integers, and with helpers for what it has none for. -/
def wideDart : CapabilityTable where
  target := "dart"
  entries := fun kind mode => (CapabilityTable.dartEntries kind mode).or (some CapabilityTable.counted)
  intBits := 128 :: CapabilityTable.dart.intBits
  floatBits := CapabilityTable.dart.floatBits
  encodings := CapabilityTable.dart.encodings

theorem extends_wideDart : wideDart.Extends .dart where
  target := rfl
  entry := CapabilityTable.entry_of_entries fun kind mode e he => by
    have hdart : CapabilityTable.dartEntries kind mode = some e := he
    simp [wideDart, hdart]
  intBits := List.subset_cons_self ..
  floatBits := List.Subset.refl _
  encodings := List.Subset.refl _

/-- Lends functions and takes pointers back. -/
def lendingTable : CapabilityTable where
  target := "toy"
  entries
    | .function, .borrowed => some {}
    | .pointer, .transferredOut => some (CapabilityTable.released "free")
    | _, _ => none
  intBits := [8]
  floatBits := []
  encodings := [.utf8]

/-- Takes texts over too, which a helper frees. -/
def owningTable (template : String) : CapabilityTable where
  target := "toy"
  entries
    | .function, .borrowed => some {}
    | .pointer, .transferredOut => some (CapabilityTable.released "free")
    | .text, .transferredIn => some (CapabilityTable.released template)
    | _, _ => none
  intBits := [8]
  floatBits := []
  encodings := [.utf8]

theorem extends_owningTable (template : String) : (owningTable template).Extends lendingTable where
  target := rfl
  entry := CapabilityTable.entry_of_entries fun kind mode e he => by
    cases kind <;> cases mode <;> simp_all [lendingTable, owningTable]
  intBits := List.Subset.refl _
  floatBits := List.Subset.refl _
  encodings := List.Subset.refl _

def hand : Declaration where
  name := "f"
  visibility := .everyone
  generics := []
  attrs := []
  span := {}
  body := .function [⟨"s", .ofNames ["String"]⟩]
    (some (.path [.plain "Box" [.reference none false (.ofNames ["u8"])] [] []])) none false false none

/-- A module with a function that takes a text and hands a reference out in a box. -/
def handing : NativeModule where
  name := "crate"
  items := [hand]
  children := []
  visibility := .everyone
  span := {}

def handingItem : ExportItem where
  qualifiedName := "crate::f"
  kind := .function
  isExplicit := false
  symbol := "f"
  index := 0
  modulePath := []
  declaration := hand

def handingModel : Building.TypeModel := .ofModule handing 64 .standard

def handingType : InterfaceType :=
  .function [.text .utf8 .owned]
    (.pointer (.pointer (.int 8 false) false .borrowed false) false .owned true) .never .value

/-- What resolving the function against a target comes to. -/
def handed (table : CapabilityTable) : Except Ownership.Fault (Findings Diagnostic ResolvedItem) :=
  ((Ownership.resolveItem { capabilities := table } handingItem handingType).run.run
    { engine := { word := .bits64 } }).1

/-- A run against the Dart table succeeds against the wider one too, and where a text cannot be taken
over, less is reported of the function when it can. -/
theorem monotone_of_wideDart : wideDart.Extends darting.capabilities ∧
    (∃ result log, result.ok = true ∧ run (guarded lone) darting = (.ok result, log) ∧
      run (guarded lone) (darting.against wideDart) = (.ok (result.against wideDart), log)) ∧
    (owningTable "free_\x7bsymbol\x7d").Extends lendingTable ∧
      Ownership.Eased { capabilities := lendingTable } (owningTable "free_\x7bsymbol\x7d") handingItem
        handingType (handed lendingTable) (handed (owningTable "free_\x7bsymbol\x7d")) := by
  obtain ⟨result, hresult, hok⟩ := exists_result ok_guarded
  have hfaithful := (@resolving_start (fun _ => True) .bits64).1
  have hwide := @capabilities_monotone darting _ extends_wideDart
  have howning := @capabilities_monotone { capabilities := lendingTable } _
    (extends_owningTable "free_\x7bsymbol\x7d")
  generalize hrun : run (guarded lone) darting = ending at hresult
  obtain ⟨answer, log⟩ := ending
  obtain rfl : answer = .ok result := hresult
  exact ⟨extends_wideDart, ⟨result, log, hok, rfl, (hwide.1 (guarded lone) result log hok).1 hrun⟩,
    extends_owningTable _, howning.2 .bits64 handingItem handingType _ _ hfaithful hfaithful⟩

/-- Against a table with a broken helper name nothing is reported any more of a function that was told
to hand out a reference in a box. -/
theorem unnamed_against_larger : (owningTable "\x7b").Extends lendingTable ∧
    handingItem ∈ (Export.collect handing []).items ∧
    ((Building.Builder.buildItem handingModel handingItem).run.run (.ofModel handingModel)).1
      = .ok (.ok handingType) ∧
    (∃ ds, handed lendingTable = .ok (.error ds) ∧
      ds.map (·.kind) = [.unsupported, .layoutConflict]) ∧
    handed (owningTable "\x7b") = .error (.helper .malformed) := by
  refine ⟨extends_owningTable _, ?item, ?built, ⟨?ds, ?small, ?kinds⟩, ?large⟩
  case item =>
    refine List.mem_of_getElem? (i := 0) ?_
    rfl
  case small =>
    cbv
    rfl
  all_goals cbv

end Examples

end Crossing
