import Mathlib
import Crossing.Proofs.Ownership.Transfer
import Crossing.Proofs.Run.Closed

/-!
# An emitter can act on every slot of a bundle

Of the slots in a bundle the resolver has seen to it that the target renders the type in the mode,
and that the duty is the one of the mode (`Resolved.duty`); the validation lets nothing pass that
lacks a helper. Together every slot, however deep in an item, is one that an emitter can act on
(`bundle_actionable`), whatever the table of the target says.
-/

namespace Crossing

/-- A slot that an emitter for a target can act on. -/
structure Slot.Actionable (table : CapabilityTable) (p : Slot) : Prop where
  supported : ∃ e, table.entries p.type.kind p.mode = some e ∧ e.supported = true
  intWidth : ∀ bits signed, p.type = .primitive .int bits signed → bits ∈ table.intBits
  floatWidth : ∀ bits signed, p.type = .primitive .float bits signed → bits ∈ table.floatBits
  encoding : ∀ c holding, p.type = .text c holding → c ∈ table.encodings
  obligation : p.obligation.kind = p.mode.obligation
  released : p.mode.isTransfer = true → ∃ release, p.obligation.release = some release ∧
    release ≠ ""
  counted : p.mode = .sharedCounted → ∃ release retain, p.obligation.release = some release ∧
    p.obligation.retain = some retain ∧ release ≠ "" ∧ retain ≠ ""

theorem Obligation.isNamed_iff {helper : Option String} :
    isNamed helper = true ↔ ∃ name, helper = some name ∧ name ≠ "" := by
  cases helper <;> simp [isNamed]

/-- A slot that the target renders, with the duty of its mode and the helpers that it needs. -/
theorem Slot.actionable_of_renders {table : CapabilityTable} {p : Slot}
    (hrenders : table.gap? p.type p.mode = none) (hkind : p.obligation.kind = p.mode.obligation)
    (hconcrete : p.obligation.isConcrete = true) : p.Actionable table := by
  obtain ⟨hform, hentry⟩ := CapabilityTable.gap?_eq_none_iff.1 hrenders
  rw [Obligation.isConcrete, hkind] at hconcrete
  refine ⟨?supported, ?intWidth, ?floatWidth, ?encoding, hkind, ?released, ?counted⟩
  case supported =>
    obtain ⟨e, he⟩ := Option.isSome_iff_exists.1 hentry
    obtain ⟨he, hsupported⟩ := Option.filter_eq_some_iff.1 he
    exact ⟨e, he, hsupported⟩
  case intWidth =>
    intro bits signed ht
    by_contra hbits
    simp [CapabilityTable.formGap?, ht, hbits] at hform
  case floatWidth =>
    intro bits signed ht
    by_contra hbits
    simp [CapabilityTable.formGap?, ht, hbits] at hform
  case encoding =>
    intro c holding ht
    by_contra hc
    simp [CapabilityTable.formGap?, ht, hc] at hform
  case released =>
    intro htransfer
    cases hmode : p.mode with
    | borrowed | sharedCounted => simp [hmode, OwnershipMode.isTransfer] at htransfer
    | transferredIn | transferredOut =>
      rw [hmode] at hconcrete
      exact Obligation.isNamed_iff.1 hconcrete
  case counted =>
    intro hmode
    rw [hmode] at hconcrete
    obtain ⟨hrelease, hretain⟩ := Bool.and_eq_true_iff.1 hconcrete
    obtain ⟨release, hrelease, hreleased⟩ := Obligation.isNamed_iff.1 hrelease
    obtain ⟨retain, hretain, hretained⟩ := Obligation.isNamed_iff.1 hretain
    exact ⟨release, retain, hrelease, hretain, hreleased, hretained⟩

/-- A slot of a mode with a release has a helper for it, and one of a counted mode a second. -/
theorem Slot.Actionable.named {table : CapabilityTable} {p : Slot} (h : p.Actionable table) :
    (p.mode ≠ .borrowed → ∃ name, p.obligation.release = some name) ∧
      (p.mode = .sharedCounted → ∃ name, p.obligation.retain = some name) := by
  refine ⟨fun hmode => ?_, fun hmode => ?_⟩
  · cases htransfer : p.mode.isTransfer with
    | true =>
      obtain ⟨release, hrelease, -⟩ := h.released htransfer
      exact ⟨release, hrelease⟩
    | false =>
      have hcounted : p.mode = .sharedCounted := by
        revert hmode htransfer
        cases p.mode <;> decide
      obtain ⟨release, -, hrelease, -⟩ := h.counted hcounted
      exact ⟨release, hrelease⟩
  · obtain ⟨-, retain, -, hretain, -⟩ := h.counted hmode
    exact ⟨retain, hretain⟩

namespace Run

open Building (TypeModel)

variable {m : TypeModel} {w : WordSize} {terms : Ownership.Terms} {item : ExportItem}
  {r : ResolvedItem} {s : RunState}

/-- By the rules every slot has the duty that the target gives its type in its mode: this does not
depend on who else uses the resolver, so a resolver of its own can answer. -/
theorem duty_of_ruledItem {t : InterfaceType}
    (h : Ownership.ruledItem w terms item t = .ok (.ok r.unnumbered)) :
    ∀ p ∈ r.slots, terms.capabilities.obligation p.type p.mode = .ok p.obligation := by
  have hensures : Ensures (Ownership.resolving w fun _ => True) { engine := { word := w } }
      (Ownership.resolveItem terms item t)
      (Ownership.Answers ResolvedItem.unnumbered ResolvedItem.slots
        (Ownership.ruledItem w terms item t) (Ownership.hintedItem terms item t)) :=
    Ownership.ensures_resolveItem t _ fun _ _ => trivial
  have hruled := (hensures.run (resolving_start w)).2.ruled
  rw [h] at hruled
  rcases halone : ((Ownership.resolveItem terms item t).run.run { engine := { word := w } }).1
    with fault | ds | alone
  · rw [halone] at hruled
    cases hruled
  · rw [halone] at hruled
    cases hruled
  rw [halone] at hruled
  -- It answers with the same item, up to the numbers of the layouts, and a duty has no numbers.
  have hunnumbered : alone.unnumbered = r.unnumbered := Except.ok.inj (Except.ok.inj hruled)
  have hduty := (Ownership.rooted_of_resolveItem halone).2.2.2.duty
  intro p hp
  have hmem : p.unnumbered ∈ alone.unnumbered.slots := by
    rw [hunnumbered, r.slots_unnumbered]
    exact List.mem_map_of_mem hp
  rw [alone.slots_unnumbered] at hmem
  obtain ⟨q, hq, hqp⟩ := List.mem_map.1 hmem
  have hq := hduty q hq
  rwa [← q.type_unnumbered, ← q.mode_unnumbered, ← q.obligation_unnumbered, hqp, p.type_unnumbered,
    p.mode_unnumbered, p.obligation_unnumbered] at hq

theorem Processed.duty (h : Processed m w terms item (.ok (.ok r)) s) :
    ∀ p ∈ r.slots, terms.capabilities.obligation p.type p.mode = .ok p.obligation := by
  generalize hanswer : Except.ok (Except.ok r) = answer at h
  rcases h with ⟨-⟩ | ⟨-⟩ | ⟨-, -, hanswers, heq⟩
  · simp at hanswer
  · simp at hanswer
  obtain rfl := mapError_eq_ok (hanswer.trans heq).symm
  exact duty_of_ruledItem hanswers.ruled.symm

variable {module : NativeModule} {settings : RunSettings}
  {outcomes : Except RunFault (List (Findings Diagnostic ResolvedItem))}
  {ending : Except RunFault RunResult × List Log.Record} {result : RunResult} {bundle : Bundle}

/-- The items of a bundle came through, with the duties of their slots, and the validation found
nothing in them. -/
theorem Goes.bundled (h : Goes module settings outcomes s ending) (hresult : ending.1 = .ok result)
    (hbundle : result.bundle = some bundle) : bundle.capabilities = settings.capabilities ∧
      ∀ r ∈ bundle.items, ∀ p ∈ r.slots,
        settings.capabilities.gap? p.type p.mode = none ∧
          settings.capabilities.obligation p.type p.mode = .ok p.obligation ∧
            p.obligation.isConcrete = true := by
  obtain ⟨found, ds, rfl, hvalidated, rfl⟩ := h.exists_validated hresult
  have hok := Option.isSome_iff_exists.2 ⟨_, hbundle⟩
  have hds : ds = [] := (List.append_eq_nil_iff.1 (ok_resultOf.1 hok)).2
  have hitems : bundle.items = found.filterMap Findings.value? := by
    rw [← (items_resultOf hok).2, RunResult.items, hbundle]
  have hcapabilities : bundle.capabilities = settings.capabilities := by
    unfold resultOf at hbundle
    simp only at hbundle
    split at hbundle
    · rw [← Option.some.inj hbundle]
    · cases hbundle
  refine ⟨hcapabilities, fun r hr p hp => ?_⟩
  rw [hitems] at hr
  obtain ⟨item, -, hresolved⟩ := h.resolved (mem_filterMap_value?.1 hr)
  obtain ⟨item', -, hprocessed⟩ := h.exists_processed (mem_filterMap_value?.1 hr)
  refine ⟨hresolved.complete.renders p hp, hprocessed.duty p hp, ?_⟩
  have honRecord : ∀ r ∈ found.filterMap Findings.value?,
      Validation.OnRecord settings.word (recordsOf settings s) r := by
    intro r hr
    obtain ⟨item, -, hresolved⟩ := h.resolved (mem_filterMap_value?.1 hr)
    exact hresolved.onRecord
  exact Validation.isConcrete_of_validate honRecord (hds ▸ hvalidated) r hr p hp

end Run

open Run

/-- Whichever way a run goes: if it has a bundle, an emitter can act on every slot in it. -/
theorem bundle_actionable {module : NativeModule} {settings : RunSettings}
    {outcomes : Except RunFault (List (Findings Diagnostic ResolvedItem))} {s : RunState}
    {ending : Except RunFault RunResult × List Log.Record} {result : RunResult} {bundle : Bundle}
    (h : Goes module settings outcomes s ending) (hresult : ending.1 = .ok result)
    (hbundle : result.bundle = some bundle) : bundle.capabilities = settings.capabilities ∧
      ∀ r ∈ bundle.items, ∀ p ∈ r.slots, p.Actionable settings.capabilities := by
  obtain ⟨hcapabilities, hslots⟩ := h.bundled hresult hbundle
  refine ⟨hcapabilities, fun r hr p hp => ?_⟩
  obtain ⟨hrenders, hduty, hconcrete⟩ := hslots r hr p hp
  exact Slot.actionable_of_renders hrenders (Ownership.kind_of_obligation hduty) hconcrete

section Examples

/-- Renders everything, with one helper to release and one to retain. -/
def freeing : RunSettings where
  capabilities := { renderer with
    entries := fun _ _ => some { release := some "free", retain := some "keep" } }

def ownText : TypeExpr := .ofNames ["String"]

/-- The slots of a bundle with their modes and what releases them. -/
def duties (b : Bundle) : List (String × OwnershipMode × Option String) :=
  b.items.flatMap fun r => r.slots.map fun p => (p.path, p.mode, p.obligation.release)

theorem duties_ownText : (run (guarded ownText) freeing).1.map (·.bundle.map duties) =
    .ok (some [("", .borrowed, none), ("", .borrowed, none), ("x", .transferredIn, some "free"),
      ("return", .borrowed, none)]) := by
  cbv

/-- A function takes a text over, and there is a helper that releases it. -/
theorem actionable_ownText : ∃ result bundle, (run (guarded ownText) freeing).1 = .ok result ∧
    result.bundle = some bundle ∧ ("x", .transferredIn, some "free") ∈ duties bundle ∧
    ∀ r ∈ bundle.items, ∀ p ∈ r.slots, p.Actionable freeing.capabilities := by
  have hduties := duties_ownText
  cases hresult : (run (guarded ownText) freeing).1 with
  | error =>
    rw [hresult] at hduties
    cases hduties
  | ok result =>
    rw [hresult] at hduties
    obtain ⟨bundle, hbundle, hduties⟩ := Option.map_eq_some_iff.1 (Except.ok.inj hduties)
    obtain ⟨outcomes, s, h⟩ := goes_run (guarded ownText) freeing
    exact ⟨result, bundle, rfl, hbundle, by simp [hduties], (bundle_actionable h hresult hbundle).2⟩

end Examples

end Crossing
