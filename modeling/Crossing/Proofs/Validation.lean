import Crossing.Proofs.Ownership.Ruled
import Crossing.Validation

/-!
# Validating by the rules

An item is on record when all its types are registered and laid out, and each of its slots has the
layout on record (`OnRecord`). What a validation finds in items on record depends on the rule for
layouts and on the capabilities alone (`validate_of_onRecord`), so it is the same in two runs that
resolve the same up to the numbers of layouts (`validate_eq_of_unnumbered`). Of slots that the
target renders, it is a missing helper at most (`lacksHelper_of_mem`).
-/

namespace Crossing.Validation

/-- What is wrong with a type that is registered and laid out by the rule. -/
def ruledCause? (w : WordSize) (t : InterfaceType) : Option Cause :=
  (t.layoutOf w).toOption.bind (layoutCause? t)

/-- The types of an item are registered and laid out by the rule, its slots have these layouts. -/
structure OnRecord (w : WordSize) (records : Records) (r : ResolvedItem) : Prop where
  types : ∀ t ∈ r.type.graph, typeCause? records t = ruledCause? w t
  slots : ∀ p ∈ r.slots, isOnRecord records p.type p.layout = true

/-- What a target lacks for the slots of an item. -/
def slotsDiagnostics (records : Records) (r : ResolvedItem) : List Diagnostic :=
  r.slots.flatMap fun p => slotDiagnostics records r.item (.ofSlot p) p.mode

/-- What is found in an item on record. -/
def ruledCheck (w : WordSize) (records : Records) (r : ResolvedItem) :
    Except Fault (List Diagnostic) :=
  match r.type.graph.findSome? (ruledCause? w) with
  | some cause => .error ⟨cause, r.item.qualifiedName⟩
  | none => .ok (slotsDiagnostics records r)

theorem mapM_congr {α β ε : Type} {f g : α → Except ε β} {xs : List α} (h : ∀ x ∈ xs, f x = g x) :
    xs.mapM f = xs.mapM g := by
  induction xs with
  | nil => rfl
  | cons x xs ih =>
    rw [List.mapM_cons, List.mapM_cons, h x List.mem_cons_self, ih fun y hy => h y (.tail _ hy)]

theorem mapM_eq_ok {α β ε : Type} {f : α → Except ε β} {g : α → β} {xs : List α}
    (h : ∀ x ∈ xs, f x = .ok (g x)) : xs.mapM f = .ok (xs.map g) :=
  (mapM_congr h).trans List.mapM_pure

theorem findSome?_congr {α β : Type} {f g : α → Option β} {xs : List α}
    (h : ∀ x ∈ xs, f x = g x) : xs.findSome? f = xs.findSome? g := by
  induction xs with
  | nil => rfl
  | cons x xs ih =>
    rw [List.findSome?_cons, List.findSome?_cons, h x List.mem_cons_self,
      ih fun y hy => h y (.tail _ hy)]

variable {w : WordSize} {records records' : Records}

theorem checkItem_of_onRecord {r : ResolvedItem} (h : OnRecord w records r) :
    checkItem records (.ofItem r) = ruledCheck w records r := by
  have htypes : r.type.graph.findSome? (typeCause? records) =
      r.type.graph.findSome? (ruledCause? w) := findSome?_congr h.types
  have hslots : r.slots.mapM (fun p => checkSlot records r.item (.ofSlot p)) =
      .ok (r.slots.map fun p => slotDiagnostics records r.item (.ofSlot p) p.mode) :=
    mapM_eq_ok fun p hp => by
      simp only [checkSlot, SubmittedSlot.ofSlot, h.slots p hp, if_true]
  have hsubmitted : (Submission.ofItem r).slots.mapM (checkSlot records r.item) =
      r.slots.mapM (fun p => checkSlot records r.item (.ofSlot p)) := List.mapM_map
  unfold checkItem checkTypes ruledCheck
  rw [show (Submission.ofItem r).type = .ok r.type from rfl,
    show (Submission.ofItem r).item = r.item from rfl, hsubmitted, hslots]
  simp only [htypes]
  cases r.type.graph.findSome? (ruledCause? w) with
  | some cause => rfl
  | none =>
    rw [slotsDiagnostics, List.flatMap_def]
    rfl

/-- What is found in items on record, and which of them is at fault. -/
theorem validate_of_onRecord {items : List ResolvedItem}
    (h : ∀ r ∈ items, OnRecord w records r) : validate records (items.map .ofItem) =
      (items.mapM (ruledCheck w records)).map List.flatten := by
  have hmap : (items.map Submission.ofItem).mapM (checkItem records) =
      items.mapM (ruledCheck w records) :=
    List.mapM_map.trans (mapM_congr fun r hr => checkItem_of_onRecord (h r hr))
  unfold validate
  rw [hmap]
  cases items.mapM (ruledCheck w records) <;> rfl

/-- Where the layouts of the rule are consistent, nothing is at fault. -/
theorem validate_of_consistent {items : List ResolvedItem}
    (h : ∀ r ∈ items, OnRecord w records r)
    (hcauses : ∀ r ∈ items, ∀ t ∈ r.type.graph, ruledCause? w t = none) :
    validate records (items.map .ofItem) = .ok (items.flatMap (slotsDiagnostics records)) := by
  have hchecked : ∀ r ∈ items, ruledCheck w records r = .ok (slotsDiagnostics records r) := by
    intro r hr
    have hnone : r.type.graph.findSome? (ruledCause? w) = none :=
      List.findSome?_eq_none_iff.2 (hcauses r hr)
    simp only [ruledCheck, hnone]
  rw [validate_of_onRecord h, mapM_eq_ok hchecked, List.flatMap_def]
  rfl

/-- The diagnostic of a slot that the target renders, but has no helper for. -/
def LacksHelper (records : Records) (item : ExportItem) (p : Slot) (d : Diagnostic) : Prop :=
  p.obligation.isConcrete = false ∧
    d = slotDiagnostic item (.ofSlot p)
      (p.mode.name ++ " requires a " ++ neededHelper p.obligation.kind ++ " helper for `"
        ++ p.type.render ++ "`")
      ["target `" ++ records.capabilities.target
        ++ "` declares no helper name for this combination"]

/-- Where the target renders every slot, it lacks nothing but helpers. -/
theorem lacksHelper_of_mem {r : ResolvedItem} {d : Diagnostic}
    (hentries : ∀ p ∈ r.slots, (records.capabilities.entry p.type.kind p.mode).isSome = true)
    (hd : d ∈ slotsDiagnostics records r) : ∃ p ∈ r.slots, LacksHelper records r.item p d := by
  obtain ⟨p, hp, hd⟩ := List.mem_flatMap.1 hd
  refine ⟨p, hp, ?_⟩
  have hentry := hentries p hp
  unfold slotDiagnostics at hd
  rw [if_neg (by simp [SubmittedSlot.ofSlot, Option.isSome_iff_ne_none.1 hentry])] at hd
  split at hd
  · simp at hd
  · rename_i hconcrete
    exact ⟨by simpa [SubmittedSlot.ofSlot] using hconcrete, List.mem_singleton.1 hd⟩

/-- Where nothing is found, the target has the helpers that each slot needs. -/
theorem isConcrete_of_validate {items : List ResolvedItem}
    (h : ∀ r ∈ items, OnRecord w records r)
    (hnone : validate records (items.map .ofItem) = .ok []) :
    ∀ r ∈ items, ∀ p ∈ r.slots, p.obligation.isConcrete = true := by
  rw [validate_of_onRecord h] at hnone
  have hchecked := OnEach.of_mapM (ruledCheck w records) items ()
  cases hfound : items.mapM (ruledCheck w records) with
  | error fault =>
    rw [hfound] at hnone
    cases hnone
  | ok found =>
    rw [hfound] at hnone hchecked
    obtain ⟨made, rfl, rfl, hmade⟩ := exists_of_forall₂ hchecked.forall₂
    have hempty := List.flatten_eq_nil_iff.1 (Except.ok.inj hnone)
    intro r hr p hp
    obtain ⟨x, hx, rfl⟩ := List.mem_map.1 hr
    have hcheck := hmade x hx
    rw [hempty x.2 (List.mem_map_of_mem hx), ruledCheck] at hcheck
    split at hcheck
    · cases hcheck
    have hslot := List.flatMap_eq_nil_iff.1 (Except.ok.inj hcheck) p hp
    unfold slotDiagnostics at hslot
    split at hslot
    · cases hslot
    split at hslot
    · assumption
    · cases hslot

/-- Neither the numbers of layouts are told of nor anything on record but the capabilities. -/
theorem ruledCheck_unnumbered (h : records'.capabilities = records.capabilities)
    (r : ResolvedItem) : ruledCheck w records' r.unnumbered = ruledCheck w records r := by
  have hslots : slotsDiagnostics records' r.unnumbered = slotsDiagnostics records r := by
    unfold slotsDiagnostics slotDiagnostics
    rw [h, r.slots_unnumbered, List.flatMap_map]
    refine List.flatMap_congr fun p _ => ?_
    cases p
    rfl
  unfold ruledCheck
  rw [hslots]
  rfl

/-- The numbers of layouts make no difference to a validation. -/
theorem validate_eq_of_unnumbered {items items' : List ResolvedItem}
    (hcapabilities : records'.capabilities = records.capabilities)
    (h : ∀ r ∈ items, OnRecord w records r) (h' : ∀ r ∈ items', OnRecord w records' r)
    (hitems : items.map ResolvedItem.unnumbered = items'.map ResolvedItem.unnumbered) :
    validate records (items.map .ofItem) = validate records' (items'.map .ofItem) := by
  have hruled : items.mapM (ruledCheck w records) = items'.mapM (ruledCheck w records') :=
    calc items.mapM (ruledCheck w records)
      _ = (items.map ResolvedItem.unnumbered).mapM (ruledCheck w records) :=
        by
          rw [List.mapM_map]
          exact mapM_congr fun r _ => (ruledCheck_unnumbered rfl r).symm
      _ = (items'.map ResolvedItem.unnumbered).mapM (ruledCheck w records) := by rw [hitems]
      _ = items'.mapM (ruledCheck w records') :=
        by
          rw [List.mapM_map]
          exact mapM_congr fun r _ => ruledCheck_unnumbered hcapabilities.symm r
  rw [validate_of_onRecord h, validate_of_onRecord h', hruled]

theorem typeCause?_of_issued {capabilities : CapabilityTable} {engine : LayoutEngine}
    {table : TypeTable} {t : InterfaceType} {issued : IssuedLayout} (hregistered : t ∈ table.types)
    (hissued : engine.cache.lookup t = some issued) (hlayout : t.layoutOf w = .ok issued.layout) :
    typeCause? ⟨capabilities, engine, some table⟩ t = ruledCause? w t := by
  simp [typeCause?, ruledCause?, TypeTable.contains, hregistered, hissued, hlayout, Except.toOption]

end Crossing.Validation
