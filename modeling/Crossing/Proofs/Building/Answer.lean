import Crossing.Export.Collection
import Crossing.Proofs.Building.Declared
import Crossing.Proofs.Building.Halting

/-!
# What a builder answers for an item

A builder that knows nothing but the truth answers for an item by what its task yields, whatever was
built before and whoever else builds meanwhile (`keeps_buildItem_answer`), and it fails at doomed
tasks exactly (`buildItem_fault_iff`). An item without a type has diagnostics of its own.
-/

namespace Crossing.Building

variable {m : TypeModel} {item : ExportItem}

/-- The answer for an item, by the outcome of its task. -/
def Answers (m : TypeModel) (item : ExportItem) (r : Findings Diagnostic InterfaceType) : Prop :=
  ∃ o, Yields m (.ofItem m item) o ∧ reported item (unnested item o) = r

theorem Answers.unique {r r' : Findings Diagnostic InterfaceType} (h : Answers m item r)
    (h' : Answers m item r') : r' = r := by
  obtain ⟨o, ho, rfl⟩ := h
  obtain ⟨o', ho', rfl⟩ := h'
  rw [ho.unique ho']

theorem Answers.yields {t : InterfaceType} (h : Answers m item (.ok t)) :
    Yields m (.ofItem m item) (.ok t) := by
  obtain ⟨o, ho, hreported⟩ := h
  exact Builder.ok_of_reported hreported ▸ ho

/-- A diagnostic that the builder gives an item. -/
def IsRefusal (item : ExportItem) (d : Diagnostic) : Prop :=
  d.kind = .unsupported ∧ d.item = some item.qualifiedName

theorem refused_of_reported {o : Outcome} {ds : List Diagnostic} (ho : o ≠ .error [])
    (h : reported item o = .error ds) : ds ≠ [] ∧ ∀ d ∈ ds, IsRefusal item d := by
  cases o with
  | ok t => simp [reported] at h
  | error ps =>
    obtain rfl := Except.error.inj h
    refine ⟨?_, List.forall_mem_map.2 fun p _ => ⟨rfl, rfl⟩⟩
    rcases ps with _ | ⟨p, ps⟩
    · exact absurd rfl ho
    · simp [List.eraseDups_cons]

theorem unnested_ne_silent {o : Outcome} (ho : o ≠ .error []) : unnested item o ≠ .error [] := by
  cases o with
  | error ps => exact ho
  | ok t =>
    unfold unnested
    simp only
    split
    · exact nofun
    · rename_i ps hne
      exact fun h => hne (Except.error.inj h)

/-- An item that has no type has diagnostics instead, which name it. -/
theorem Answers.refused {ds : List Diagnostic} (h : Answers m item (.error ds)) :
    ds ≠ [] ∧ ∀ d ∈ ds, IsRefusal item d := by
  obtain ⟨o, ho, hreported⟩ := h
  exact refused_of_reported (unnested_ne_silent ho.ne_silent) hreported

namespace Builder

theorem keeps_buildDeclared_failure (hnodup : m.index.names.Nodup) (item : ExportItem) :
    Keeps (Faithful m) (buildDeclared m item) (OnFailure ((Task.ofItem m item).DoomedBy m)) := by
  have hregular := TypeModel.regular_recipe (m := m)
  unfold buildDeclared Task.ofItem build
  simp only
  generalize item.kind = kind, item.declaration.body = body
  have hfunction : (Recipe.function (parameterTypes item) (.ofExpr (returnType? item))
      .value).Regular m := ⟨by simp [Recipe.Known], by simp⟩
  rcases kind with _ | _ | _ | _
  · exact keeps_make_failure hnodup _ _ hfunction (.begin _ _ _ _)
  · exact keeps_meaning (keeps_make_failure hnodup _ _ (hregular _ _) (.begin _ _ _ _))
  · exact keeps_meaning (keeps_make_failure hnodup _ _ (hregular _ _) (.begin _ _ _ _))
  · cases body <;>
      exact keeps_meaning (keeps_make_failure hnodup _ _ (hregular _ _) (.begin _ _ _ _))

/-- A builder answers for an item as its task yields, or fails because the task is doomed. -/
theorem keeps_buildItem_answer (hnodup : m.index.names.Nodup) (item : ExportItem) :
    Keeps (Faithful m) (buildItem m item) fun answer =>
      OnValue (Answers m item) answer ∧ OnFailure ((Task.ofItem m item).DoomedBy m) answer := by
  refine Keeps.bind ((keeps_buildDeclared hnodup item).and
    (keeps_buildDeclared_failure hnodup item)) (fun _ he => he) fun o ho => ?_
  exact Keeps.pure ⟨⟨o, ho.1, rfl⟩, trivial⟩

end Builder

section Builds

variable (hnodup : m.index.names.Nodup) {b : Builder} (hb : b.Faithful m)
include hnodup hb

theorem answers_of_buildItem {r : Findings Diagnostic InterfaceType}
    (h : ((Builder.buildItem m item).run.run b).1 = .ok r) : Answers m item r := by
  have hanswer := ((Builder.keeps_buildItem_answer hnodup item).run hb).1.1
  rwa [h] at hanswer

/-- What an item can be answered, every builder answers. -/
theorem buildItem_of_answers {r : Findings Diagnostic InterfaceType} (h : Answers m item r) :
    ((Builder.buildItem m item).run.run b).1 = .ok r := by
  obtain ⟨hanswer, hfailure⟩ := ((Builder.keeps_buildItem_answer hnodup item).run hb).1
  cases hr : ((Builder.buildItem m item).run.run b).1 with
  | error fault =>
    rw [hr] at hfailure
    obtain ⟨o, ho, -⟩ := h
    exact absurd hfailure.doomed ho.not_doomed
  | ok r' =>
    rw [hr] at hanswer
    rw [h.unique hanswer]

theorem doomed_iff : (∃ fault, ((Builder.buildItem m item).run.run b).1 = .error fault) ↔
    (Task.ofItem m item).Doomed m := by
  obtain ⟨hanswer, hfailure⟩ := ((Builder.keeps_buildItem_answer hnodup item).run hb).1
  cases hr : ((Builder.buildItem m item).run.run b).1 with
  | error fault =>
    rw [hr] at hfailure
    exact iff_of_true ⟨fault, rfl⟩ hfailure.doomed
  | ok r =>
    rw [hr] at hanswer
    obtain ⟨o, ho, -⟩ := hanswer
    exact iff_of_false (by simp) ho.not_doomed

end Builds

end Building

open Building

/-- Whatever was built before, building an item ends in a fault exactly when its task is an array of
unknown length or without end somewhere. Otherwise the item gets a type, or else diagnostics that name
it, and nothing that is remembered lacks both. -/
theorem buildItem_fault_iff (module : NativeModule) (wordBits : Int) (items : List ExportItem)
    (item : ExportItem) :
    let m := TypeModel.ofModule module wordBits .standard
    let answer := ((Builder.buildItem m item).run.run (Builder.after m items)).1
    ((∃ fault, answer = .error fault) ↔
        (Task.ofItem m item).Lengthless m ∨ (Task.ofItem m item).Endless m) ∧
      (∀ ds, answer = .ok (.error ds) → ds ≠ [] ∧ ∀ d ∈ ds, IsRefusal item d) ∧
      ∀ name ps, (Builder.after m items).expansions.lookup name = some (.error ps) → ps ≠ [] := by
  intro m answer
  have hnodup : m.index.names.Nodup := NominalIndex.nodup_names_ofModule module
  have hfaithful := Builder.faithful_after hnodup items
  have hformed : ¬ (Task.ofItem m item).Misformed m := Task.not_misformed_ofItem rfl item
  refine ⟨?_, fun ds h => ?_, fun name ps h => ?_⟩
  · rw [doomed_iff hnodup hfaithful, Task.Doomed, or_iff_left hformed]
  · exact (answers_of_buildItem hnodup hfaithful h).refused
  · obtain ⟨n, -, -, hyields⟩ := hfaithful.remembers name _ h
    exact fun hps => hyields.ne_silent (congrArg Except.error hps)

section Examples

def borrowed : TypeExpr := .reference none false (.ofNames ["Buf"])

/-- A module with a struct that holds an array of a named length, and a function that borrows it. The
struct is not collected, but the function is. -/
def unmeasured : NativeModule where
  name := "crate"
  items :=
    [⟨"Buf", .everyone, [], [], {},
        .struct [⟨some "data", .array (.ofNames ["u8"]) (.named "N"), .everyone⟩] .named⟩,
      taking borrowed]
  children := []
  visibility := .everyone
  span := {}

def borrowingItem : ExportItem := { takingItem borrowed with index := 0 }

/-- The function is neither built nor refused. -/
theorem lengthless_of_borrowed :
    borrowingItem ∈ (Export.collect unmeasured Export.defaultMarkers).items
      ∧ ((Builder.buildItem (.ofModule unmeasured 64 .standard) borrowingItem).run.run
        (Builder.after (.ofModule unmeasured 64 .standard) [])).1 = .error .lengthless := by
  constructor
  · refine List.mem_of_getElem? (i := 0) ?_
    rfl
  · cbv

end Examples

end Crossing
