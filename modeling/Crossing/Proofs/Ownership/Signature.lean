import Crossing.Capability.Builtin
import Crossing.Export.Collection
import Crossing.Proofs.Building.Declared
import Crossing.Proofs.Building.Signature
import Crossing.Proofs.Ownership.Settled

/-!
# Signatures keep their parameters

The slots of a resolved function item are those of its parameters, under their names, and then
those of what it returns (`children_of_resolveItem`). Since a parameter called `return` is left out
of the type and of the labels alike, the labels still fit the types; but the function has lost a
parameter. All of them are there exactly when none has that name (`signature_iff`).
-/

namespace Crossing

namespace Ownership

variable {terms : Terms} {item : ExportItem}

theorem children_of_resolveItem {params : List InterfaceType} {returned : InterfaceType}
    {failure : Failure InterfaceType} {holding : Holding} {b : Resolver} {r : ResolvedItem}
    (hkind : item.kind = .function)
    (h : ((resolveItem terms item (.function params returned failure holding)).run.run b).1
      = .ok (.ok r)) :
    r.root.children.map (fun c => (c.label, c.type))
      = (positions item params returned failure).map fun x => (x.1, x.2.1) := by
  have hkeeps : Keeps (fun _ => True)
      (resolveItem terms item (.function params returned failure holding)) (OnValue fun found =>
        ∀ r, found = .ok r → r.root.children.map (fun c => (c.label, c.type))
          = (positions item params returned failure).map fun x => (x.1, x.2.1)) := by
    unfold resolveItem resolveRoot
    simp only [hkind]
    refine Keeps.bindValue (keeps_functionRoot terms item _ params returned failure)
      fun found hfound => Keeps.pure fun r hr => ?_
    obtain ⟨p, hp, rfl⟩ := Findings.map_eq_ok.1 hr
    obtain ⟨-, -, -, hchildren⟩ := hfound p hp
    rw [← List.forall₂_eq_eq_eq, List.forall₂_map_left_iff, List.forall₂_map_right_iff]
    exact hchildren.flip.imp fun c x hx => hx.1
  have hvalue := (hkeeps.run (s := b) trivial).1
  rw [h] at hvalue
  exact hvalue r rfl

/-- Numbers that look their labels up in a list give them out in order. -/
theorem numbered_eq_zip (fallback : Nat → String) (before : List String) {labels : List String}
    {ts : List InterfaceType} (h : labels.length = ts.length) :
    InterfaceType.numbered (fun i => (before ++ labels)[i]?.getD (fallback i)) before.length ts
      = labels.zip ts := by
  induction labels generalizing before ts with
  | nil =>
    obtain rfl : ts = [] := List.eq_nil_of_length_eq_zero h.symm
    rfl
  | cons l labels ih =>
    obtain ⟨t, ts, rfl⟩ := List.exists_cons_of_ne_nil (l := ts) (by rintro rfl; simp at h)
    have hlength : labels.length = ts.length := by simpa using h
    have hrest := ih (before ++ [l]) hlength
    rw [List.append_assoc, List.length_append] at hrest
    rw [InterfaceType.numbered, List.zip_cons_cons]
    exact congrArg₂ _ (by simp) hrest

/-- Where there is a label for each parameter, the positions stand under these labels. -/
theorem positions_eq {params : List InterfaceType} {returned : InterfaceType}
    {failure : Failure InterfaceType} {labels : List String}
    (hlabels : parameterLabels item = labels) (hlength : labels.length = params.length) :
    (positions item params returned failure).map (fun x => (x.1, x.2.1))
      = labels.zip params ++ ("return", returned) :: InterfaceType.failureParts failure := by
  have hzip := numbered_eq_zip (fun i => "arg" ++ toString i) [] hlength
  rw [List.nil_append, List.length_nil] at hzip
  unfold positions Standing.signature
  rw [hlabels, hzip]
  simp [Function.comp_def]

end Ownership

open Building Ownership

/-- The children of a root are one for each of some parameters, labelled with its name, then one for
the return value and, if the function fails with a value, one for the error. -/
def LabelledBy (declared : List Parameter) (failure : Failure InterfaceType) (root : Slot) : Prop :=
  root.children.map (·.label) = declared.map (·.name)
    ++ "return" :: (InterfaceType.failureParts failure).map (·.1)

/-- A function item that builds has a parameter for each declared one, in their order and as the
declared type builds, and its slots stand under their names, but for the parameters called `return`:
these are lost. -/
theorem signature_iff (module : NativeModule) (wordBits : Int) (recognizers : RecognizerSet)
    (markers : List String) (items : List ExportItem) {item : ExportItem}
    (hitem : item ∈ (Export.collect module markers).items) {declared : List Parameter}
    {ret : Option TypeExpr} {receiver : Option String} {isAsync isUnsafe : Bool}
    {abi : Option String}
    (hbody : item.declaration.body = .function declared ret receiver isAsync isUnsafe abi)
    {t : InterfaceType}
    (hbuilt : ((Builder.buildItem (.ofModule module wordBits recognizers) item).run.run
      (Builder.after (.ofModule module wordBits recognizers) items)).1 = .ok (.ok t)) :
    let m := TypeModel.ofModule module wordBits recognizers
    let builds := fun (p : Parameter) u => Builds m (m.site item.scope) p.type u
    ∃ params returned failure, t = .function params returned failure .value
      ∧ List.Forall₂ builds (keptParameters declared) params
      ∧ (List.Forall₂ builds declared params ↔ ∀ p ∈ declared, p.name ≠ "return")
      ∧ ∀ terms b r, ((resolveItem terms item t).run.run b).1 = .ok (.ok r) →
        LabelledBy (keptParameters declared) failure r.root
        ∧ r.root.children.map (·.type)
          = params ++ returned :: (InterfaceType.failureParts failure).map (·.2)
        ∧ (LabelledBy declared failure r.root ↔ ∀ p ∈ declared, p.name ≠ "return") := by
  intro m builds
  have hnodup : m.index.names.Nodup := NominalIndex.nodup_names_ofModule module
  have hkind : item.kind = .function := by
    obtain ⟨p, -, hof⟩ := Export.isItemOf_of_mem_collect hitem
    have := hof.kind
    rw [← hof.declaration, hbody] at this
    exact (Option.some.inj this).symm
  obtain ⟨params, returned, failure, rfl, hparams⟩ :=
    params_of_function hbody hnodup hkind (Builder.yields_of_buildItem hnodup hbuilt)
  have hlength := hparams.length_eq
  refine ⟨params, returned, failure, rfl, hparams, ⟨fun hall => ?_, fun hnone => ?_⟩, ?_⟩
  · exact length_keptParameters_iff.1 (hlength.trans hall.length_eq.symm)
  · rwa [keptParameters_eq_self_iff.2 hnone] at hparams
  · intro terms b r hr
    have hchildren := (children_of_resolveItem hkind hr).trans
      (positions_eq (labels_of_function hbody) (by simpa using hlength))
    have hlabels := congrArg (List.map Prod.fst) hchildren
    have htypes := congrArg (List.map Prod.snd) hchildren
    simp only [List.map_map, List.map_append, List.map_cons, Function.comp_def] at hlabels htypes
    rw [List.map_fst_zip (by simp [hlength])] at hlabels
    rw [List.map_snd_zip (by simp [hlength])] at htypes
    refine ⟨hlabels, htypes, ⟨fun hall => ?_, fun hnone => ?_⟩⟩
    · have hnames := List.append_cancel_right (hlabels.symm.trans hall)
      exact length_keptParameters_iff.1 (by simpa using congrArg List.length hnames)
    · rwa [keptParameters_eq_self_iff.2 hnone] at hlabels

section Examples

/-- A byte, under a name, and a number. -/
def measures (first : String) : List Parameter :=
  [⟨first, .ofNames ["u8"]⟩, ⟨"x", .ofNames ["u32"]⟩]

def measure (first : String) : Declaration where
  name := "f"
  visibility := .everyone
  generics := []
  attrs := []
  span := {}
  body := .function (measures first) (some (.ofNames ["bool"])) none false false none

def measuring (first : String) : NativeModule where
  name := "crate"
  items := [measure first]
  children := []
  visibility := .everyone
  span := {}

def measuringItem (first : String) : ExportItem where
  qualifiedName := "crate::f"
  kind := .function
  isExplicit := false
  symbol := "f"
  index := 0
  modulePath := []
  declaration := measure first

def measuringModel (first : String) : TypeModel := .ofModule (measuring first) 64 .standard

/-- Under the name of the other parameter the byte is kept. -/
theorem signature_iff_measuring :
    measuringItem "x" ∈ (Export.collect (measuring "x") []).items
      ∧ ∃ t, ((Builder.buildItem (measuringModel "x") (measuringItem "x")).run.run
          (Builder.after (measuringModel "x") [])).1 = .ok (.ok t)
        ∧ ∃ params returned failure, t = .function params returned failure .value
          ∧ params.length = 2
          ∧ ∃ r, ((resolveItem { capabilities := .dart } (measuringItem "x") t).run.run
              { engine := { word := .bits64 } }).1 = .ok (.ok r)
            ∧ LabelledBy (measures "x") failure r.root := by
  have hitem : measuringItem "x" ∈ (Export.collect (measuring "x") []).items := by
    refine List.mem_of_getElem? (i := 0) ?_
    rfl
  have hbuilt : ∃ t, ((Builder.buildItem (measuringModel "x") (measuringItem "x")).run.run
      (Builder.after (measuringModel "x") [])).1 = .ok (.ok t)
      ∧ ∃ r, ((resolveItem { capabilities := .dart } (measuringItem "x") t).run.run
        { engine := { word := .bits64 } }).1 = .ok (.ok r) := by
    refine ⟨?t, ?built, ?r, ?resolved⟩
    case built =>
      cbv
      rfl
    case resolved =>
      cbv
      rfl
  obtain ⟨t, ht, r, hr⟩ := hbuilt
  have hnone : ∀ p ∈ measures "x", p.name ≠ "return" := by decide
  obtain ⟨params, returned, failure, hfunction, -, hparams, hslots⟩ :=
    signature_iff (measuring "x") 64 .standard [] [] hitem rfl ht
  exact ⟨hitem, t, ht, params, returned, failure, hfunction,
    (hparams.2 hnone).length_eq.symm, r, hr, (hslots _ _ r hr).2.2.2 hnone⟩

/-- A byte called `return` is lost. -/
theorem lost_of_return :
    measuringItem "return" ∈ (Export.collect (measuring "return") []).items
      ∧ ((Builder.buildItem (measuringModel "return") (measuringItem "return")).run.run
          (Builder.after (measuringModel "return") [])).1
        = .ok (.ok (.function [.int 32 false] .bool .never .value))
      ∧ (measures "return").length = 2 := by
  refine ⟨?_, ?_, rfl⟩
  · refine List.mem_of_getElem? (i := 0) ?_
    rfl
  · cbv

end Examples

end Crossing
