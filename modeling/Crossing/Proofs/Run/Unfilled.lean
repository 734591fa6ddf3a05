import Mathlib
import Crossing.Proofs.Capability.Duties
import Crossing.Proofs.Ownership.Faults
import Crossing.Proofs.Run.Actionable

/-!
# Runs that a table brings down

With a table in form, the resolver ends a run only for a helper template that cannot be filled,
unless it would end the run with any table (`Goes.unfilled`); and where all templates can be filled,
runs of what builds end with a result (`Goes.exists_result`). Tables that were read are in form, but
their templates may be such that they cannot be filled (`usable_of_ofDocument`, `unusable_of_brace`).
-/

namespace Crossing

namespace Run

open Building (Builder)

variable {module : NativeModule} {settings : RunSettings} {item : ExportItem}
  {outcomes : Except RunFault (List (Findings Diagnostic ResolvedItem))} {s : RunState}
  {ending : Except RunFault RunResult × List Log.Record}

/-- A collected item is built to a type. -/
def Builds (module : NativeModule) (settings : RunSettings) (item : ExportItem)
    (t : InterfaceType) : Prop :=
  item ∈ (Export.collect module settings.markers).items ∧
    ((Builder.buildItem (modelOf module settings) item).run.run
      (.ofModel (modelOf module settings))).1 = .ok (.ok t)

/-- No table lets an item of a type through the resolver. -/
def FailsAnyway (settings : RunSettings) (item : ExportItem) (t : InterfaceType) : Prop :=
  ∀ b, ∃ fault, ((Ownership.resolveItem ⟨b, settings.hints⟩ item t).run.run
    { engine := { word := settings.word } }).1 = .error fault

/-- Where the resolver ends a run, it is because of a type that an item is built to. -/
theorem Goes.fails (h : Goes module settings outcomes s ending) {fault : Ownership.Fault}
    (hfault : ending.1 = .error (.ownership fault)) : ∃ item t, Builds module settings item t ∧
      Ownership.Fails (termsOf settings) t (fun b =>
        Ownership.ruledItem settings.word ((termsOf settings).against b) item t) fault := by
  rw [h.ends] at hfault
  cases outcomes with
  | error fault' =>
    rw [finish_of_error] at hfault
    obtain rfl := Except.error.inj hfault
    obtain ⟨item, hitem, hfailed⟩ := h.processed.2.exists_failed
    generalize hanswer : Except.error (RunFault.ownership fault) = answer at hfailed
    rcases hfailed with ⟨-⟩ | ⟨-⟩ | ⟨hbuilt, -, hanswers, heq⟩
    · cases hanswer
    · cases hanswer
    obtain ⟨_, rfl, hsame⟩ := mapError_eq_error (hanswer.trans heq).symm
    cases hsame
    have hnodup := nodup_names_modelOf module settings
    have hbuilds := Building.buildItem_of_answers hnodup
      (Builder.faithful_ofModel hnodup) hbuilt
    exact ⟨item, _, ⟨hitem, hbuilds⟩, Ownership.fails_ruledItem _ hanswers.ruled.symm⟩
  | ok found =>
    cases hvalidated : Validation.validate (recordsOf settings s)
        ((found.filterMap Findings.value?).map .ofItem) with
    | error fault' =>
      rw [finish_of_invalid hvalidated] at hfault
      cases hfault
    | ok ds =>
      rw [finish_of_valid hvalidated] at hfault
      cases hfault

/-- With a table in form, the resolver ends a run only where a template cannot be filled, or where
it would with any table. -/
theorem Goes.unfilled (h : Goes module settings outcomes s ending)
    (hform : settings.capabilities.InForm) {fault : Ownership.Fault}
    (hfault : ending.1 = .error (.ownership fault)) : ∃ item t, Builds module settings item t ∧
      ((∃ why u mode, fault = .helper why ∧ t.Contains u ∧
          ¬ settings.capabilities.CanName u mode) ∨
        (∀ why, fault ≠ .helper why) ∧ FailsAnyway settings item t) := by
  obtain ⟨item, t, hbuilds, hfails⟩ := h.fails hfault
  refine ⟨item, t, hbuilds, ?_⟩
  cases hfails with
  | @unnamed u mode why inside helper =>
    refine .inl ⟨why, u, mode, rfl, inside, fun hnames => ?_⟩
    obtain ⟨o, ho⟩ := (CapabilityTable.exists_obligation_iff hform).2 hnames
    cases ho.symm.trans helper
  | anyway other fails =>
    refine .inr ⟨other, fun b => ?_⟩
    obtain ⟨fault', hfault'⟩ := fails b
    exact Ownership.exists_fault_of_ruledItem hfault'
      (@resolving_start (fun _ => True) settings.word).1

/-- Where everything builds and all templates can be filled, a run ends with a result. -/
theorem Goes.exists_result (h : Goes module settings outcomes s ending)
    (hform : settings.capabilities.InForm) (hstandard : settings.recognizers = .standard)
    (hbuildable : Buildable module settings)
    (hnames : ∀ item t, Builds module settings item t → ∀ u mode, t.Contains u →
      settings.capabilities.CanName u mode) : ∃ result, ending.1 = .ok result := by
  cases houtcomes : outcomes with
  | error fault =>
    subst houtcomes
    obtain ⟨item, hitem, hfailed⟩ := h.processed.2.exists_failed
    obtain ⟨f, rfl, why, u, mode, rfl, hhelper⟩ := hfailed.unnamed hstandard
      (isAlignment_wordBits module settings) (hbuildable.not_doomed hitem)
    have hending : ending.1 = .error (.ownership (.helper why)) := by
      rw [h.ends, finish_of_error]
    obtain ⟨item', t, hbuilds, hfails⟩ := h.fails hending
    cases hfails with
    | @unnamed v mode' _ inside helper =>
      obtain ⟨o, ho⟩ := (CapabilityTable.exists_obligation_iff hform).2
        (hnames item' t hbuilds v mode' inside)
      cases ho.symm.trans helper
    | anyway other => exact absurd rfl (other why)
  | ok found =>
    subst houtcomes
    obtain ⟨ds, hds, -⟩ := h.validated hstandard
    rw [h.ends, finish_of_valid hds]
    exact ⟨_, rfl⟩

end Run

open Run
open Text.Template (Piece spell fill)

/-- Of a table that was read from a document, whatever the document holds: the duty for a type in a
mode has the helper names that the templates come to, and there is one exactly where all templates
that the mode needs can be filled. A plain template can always be filled, and comes to the text with
the symbol in its places. In a run with the table the resolver aborts only for a type inside an item
that some template cannot be filled for, unless it would abort with any table; and where everything
builds with the standard recognizers and all templates can be filled, the run ends with a result. -/
theorem usable_of_ofDocument {document : Json} {table : CapabilityTable}
    (h : CapabilityTable.ofDocument document = .ok table) :
    (∀ t mode, (∀ o, table.obligation t mode = .ok o ↔ table.Duty t mode o) ∧
      ((∃ o, table.obligation t mode = .ok o) ↔ table.CanName t mode) ∧
      ((∀ template, table.Needs t.kind mode template →
        ∃ pieces : List Piece, template = String.ofList (spell pieces)) → table.CanName t mode)) ∧
    (∀ t (pieces : List Piece) name,
      CapabilityTable.Named t (some (String.ofList (spell pieces))) name ↔
        name = some (String.ofList (fill t.symbol.toList pieces))) ∧
    ∀ module settings outcomes s ending, settings.capabilities = table →
      Goes module settings outcomes s ending →
        (∀ fault, ending.1 = .error (.ownership fault) →
          ∃ item t, Builds module settings item t ∧
            ((∃ why u mode, fault = .helper why ∧ t.Contains u ∧ ¬ table.CanName u mode) ∨
              (∀ why, fault ≠ .helper why) ∧ FailsAnyway settings item t)) ∧
        (settings.recognizers = .standard → Buildable module settings →
          (∀ item t, Builds module settings item t → ∀ u mode, t.Contains u →
            table.CanName u mode) → ∃ result, ending.1 = .ok result) := by
  have hform := CapabilityTable.inForm_of_ofDocument h
  refine ⟨fun t mode => ⟨fun o => ?duty, ?served, ?plain⟩, fun t pieces name => ?named, ?runs⟩
  case duty => exact CapabilityTable.obligation_eq_ok_iff hform
  case served => exact CapabilityTable.exists_obligation_iff hform
  case plain => exact CapabilityTable.canName_of_plain
  case named => exact CapabilityTable.named_plain_iff
  case runs =>
    rintro module settings outcomes s ending rfl hgoes
    exact ⟨fun fault => hgoes.unfilled hform, hgoes.exists_result hform⟩

section Examples

open CapabilityTable

/-- What a target that takes texts over says of them, with a template for what frees them. -/
def textModes (template : String) : Json.Fields :=
  [("TransferredIn", .obj [("release", .str template)])]

def freesTextsFields (template : String) : Json.Fields :=
  [("format", .str formatName), ("version", .int 0), ("target", .str "toy"),
    ("entries", .obj [("Text", .obj (textModes template))])]

/-- The document of such a target. -/
def freesTexts (template : String) : Json := .obj (freesTextsFields template)

/-- The table of the document. -/
def freesTextsTable (template : String) : CapabilityTable where
  target := "toy"
  entries := setEntry (fun _ _ => none) .text .transferredIn (released template)
  intBits := [8, 16, 32, 64]
  floatBits := [32, 64]
  encodings := [.utf8]

theorem addKinds_textModes {template : String} (h : template ≠ "") :
    addKinds (Json.Place.root.field "entries") (fun _ _ => none)
        [("Text", .obj (textModes template))]
      = .ok (setEntry (fun _ _ => none) .text .transferredIn (released template)) := by
  have hkind : TypeKind.all.find? (·.name == "Text") = some .text := by decide
  have hmode : OwnershipMode.ofName? "TransferredIn" = some .transferredIn := by decide
  have hentry : ∀ place, entryOf place (.obj [("release", .str template)])
      = .ok (released template) := by
    intro place
    have hknown : Json.unknownFields [("release", .str template)]
        ["supported", "release", "retain"] = [] := by simp [Json.unknownFields]
    have hrelease : helperAt place [("release", .str template)] "release"
        = .ok (some template) := by
      simp only [helperAt, Json.field, Json.field?, List.lookup_cons_self, Option.getD_some,
        String.isEmpty_iff, h, if_false]
      rfl
    simp only [entryOf, hknown, hrelease]
    rfl
  simp only [addKinds, hkind, textModes, addModes, hmode, hentry]
  rfl

/-- Any text but the empty one is taken for a template. -/
theorem ofDocument_freesTexts {template : String} (h : template ≠ "") :
    ofDocument (freesTexts template) = .ok (freesTextsTable template) := by
  have hknown : Json.unknownFields (freesTextsFields template) topFields = [] := by
    simp [Json.unknownFields, topFields, freesTextsFields]
  have hfield : Json.field (freesTextsFields template) "entries"
      = .obj [("Text", .obj (textModes template))] := rfl
  rw [freesTexts, ofDocument, hknown, hfield]
  simp only [addKinds_textModes h]
  rfl

/-- What `free_` and the symbol are put together from. -/
def freeSymbol : List Piece := "free_".toList.map .lit ++ [.symbol]

def plainTable : CapabilityTable := freesTextsTable (String.ofList (spell freeSymbol))

theorem ofDocument_plain : ofDocument (freesTexts "free_\x7bsymbol\x7d") = .ok plainTable :=
  ofDocument_freesTexts (by decide)

theorem buildable_ownText : Buildable (guarded ownText) { capabilities := plainTable } := by
  refine buildable_of_all ?_
  cbv

/-- A target with a plain template for what frees a text: the template is filled with the symbol of
texts, and a run with a function that takes a text over ends with a result. -/
theorem usable_freesTexts :
    ofDocument (freesTexts "free_\x7bsymbol\x7d") = .ok plainTable ∧
      plainTable.obligation (.text .utf8 .owned) .transferredIn
        = .ok { kind := .releaseByCallee, release := some "free_str" } ∧
      Buildable (guarded ownText) { capabilities := plainTable } ∧
      ∃ result, (run (guarded ownText) { capabilities := plainTable }).1 = .ok result := by
  obtain ⟨hduties, hnamed, hruns⟩ := usable_of_ofDocument ofDocument_plain
  refine ⟨ofDocument_plain, ?duty, buildable_ownText, ?runs⟩
  case duty =>
    refine ((hduties _ _).1 _).2 (.released rfl rfl ((hnamed _ freeSymbol _).2 ?_))
    rfl
  case runs =>
    obtain ⟨outcomes, s, hgoes⟩ := goes_run (guarded ownText) { capabilities := plainTable }
    refine (hruns _ _ _ _ _ rfl hgoes).2 rfl buildable_ownText fun item t _ u mode _ => ?_
    refine (hduties u mode).2.2 fun template hneeds => ?_
    obtain ⟨e, he, hneeds⟩ := hneeds
    obtain ⟨he, -⟩ := Option.filter_eq_some_iff.1 he
    have hentry : e = released (String.ofList (spell freeSymbol)) := by
      have hset : setEntry (fun _ _ => none) .text .transferredIn
        (released (String.ofList (spell freeSymbol))) u.kind mode = some e := he
      unfold setEntry at hset
      split at hset
      · exact (Option.some.inj hset).symm
      · cases hset
    subst hentry
    rcases hneeds with ⟨-, hrelease⟩ | ⟨-, hretain⟩
    · exact ⟨freeSymbol, (Option.some.inj hrelease).symm⟩
    · cases hretain

/-- The document with half a brace for a template is read as well. There is no duty for a text that
is taken over then, and a run with a function that does so is aborted by the resolver. -/
theorem unusable_of_brace :
    (∃ table, ofDocument (freesTexts "free_\x7b") = .ok table ∧
      table.obligation (.text .utf8 .owned) .transferredIn = .error .malformed ∧
      (run (guarded ownText) { capabilities := table }).1
        = .error (.ownership (.helper .malformed))) ∧
    ¬ ∀ document table, ofDocument document = .ok table →
      ∀ t mode, ∃ o, table.obligation t mode = .ok o := by
  have hread : ofDocument (freesTexts "free_\x7b") = .ok (freesTextsTable "free_\x7b") :=
    ofDocument_freesTexts (by decide)
  have hfails : (freesTextsTable "free_\x7b").obligation (.text .utf8 .owned) .transferredIn
      = .error .malformed := by rfl
  refine ⟨⟨_, hread, hfails, ?_⟩, fun h => ?_⟩
  · cbv
  · obtain ⟨o, ho⟩ := h _ _ hread (.text .utf8 .owned) .transferredIn
    cases ho.symm.trans hfails

end Examples

end Crossing
