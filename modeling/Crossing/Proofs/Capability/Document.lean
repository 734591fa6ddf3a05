import Mathlib
import Crossing.Capability.Document
import Crossing.Findings

/-!
# Reading a written capability table

A table that was read is in form: its widths are positive and ascend, its encodings are in order, and
no helper is an empty text (`inForm_of_ofDocument`). The document of a table in form is read back,
with the entries that the target supports (`ofDocument_toJson`). So what is lost in between are
entries that nobody can look up, and the table that comes back answers as the first one does
(`toJson_rereads`).
-/

namespace Crossing.CapabilityTable

open Json (Fields Place)

/-- Positive and ascending. -/
structure Ascending (widths : List Int) : Prop where
  positive : ∀ n ∈ widths, 0 < n
  pairwise : widths.Pairwise (· < ·)

/-- A helper is a text, and not the empty one. -/
def HelperInForm (template : Option String) : Prop := ∀ s, template = some s → s ≠ ""

/-- What every table that was read is like. -/
structure InForm (table : CapabilityTable) : Prop where
  target : table.target ≠ ""
  intBits : Ascending table.intBits
  floatBits : Ascending table.floatBits
  encodings : ∃ named : TextEncoding → Bool, table.encodings = [.cString, .utf8].filter named
  helpers : ∀ kind mode e, table.entries kind mode = some e →
    HelperInForm e.release ∧ HelperInForm e.retain

/-- The table with nothing but the entries that the target supports. -/
def supported (table : CapabilityTable) : CapabilityTable := { table with entries := table.entry }

/-- Some entry of a document says that the target does not support it. -/
def MarksUnsupported (document : Json) : Prop :=
  ∃ fields kinds, document = .obj fields ∧ Json.field fields "entries" = .obj kinds ∧
    ∃ kind modes, (kind, .obj modes) ∈ kinds ∧
      ∃ mode entry, (mode, .obj entry) ∈ modes ∧ Json.field? entry "supported" = some (.bool false)

/-! ## Widths and encodings -/

section Widths

variable {n m : Int} {widths : List Int}

theorem mem_insertWidth : m ∈ insertWidth n widths ↔ m = n ∨ m ∈ widths := by
  induction widths with
  | nil => simp [insertWidth]
  | cons k widths ih =>
    unfold insertWidth
    split
    · simp
    split
    · rename_i heq
      simp [heq]
    · simp only [List.mem_cons, ih]
      tauto

theorem Ascending.insertWidth (h : Ascending widths) (hn : 0 < n) :
    Ascending (insertWidth n widths) := by
  refine ⟨fun k hk => ?_, ?_⟩
  · rcases mem_insertWidth.1 hk with rfl | hk
    · exact hn
    · exact h.positive k hk
  · have hpairwise := h.pairwise
    clear h
    induction widths with
    | nil => exact List.pairwise_singleton _ _
    | cons k widths ih =>
      obtain ⟨hk, hwidths⟩ := List.pairwise_cons.1 hpairwise
      unfold CapabilityTable.insertWidth
      split
      · rename_i hlt
        refine List.pairwise_cons.2 ⟨fun l hl => ?_, hpairwise⟩
        rcases List.mem_cons.1 hl with rfl | hl
        · exact hlt
        · exact Int.lt_trans hlt (hk l hl)
      split
      · exact hpairwise
      · refine List.pairwise_cons.2 ⟨fun l hl => ?_, ih hwidths⟩
        rcases mem_insertWidth.1 hl with rfl | hl
        · omega
        · exact hk l hl

theorem Ascending.foldl_insertWidth (h : Ascending widths) {more : List Int}
    (hmore : ∀ n ∈ more, 0 < n) :
    Ascending (more.foldl (fun widths n => CapabilityTable.insertWidth n widths) widths) := by
  induction more generalizing widths with
  | nil => exact h
  | cons n more ih =>
    obtain ⟨hn, hmore⟩ := List.forall_mem_cons.1 hmore
    exact ih (h.insertWidth hn) hmore

theorem insertWidth_of_lt (h : ∀ m ∈ widths, m < n) : insertWidth n widths = widths ++ [n] := by
  induction widths with
  | nil => rfl
  | cons m widths ih =>
    obtain ⟨hm, hwidths⟩ := List.forall_mem_cons.1 h
    rw [insertWidth, if_neg (by omega), if_neg (by omega), ih hwidths, List.cons_append]

theorem foldl_insertWidth_of_pairwise {more : List Int} (h : (widths ++ more).Pairwise (· < ·)) :
    more.foldl (fun widths n => insertWidth n widths) widths = widths ++ more := by
  induction more generalizing widths with
  | nil => simp
  | cons n more ih =>
    have hn : ∀ m ∈ widths, m < n := fun m hm =>
      (List.pairwise_append.1 h).2.2 m hm n List.mem_cons_self
    rw [List.foldl_cons, insertWidth_of_lt hn, ih (by simpa using h), List.append_assoc,
      List.singleton_append]

theorem positive?_eq_some {v : Json} : positive? v = some n ↔ v = .int n ∧ 0 < n := by
  cases v with
  | int k =>
    simp only [positive?, Option.ite_none_right_eq_some, Json.int.injEq, Option.some.injEq]
    constructor
    · rintro ⟨hk, rfl⟩
      exact ⟨rfl, hk⟩
    · rintro ⟨rfl, hk⟩
      exact ⟨hk, rfl⟩
  | _ => simp [positive?]

theorem mapM_positive?_eq_some {items : List Json} {named : List Int} :
    items.mapM positive? = some named ↔ items = named.map .int ∧ ∀ n ∈ named, 0 < n := by
  induction items generalizing named with
  | nil => cases named <;> simp
  | cons v items ih =>
    rw [List.mapM_cons]
    simp only [Option.bind_eq_bind, Option.bind_eq_some_iff, positive?_eq_some, ih, Option.pure_def,
      Option.some.injEq]
    constructor
    · rintro ⟨n, ⟨rfl, hn⟩, named, ⟨rfl, hnamed⟩, rfl⟩
      exact ⟨rfl, List.forall_mem_cons.2 ⟨hn, hnamed⟩⟩
    · rintro ⟨heq, hnamed⟩
      cases named with
      | nil => cases heq
      | cons n named =>
        obtain ⟨rfl, rfl⟩ := List.cons.inj heq
        obtain ⟨hn, hnamed⟩ := List.forall_mem_cons.1 hnamed
        exact ⟨n, ⟨rfl, hn⟩, named, ⟨rfl, hnamed⟩, rfl⟩

theorem ascending_of_widthsOf? {items : List Json} (h : widthsOf? items = some widths) :
    Ascending widths := by
  obtain ⟨named, hnamed, rfl⟩ := Option.map_eq_some_iff.1 h
  exact Ascending.foldl_insertWidth ⟨by simp, .nil⟩ (mapM_positive?_eq_some.1 hnamed).2

theorem widthsOf?_int (h : Ascending widths) : widthsOf? (widths.map .int) = some widths := by
  rw [widthsOf?, mapM_positive?_eq_some.2 ⟨rfl, h.positive⟩, Option.map_some,
    foldl_insertWidth_of_pairwise (by simpa using h.pairwise), List.nil_append]

variable {fields : Fields} {key : String} {default : List Int}

theorem ascending_of_widthsAt (h : widthsAt fields key default = .ok widths)
    (hdefault : Ascending default) : Ascending widths := by
  unfold widthsAt at h
  split at h
  · rwa [← Except.ok.inj h]
  split at h
  · rename_i hwidths
    obtain ⟨items, -, hwidths⟩ := Option.bind_eq_some_iff.1 hwidths
    rw [← Except.ok.inj h]
    exact ascending_of_widthsOf? hwidths
  · cases h

theorem widthsAt_of_field (hfield : Json.field? fields key = some (.arr (widths.map .int)))
    (h : Ascending widths) : widthsAt fields key default = .ok widths := by
  unfold widthsAt
  rw [hfield]
  simp only [Json.items?, Option.bind_some, widthsOf?_int h]
  rfl

end Widths

section Encodings

variable {fields : Fields} {encodings : List TextEncoding}

theorem exists_filter_of_encodingsAt (h : encodingsAt fields = .ok encodings) :
    ∃ named : TextEncoding → Bool, encodings = [.cString, .utf8].filter named := by
  unfold encodingsAt at h
  simp only at h
  split at h
  · exact ⟨(· = .utf8), (Except.ok.inj h).symm⟩
  · rename_i items hitems
    cases hnamed : items.zipIdx.mapM fun x =>
        encodingOf (((Place.root.field "text_encodings")).item x.2) x.1 with
    | error fault =>
      simp only [hnamed] at h
      cases h
    | ok named =>
      simp only [hnamed] at h
      exact ⟨_, (Except.ok.inj h).symm⟩
  · cases h

theorem encodingsAt_of_field
    (hfield : Json.field? fields "text_encodings" = some (.arr (encodings.map fun c => .str c.name)))
    (h : ∃ named : TextEncoding → Bool, encodings = [.cString, .utf8].filter named) :
    encodingsAt fields = .ok encodings := by
  obtain ⟨named, rfl⟩ := h
  unfold encodingsAt
  rw [hfield]
  cases hc : named .cString <;> cases hu : named .utf8 <;> simp only [List.filter, hc, hu] <;> rfl

end Encodings

/-! ## Entries -/

section Entries

variable {place : Place} {fields : Fields} {e : CapabilityEntry}

theorem helperInForm_of_helperAt {key : String} {template : Option String}
    (h : helperAt place fields key = .ok template) : HelperInForm template := by
  unfold helperAt at h
  split at h
  · rw [← Except.ok.inj h]
    nofun
  · rename_i s _
    split at h
    · cases h
    · rename_i hs
      rw [← Except.ok.inj h]
      rintro _ ⟨⟩ rfl
      exact hs rfl
  · cases h

/-- An entry that was read has its helpers in form, and is supported unless the document says
otherwise. -/
theorem cases_of_entryOf {v : Json} (h : entryOf place v = .ok e) :
    HelperInForm e.release ∧ HelperInForm e.retain ∧ ∃ fields, v = .obj fields ∧
      (e.supported = true ∨ Json.field? fields "supported" = some (.bool false)) := by
  cases v with
  | obj fields =>
    have hhelpers : ∀ b, (do
        let release ← helperAt place fields "release"
        let retain ← helperAt place fields "retain"
        pure { supported := b, release, retain }) = Except.ok e →
        HelperInForm e.release ∧ HelperInForm e.retain ∧ e.supported = b := by
      intro b hb
      obtain ⟨release, hrelease, hb⟩ := Findings.exists_of_bind hb
      obtain ⟨retain, hretain, hb⟩ := Findings.exists_of_bind hb
      obtain rfl := Except.ok.inj hb
      exact ⟨helperInForm_of_helperAt hrelease, helperInForm_of_helperAt hretain, rfl⟩
    simp only [bind, Except.bind, pure, Except.pure] at hhelpers
    simp only [entryOf, bind, Except.bind, pure, Except.pure, refuse] at h
    split at h
    · split at h
      · obtain ⟨hrelease, hretain, hsupported⟩ := hhelpers _ h
        exact ⟨hrelease, hretain, fields, rfl, .inl hsupported⟩
      · rename_i b hb
        obtain ⟨hrelease, hretain, hsupported⟩ := hhelpers _ h
        refine ⟨hrelease, hretain, fields, rfl, ?_⟩
        cases b with
        | true => exact .inl hsupported
        | false => exact .inr hb
      · cases h
    · cases h
  | _ => cases h

theorem helperAt_of_field? {key : String} {template : Option String} (h : HelperInForm template)
    (hfield : Json.field? fields key = template.map .str) :
    helperAt place fields key = .ok template := by
  unfold helperAt Json.field
  rw [hfield]
  cases template with
  | none => rfl
  | some s =>
    have hs : s.isEmpty = false := by simpa using h s rfl
    simp [hs]
    rfl

theorem helperField_eq {key : String} {template : Option String} (h : HelperInForm template) :
    helperField key template = (template.map fun s => (key, Json.str s)).toList := by
  cases template with
  | none => rfl
  | some s =>
    have hs : s.isEmpty = false := by simpa using h s rfl
    simp [helperField, hs]

theorem entryOf_entryJson (hrelease : HelperInForm e.release) (hretain : HelperInForm e.retain)
    (hsupported : e.supported = true) : entryOf place (entryJson e) = .ok e := by
  obtain ⟨supported, release, retain⟩ := e
  obtain rfl : supported = true := hsupported
  generalize hfields : helperField "release" release ++ helperField "retain" retain = fields
  have hwritten : Json.unknownFields fields ["supported", "release", "retain"] = [] ∧
      Json.field? fields "supported" = none ∧ Json.field? fields "release" = release.map .str ∧
      Json.field? fields "retain" = retain.map .str := by
    rw [← hfields, helperField_eq hrelease, helperField_eq hretain]
    cases release <;> cases retain <;> exact ⟨by simp [Json.unknownFields], rfl, rfl, rfl⟩
  obtain ⟨hunknown, hnone, hreleased, hretained⟩ := hwritten
  simp only [entryJson, hfields, entryOf, hunknown, hnone, helperAt_of_field? hrelease hreleased,
    helperAt_of_field? hretain hretained]
  rfl

/-! ### All entries of a variant -/

variable {entries entries' : Entries} {kind : TypeKind} {mode : OwnershipMode}

/-- Every entry was there before, or the document has it. -/
theorem cases_of_addModes {modes : Fields} (h : addModes place kind entries modes = .ok entries') :
    ∀ k m e, entries' k m = some e → entries k m = some e ∨
      ∃ x ∈ modes, ∃ place, entryOf place x.2 = .ok e := by
  induction modes generalizing entries with
  | nil => exact fun k m e he => .inl (by rwa [Except.ok.inj h])
  | cons x modes ih =>
    obtain ⟨name, v⟩ := x
    simp only [addModes, bind, Except.bind] at h
    split at h
    · rename_i mode _
      split at h
      · cases h
      rename_i entry hentry
      intro k m e he
      rcases ih h k m e he with hset | ⟨x, hx, hplace⟩
      · unfold setEntry at hset
        split at hset
        · obtain rfl := Option.some.inj hset
          exact .inr ⟨_, List.mem_cons_self, _, hentry⟩
        · exact .inl hset
      · exact .inr ⟨x, .tail _ hx, hplace⟩
    · cases h

theorem cases_of_addKinds {kinds : Fields} (h : addKinds place entries kinds = .ok entries') :
    ∀ k m e, entries' k m = some e → entries k m = some e ∨
      ∃ kind modes, (kind, .obj modes) ∈ kinds ∧ ∃ x ∈ modes, ∃ place, entryOf place x.2 = .ok e := by
  induction kinds generalizing entries with
  | nil => exact fun k m e he => .inl (by rwa [Except.ok.inj h])
  | cons x kinds ih =>
    obtain ⟨name, v⟩ := x
    simp only [addKinds, bind, Except.bind] at h
    split at h
    · split at h
      · rename_i kind _ _ modes
        split at h
        · cases h
        rename_i added hadded
        intro k m e he
        rcases ih h k m e he with hbefore | ⟨kind', modes', hmem, hx⟩
        · rcases cases_of_addModes hadded k m e hbefore with hbefore | hx
          · exact .inl hbefore
          · exact .inr ⟨name, modes, List.mem_cons_self, hx⟩
        · exact .inr ⟨kind', modes', .tail _ hmem, hx⟩
      · cases h
    · cases h

end Entries

section Written

variable {table : CapabilityTable} {place : Place}
  (h : ∀ kind mode e, table.entries kind mode = some e →
    HelperInForm e.release ∧ HelperInForm e.retain)
include h

/-- What is written of some modes of a variant comes before what is there already. -/
theorem addModes_written (kind : TypeKind) (modes : List OwnershipMode) (entries : Entries) :
    addModes place kind entries
        (modes.filterMap fun m => (table.entry kind m).map fun e => (m.name, entryJson e))
      = .ok fun k m => if k = kind ∧ m ∈ modes then (table.entry k m).or (entries k m)
          else entries k m := by
  induction modes generalizing entries with
  | nil => simp [addModes, pure, Except.pure]
  | cons mode modes ih =>
    cases hentry : table.entry kind mode with
    | none =>
      rw [List.filterMap_cons, hentry, Option.map_none, ih]
      congr 1
      funext k m
      by_cases hm : k = kind ∧ m = mode
      · obtain ⟨rfl, rfl⟩ := hm
        simp [hentry]
      · simp only [List.mem_cons]
        grind
    | some e =>
      obtain ⟨he, hsupported⟩ := Option.filter_eq_some_iff.1 hentry
      obtain ⟨hrelease, hretain⟩ := h kind mode e he
      have hname : OwnershipMode.ofName? mode.name = some mode := by cases mode <;> rfl
      rw [List.filterMap_cons, hentry, Option.map_some]
      simp only [addModes, hname, entryOf_entryJson hrelease hretain hsupported, bind, Except.bind, ih]
      congr 1
      funext k m
      by_cases hm : k = kind ∧ m = mode
      · obtain ⟨rfl, rfl⟩ := hm
        simp [hentry, setEntry]
      · simp only [List.mem_cons, setEntry, if_neg hm]
        grind

theorem addKinds_written (kinds : List TypeKind) (entries : Entries) :
    addKinds place entries (kinds.filterMap fun k =>
        let fields := table.kindFields k
        if fields.isEmpty then none else some (k.name, .obj fields))
      = .ok fun k m => if k ∈ kinds then (table.entry k m).or (entries k m) else entries k m := by
  have hmodes : ∀ m, m ∈ modesByName := by
    intro m
    cases m <;> decide
  induction kinds generalizing entries with
  | nil => simp [addKinds, pure, Except.pure]
  | cons kind kinds ih =>
    rw [List.filterMap_cons]
    by_cases hempty : (table.kindFields kind).isEmpty
    · have hnone : ∀ m, table.entry kind m = none := by
        intro m
        have hm := List.filterMap_eq_nil_iff.1 (List.isEmpty_iff.1 hempty) m (hmodes m)
        exact Option.map_eq_none_iff.1 hm
      simp only [hempty, if_true, ih]
      congr 1
      funext k m
      by_cases hk : k = kind
      · simp [hk, hnone]
      · simp [hk]
    · have hname : TypeKind.all.find? (·.name == kind.name) = some kind := by cases kind <;> rfl
      simp only [hempty, Bool.false_eq_true, if_false]
      simp only [addKinds, hname, bind, Except.bind]
      rw [kindFields, addModes_written h kind modesByName entries]
      simp only [ih]
      congr 1
      funext k m
      by_cases hk : k = kind
      · simp [hk, hmodes, ← Option.or_assoc]
      · simp [hk]

theorem addKinds_entriesFields : addKinds place (fun _ _ => none) table.entriesFields
    = .ok table.entry := by
  have hkinds : ∀ k, k ∈ kindsByName := by
    intro k
    cases k <;> decide
  rw [entriesFields, addKinds_written h]
  simp [hkinds]

end Written

/-! ## Whole documents -/

/-- What is known of a document that was read. -/
theorem exists_fields_of_ofDocument {document : Json} {table : CapabilityTable}
    (h : ofDocument document = .ok table) : ∃ fields kinds, document = .obj fields ∧
      Json.field fields "entries" = .obj kinds ∧ table.target ≠ "" ∧
      encodingsAt fields = .ok table.encodings ∧
      addKinds (Place.root.field "entries") (fun _ _ => none) kinds = .ok table.entries ∧
      widthsAt fields "int_bits" [8, 16, 32, 64] = .ok table.intBits ∧
      widthsAt fields "float_bits" [32, 64] = .ok table.floatBits := by
  cases document with
  | obj fields =>
    simp only [ofDocument, bind, Except.bind, pure, Except.pure, refuse] at h
    split at h
    · cases h
    split at h
    case h_2 => cases h
    split at h
    case h_2 => cases h
    split at h
    · cases h
    rename_i target _ htarget
    split at h
    · cases h
    rename_i encodings hencodings
    split at h
    case h_2 => cases h
    rename_i kinds hkinds
    split at h
    · cases h
    rename_i entries hentries
    split at h
    · cases h
    rename_i intBits hint
    split at h
    · cases h
    rename_i floatBits hfloat
    obtain rfl := Except.ok.inj h
    exact ⟨fields, kinds, rfl, hkinds, by simpa using htarget, hencodings, hentries, hint, hfloat⟩
  | _ => cases h

theorem inForm_of_ofDocument {document : Json} {table : CapabilityTable}
    (h : ofDocument document = .ok table) : table.InForm := by
  obtain ⟨fields, kinds, -, -, htarget, hencodings, hentries, hint, hfloat⟩ :=
    exists_fields_of_ofDocument h
  refine ⟨htarget, ascending_of_widthsAt hint ⟨by decide, by decide⟩,
    ascending_of_widthsAt hfloat ⟨by decide, by decide⟩, exists_filter_of_encodingsAt hencodings,
    fun kind mode e he => ?_⟩
  rcases cases_of_addKinds hentries kind mode e he with hbefore | ⟨_, _, -, x, -, place, hx⟩
  · cases hbefore
  · exact ⟨(cases_of_entryOf hx).1, (cases_of_entryOf hx).2.1⟩

/-- Where no entry is marked unsupported, all of them are supported. -/
theorem supported_eq_self {document : Json} {table : CapabilityTable}
    (h : ofDocument document = .ok table) (hmarks : ¬ MarksUnsupported document) :
    table.supported = table := by
  obtain ⟨fields, kinds, hobj, hfield, -, -, hentries, -, -⟩ := exists_fields_of_ofDocument h
  have hentry : table.entry = table.entries := by
    funext kind mode
    cases he : table.entries kind mode with
    | none => rw [entry, he, Option.filter_none]
    | some e =>
      rw [entry, he, Option.filter_some, if_pos]
      rcases cases_of_addKinds hentries kind mode e he with hbefore | ⟨k, modes, hk, x, hx, place, he⟩
      · cases hbefore
      obtain ⟨-, -, entry, hentry, hsupported | hsupported⟩ := cases_of_entryOf he
      · exact hsupported
      · exact absurd ⟨fields, kinds, hobj, hfield, k, modes, hk, x.1, entry, hentry ▸ hx, hsupported⟩
          hmarks
  rw [supported, hentry]

theorem ofDocument_toJson {table : CapabilityTable} (h : table.InForm) :
    ofDocument table.toJson = .ok table.supported := by
  have htarget : table.target.isEmpty = false := by simpa using h.target
  have hfields : ∃ fields, table.toJson = .obj fields ∧
      (Json.field fields "format").string? = some formatName ∧
      (Json.field fields "version").isZero = true ∧ Json.unknownFields fields topFields = [] ∧
      Json.field fields "target" = .str table.target ∧
      Json.field? fields "text_encodings" = some (.arr (table.encodings.map fun c => .str c.name)) ∧
      Json.field fields "entries" = .obj table.entriesFields ∧
      Json.field? fields "int_bits" = some (.arr (table.intBits.map .int)) ∧
      Json.field? fields "float_bits" = some (.arr (table.floatBits.map .int)) :=
    ⟨_, rfl, rfl, rfl, by simp [Json.unknownFields, topFields], rfl, rfl, rfl, rfl, rfl⟩
  obtain ⟨fields, hobj, hformat, hversion, hunknown, htarget', hencodings, hentries, hint, hfloat⟩ :=
    hfields
  rw [hobj]
  simp only [ofDocument, hformat, hversion, hunknown, htarget', htarget, hentries,
    encodingsAt_of_field hencodings h.encodings, widthsAt_of_field hint h.intBits,
    widthsAt_of_field hfloat h.floatBits, addKinds_entriesFields h.helpers]
  rfl

/-- An entry that the target supports is looked up in the supported entries as in all. -/
theorem entry_supported (table : CapabilityTable) (kind : TypeKind) (mode : OwnershipMode) :
    table.supported.entry kind mode = table.entry kind mode := by
  have htwice : ((table.entries kind mode).filter (·.supported)).filter (·.supported)
      = (table.entries kind mode).filter (·.supported) := by simp [Option.filter_filter]
  exact htwice

/-- Whatever a document holds: the table that it is read as can be written and read again, which gives
the same document and the same answers for every type and mode, and where no entry is marked
unsupported it gives the same table. -/
theorem toJson_rereads {document : Json} {table : CapabilityTable}
    (h : ofDocument document = .ok table) :
    ∃ again, ofDocument table.toJson = .ok again ∧ again.toJson = table.toJson ∧
      (∀ t mode, (again.gap? t mode).map (Gap.message again.target)
          = (table.gap? t mode).map (Gap.message table.target) ∧
        again.obligation t mode = table.obligation t mode) ∧
      (∀ kind mode, again.entry kind mode = table.entry kind mode) ∧
      (¬ MarksUnsupported document → again = table) := by
  have hentry : table.supported.entry = table.entry := by
    funext kind mode
    exact table.entry_supported kind mode
  refine ⟨table.supported, ofDocument_toJson (inForm_of_ofDocument h), ?_, fun t mode => ⟨?_, ?_⟩,
    table.entry_supported, supported_eq_self h⟩
  · unfold toJson entriesFields kindFields
    rw [hentry]
    rfl
  · unfold gap?
    rw [hentry]
    rfl
  · unfold obligation
    rw [hentry]

section Examples

/-- A document with an entry that is not supported, one without helpers and a width given twice. -/
def mixed : Json := .obj [("format", .str formatName), ("version", .int 0), ("target", .str "any"),
  ("int_bits", .arr [.int 32, .int 8, .int 32]),
  ("entries", .obj [
    ("Text", .obj [("TransferredIn", .obj [("supported", .bool false)]), ("Borrowed", .obj [])]),
    ("Record", .obj [("TransferredOut", .obj [("release", .str "free"), ("retain", .null)])])])]

theorem intBits_mixed : (ofDocument mixed).toOption.map (·.intBits) = some [8, 32] := by
  decide +kernel

/-- The document that is written of it is another one, but is read to the same effect. -/
theorem rereads_mixed : MarksUnsupported mixed ∧ ∃ table again, ofDocument mixed = .ok table ∧
    table.intBits = [8, 32] ∧ ofDocument table.toJson = .ok again ∧ again.toJson = table.toJson ∧
    ∀ t mode, again.obligation t mode = table.obligation t mode := by
  have hmarks : MarksUnsupported mixed :=
    ⟨_, _, rfl, rfl, "Text", _, List.mem_cons_self, "TransferredIn", _, List.mem_cons_self, rfl⟩
  have hbits := intBits_mixed
  cases hread : ofDocument mixed with
  | error fault =>
    rw [hread] at hbits
    cases hbits
  | ok table =>
    rw [hread] at hbits
    obtain ⟨again, hagain, hwritten, hanswers, -⟩ := toJson_rereads hread
    exact ⟨hmarks, table, again, rfl, Option.some.inj hbits, hagain, hwritten,
      fun t mode => (hanswers t mode).2⟩

end Examples

end Crossing.CapabilityTable
