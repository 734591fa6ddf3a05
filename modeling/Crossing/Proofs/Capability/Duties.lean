import Mathlib
import Crossing.Proofs.Capability.Document
import Crossing.Proofs.Text.Expansion

/-!
# The duties of a table that was read

Reading a table checks of a helper template that it is no empty text, and nothing else. Of such a
table the duty for a type in a mode is the one that `Duty` describes, with the templates filled in
(`obligation_eq_ok_iff`). There is a duty exactly where all templates that the mode needs can be
filled (`exists_obligation_iff`), as all plain ones can (`canName_of_plain`).
-/

namespace Crossing.CapabilityTable

open Text.Template (Fills Piece spell fill)

/-- A template filled in for a type; where there is no template, there is no name. -/
inductive Named (t : InterfaceType) : Option String → Option String → Prop where
  | absent : Named t none none
  | filled {template name : String} (fills : Fills t.symbol.toList 2 template.toList name.toList) :
      Named t (some template) (some name)

/-- The duty for a type in a mode. -/
inductive Duty (table : CapabilityTable) (t : InterfaceType) :
    OwnershipMode → Obligation → Prop where
  | lent : Duty table t .borrowed .free
  /-- For what the target does not support there are no helpers. -/
  | unsupported {mode : OwnershipMode} (owned : mode ≠ .borrowed)
      (entry : table.entry t.kind mode = none) : Duty table t mode { kind := mode.obligation }
  | released {mode : OwnershipMode} {e : CapabilityEntry} {release : Option String}
      (transfer : mode.isTransfer = true) (entry : table.entry t.kind mode = some e)
      (named : Named t e.release release) : Duty table t mode { kind := mode.obligation, release }
  | counted {e : CapabilityEntry} {release retain : Option String}
      (entry : table.entry t.kind .sharedCounted = some e) (released : Named t e.release release)
      (retained : Named t e.retain retain) :
      Duty table t .sharedCounted { kind := .retainRelease, release, retain }

/-- A target has to fill in a template for what is of a variant in a mode: the one that releases it
unless it is lent, and for a counted value also the one that retains it. -/
def Needs (table : CapabilityTable) (kind : TypeKind) (mode : OwnershipMode) (template : String) :
    Prop :=
  ∃ e, table.entry kind mode = some e ∧ ((mode ≠ .borrowed ∧ e.release = some template) ∨
    (mode = .sharedCounted ∧ e.retain = some template))

/-- Every template that is needed for a type in a mode can be filled. -/
def CanName (table : CapabilityTable) (t : InterfaceType) (mode : OwnershipMode) : Prop :=
  ∀ template, table.Needs t.kind mode template →
    ∃ name, Fills t.symbol.toList 2 template.toList name

variable {table : CapabilityTable} {t : InterfaceType} {mode : OwnershipMode} {o : Obligation}
  {template name : Option String}

theorem helper_eq_ok_iff (h : HelperInForm template) :
    helper template t = .ok name ↔ Named t template name := by
  cases template with
  | none =>
    constructor
    · rintro ⟨⟩
      exact .absent
    · rintro ⟨⟩
      rfl
  | some text =>
    have hne : text.isEmpty = false := by simpa using h text rfl
    unfold helper
    simp only [hne, Bool.false_eq_true, if_false]
    constructor
    · intro hname
      obtain ⟨filled, hfilled, hname⟩ := Findings.exists_of_bind hname
      obtain rfl := Except.ok.inj hname
      exact .filled (by rwa [String.toList_ofList, ← Text.Template.expand_eq_ok_iff])
    · rintro (_ | @⟨_, name, fills⟩)
      rw [Text.Template.expand_eq_ok_iff.2 fills]
      exact congrArg (fun name => Except.ok (some name)) String.ofList_toList

theorem exists_named_iff : (∃ name, Named t template name) ↔
    ∀ text, template = some text → ∃ name, Fills t.symbol.toList 2 text.toList name := by
  constructor
  · rintro ⟨name, hname⟩ text rfl
    cases hname with
    | filled fills => exact ⟨_, fills⟩
  · intro h
    cases template with
    | none => exact ⟨none, .absent⟩
    | some text =>
      obtain ⟨name, hname⟩ := h text rfl
      exact ⟨some (String.ofList name), .filled (by rwa [String.toList_ofList])⟩

theorem named_plain_iff {pieces : List Piece} :
    Named t (some (String.ofList (spell pieces))) name ↔
      name = some (String.ofList (fill t.symbol.toList pieces)) := by
  have hfills : ∀ name : String, Fills t.symbol.toList 2 (String.ofList (spell pieces)).toList
      name.toList ↔ name = String.ofList (fill t.symbol.toList pieces) := by
    intro name
    rw [String.toList_ofList, Text.Template.fills_spell_iff, ← String.toList_inj,
      String.toList_ofList]
  constructor
  · rintro (_ | @⟨_, name, fills⟩)
    rw [(hfills name).1 fills]
  · rintro rfl
    exact .filled ((hfills _).2 rfl)

/-- Plain templates can be filled for any type. -/
theorem canName_of_plain (h : ∀ template, table.Needs t.kind mode template →
    ∃ pieces : List Piece, template = String.ofList (spell pieces)) : table.CanName t mode := by
  intro template hneeds
  obtain ⟨pieces, rfl⟩ := h template hneeds
  rw [String.toList_ofList]
  exact ⟨_, Text.Template.fills_spell_iff.2 rfl⟩

section InForm

variable (h : table.InForm)
include h

theorem InForm.helper_of_entry {kind : TypeKind} {e : CapabilityEntry}
    (he : table.entry kind mode = some e) : HelperInForm e.release ∧ HelperInForm e.retain :=
  h.helpers kind mode e (Option.filter_eq_some_iff.1 he).1

/-- The duty that is looked up is the one that the table has. -/
theorem obligation_eq_ok_iff : table.obligation t mode = .ok o ↔ table.Duty t mode o := by
  constructor
  · intro ho
    unfold obligation at ho
    cases mode with
    | borrowed => exact Except.ok.inj ho ▸ .lent
    | transferredOut | transferredIn =>
      cases he : table.entry t.kind _ with
      | none =>
        rw [he] at ho
        exact Except.ok.inj ho ▸ .unsupported (by decide) he
      | some e =>
        rw [he] at ho
        obtain ⟨release, hrelease, ho⟩ := Findings.exists_of_bind ho
        exact Except.ok.inj ho ▸
          .released rfl he ((helper_eq_ok_iff (h.helper_of_entry he).1).1 hrelease)
    | sharedCounted =>
      cases he : table.entry t.kind .sharedCounted with
      | none =>
        rw [he] at ho
        exact Except.ok.inj ho ▸ .unsupported (by decide) he
      | some e =>
        rw [he] at ho
        obtain ⟨release, hrelease, ho⟩ := Findings.exists_of_bind ho
        obtain ⟨retain, hretain, ho⟩ := Findings.exists_of_bind ho
        exact Except.ok.inj ho ▸ .counted he
          ((helper_eq_ok_iff (h.helper_of_entry he).1).1 hrelease)
          ((helper_eq_ok_iff (h.helper_of_entry he).2).1 hretain)
  · intro hduty
    cases hduty with
    | lent => rfl
    | unsupported owned entry =>
      unfold obligation
      rw [entry]
      cases mode with
      | borrowed => exact absurd rfl owned
      | _ => rfl
    | released transfer entry named =>
      have hrelease := (helper_eq_ok_iff (h.helper_of_entry entry).1).2 named
      unfold obligation
      rw [entry]
      cases mode with
      | borrowed | sharedCounted => cases transfer
      | transferredOut | transferredIn =>
        simp only [OwnershipMode.obligation, hrelease]
        rfl
    | counted entry released retained =>
      have hrelease := (helper_eq_ok_iff (h.helper_of_entry entry).1).2 released
      have hretain := (helper_eq_ok_iff (h.helper_of_entry entry).2).2 retained
      unfold obligation
      rw [entry]
      simp only [OwnershipMode.obligation, hrelease, hretain]
      rfl

/-- There is a duty exactly where all templates that it needs can be filled. -/
theorem exists_obligation_iff :
    (∃ o, table.obligation t mode = .ok o) ↔ table.CanName t mode := by
  simp only [obligation_eq_ok_iff h]
  constructor
  · rintro ⟨o, hduty⟩ template ⟨e, he, hneeds⟩
    cases hduty with
    | lent => simp at hneeds
    | unsupported owned entry => simp [entry] at he
    | released transfer entry named =>
      obtain rfl := Option.some.inj (entry.symm.trans he)
      rcases hneeds with ⟨-, hrelease⟩ | ⟨rfl, -⟩
      · exact exists_named_iff.1 ⟨_, named⟩ template hrelease
      · cases transfer
    | counted entry released retained =>
      obtain rfl := Option.some.inj (entry.symm.trans he)
      rcases hneeds with ⟨-, hrelease⟩ | ⟨-, hretain⟩
      · exact exists_named_iff.1 ⟨_, released⟩ template hrelease
      · exact exists_named_iff.1 ⟨_, retained⟩ template hretain
  · intro hnames
    by_cases howned : mode = .borrowed
    · subst howned
      exact ⟨_, .lent⟩
    cases he : table.entry t.kind mode with
    | none => exact ⟨_, .unsupported howned he⟩
    | some e =>
      obtain ⟨release, hrelease⟩ := exists_named_iff.2 fun template ht =>
        hnames template ⟨e, he, .inl ⟨howned, ht⟩⟩
      cases hmode : mode with
      | borrowed => exact absurd hmode howned
      | transferredOut | transferredIn => exact ⟨_, .released rfl (hmode ▸ he) hrelease⟩
      | sharedCounted =>
        obtain ⟨retain, hretain⟩ := exists_named_iff.2 fun template ht =>
          hnames template ⟨e, he, .inr ⟨hmode, ht⟩⟩
        exact ⟨_, .counted (hmode ▸ he) hrelease hretain⟩

end InForm

end Crossing.CapabilityTable
