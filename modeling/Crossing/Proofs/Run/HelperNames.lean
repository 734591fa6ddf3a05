import Mathlib
import Crossing.Proofs.Identifier.Words
import Crossing.Proofs.Run.Actionable
import Crossing.Proofs.Text.Template

/-!
# Which types share their helpers

The symbol of a record or a union keeps of its qualified name nothing but the words, without any
`crate::` (`nominalSymbol_eq_iff`). Where a target gives two such types the same plain templates,
they share a helper exactly when the words are the same (`shared_helper_iff`), also if they are
different types: `crate::NetId` and `crate::net::Id` are released by one function
(`shared_of_words`).
-/

namespace Crossing

open Text.Template (Piece spell fill)

/-- A record or a union of a name. -/
def InterfaceType.IsNominal (t : InterfaceType) (name : String) : Prop :=
  name ≠ "" ∧ ((∃ fields, t = .record name fields) ∨ ∃ variants, t = .taggedUnion name variants)

/-- What helper names keep of a qualified name. -/
def helperWords (name : String) : List (List Char) :=
  Identifier.words (InterfaceType.withoutCrate name.toList)

theorem InterfaceType.IsNominal.symbol_eq {t : InterfaceType} {name : String}
    (h : t.IsNominal name) : t.symbol = nominalSymbol name := by
  obtain ⟨hname, ⟨fields, rfl⟩ | ⟨variants, rfl⟩⟩ := h
  · simp [symbol, hname]
  · simp [symbol, hname]

theorem nominalSymbol_eq_iff {name name' : String} :
    InterfaceType.nominalSymbol name = InterfaceType.nominalSymbol name' ↔
      helperWords name = helperWords name' := by
  rw [InterfaceType.nominalSymbol, InterfaceType.nominalSymbol, String.ofList_inj]
  exact Identifier.toSnake_eq_iff

namespace CapabilityTable

variable {table : CapabilityTable} {template : Option String} {t u : InterfaceType}
  {mode : OwnershipMode} {e : CapabilityEntry} {o : Obligation}

/-- A template is plain, and the symbol has a place in it. -/
def NamesSymbol (template : Option String) : Prop :=
  ∀ text, template = some text →
    ∃ pieces : List Piece, .symbol ∈ pieces ∧ text = String.ofList (spell pieces)

theorem helper_congr (h : t.symbol = u.symbol) : helper template t = helper template u := by
  unfold helper
  rw [h]

/-- Types that a plain template gives one name have one symbol. -/
theorem symbol_eq_of_helper {name : String} (htemplate : NamesSymbol template)
    (ht : helper template t = .ok (some name)) (hu : helper template u = .ok (some name)) :
    t.symbol = u.symbol := by
  cases template with
  | none => cases ht
  | some text =>
    obtain ⟨pieces, hsymbol, rfl⟩ := htemplate text rfl
    have hfill : ∀ {v : InterfaceType}, helper (some (String.ofList (spell pieces))) v
        = .ok (some name) → String.ofList (fill v.symbol.toList pieces) = name := by
      intro v hv
      unfold helper at hv
      simp only [String.toList_ofList, Text.Template.expand_spell] at hv
      split at hv
      · cases hv
      · exact Option.some.inj (Except.ok.inj hv)
    have hequal := String.ofList_inj.1 ((hfill ht).trans (hfill hu).symm)
    exact String.toList_inj.1 (Text.Template.fill_inj hsymbol hequal)

/-- Two types that fill a template: they come to one name exactly when there is a name, and their
symbols are the same. -/
theorem shared_iff {x y : Option String} (htemplate : NamesSymbol template)
    (hx : helper template t = .ok x) (hy : helper template u = .ok y) :
    (∃ name, x = some name ∧ y = some name) ↔ (∃ name, x = some name) ∧ t.symbol = u.symbol := by
  constructor
  · rintro ⟨name, rfl, rfl⟩
    exact ⟨⟨name, rfl⟩, symbol_eq_of_helper htemplate hx hy⟩
  · rintro ⟨⟨name, rfl⟩, hsymbol⟩
    rw [helper_congr hsymbol, hy] at hx
    exact ⟨name, rfl, Except.ok.inj hx⟩

/-- The helpers that a duty comes with are those of the entry, as far as the mode needs them. -/
theorem helpers_of_obligation (hentry : table.entry t.kind mode = some e)
    (h : table.obligation t mode = .ok o) :
    (mode = .borrowed → o.release = none) ∧
      (mode ≠ .borrowed → helper e.release t = .ok o.release) ∧
      (mode ≠ .sharedCounted → o.retain = none) ∧
      (mode = .sharedCounted → helper e.retain t = .ok o.retain) := by
  rw [obligation, hentry] at h
  cases mode with
  | borrowed =>
    obtain rfl := Except.ok.inj h
    exact ⟨fun _ => rfl, absurd rfl, fun _ => rfl, by simp⟩
  | sharedCounted =>
    obtain ⟨release, hrelease, h⟩ := Findings.exists_of_bind h
    obtain ⟨retain, hretain, h⟩ := Findings.exists_of_bind h
    obtain rfl := Except.ok.inj h
    exact ⟨by simp, fun _ => hrelease, absurd rfl, fun _ => hretain⟩
  | transferredIn | transferredOut =>
    obtain ⟨release, hrelease, h⟩ := Findings.exists_of_bind h
    obtain rfl := Except.ok.inj h
    exact ⟨by simp, fun _ => hrelease, fun _ => rfl, by simp⟩

end CapabilityTable

open Run CapabilityTable

/-- In a bundle, two slots of one mode hold records or unions, and the target gives both types the
same entry, with plain templates. They share a helper exactly when the mode needs it and the names
of the types have the same words. -/
theorem shared_helper_iff {module : NativeModule} {settings : RunSettings}
    {outcomes : Except RunFault (List (Findings Diagnostic ResolvedItem))} {s : RunState}
    {ending : Except RunFault RunResult × List Log.Record} {result : RunResult} {bundle : Bundle}
    (h : Goes module settings outcomes s ending) (hresult : ending.1 = .ok result)
    (hbundle : result.bundle = some bundle) {p q : Slot}
    (hp : ∃ r ∈ bundle.items, p ∈ r.slots) (hq : ∃ r ∈ bundle.items, q ∈ r.slots)
    {a b : String} (ha : p.type.IsNominal a) (hb : q.type.IsNominal b) (hmode : q.mode = p.mode)
    (hentry : settings.capabilities.entries q.type.kind p.mode
      = settings.capabilities.entries p.type.kind p.mode)
    (htemplates : ∀ e, settings.capabilities.entries p.type.kind p.mode = some e →
      CapabilityTable.NamesSymbol e.release ∧ CapabilityTable.NamesSymbol e.retain) :
    ((∃ name, p.obligation.release = some name ∧ q.obligation.release = some name) ↔
        p.mode ≠ .borrowed ∧ helperWords a = helperWords b) ∧
      ((∃ name, p.obligation.retain = some name ∧ q.obligation.retain = some name) ↔
        p.mode = .sharedCounted ∧ helperWords a = helperWords b) := by
  obtain ⟨r, hr, hp⟩ := hp
  obtain ⟨r', hr', hq⟩ := hq
  obtain ⟨-, hslots⟩ := h.bundled hresult hbundle
  obtain ⟨hrenders, hduty, hconcrete⟩ := hslots r hr p hp
  obtain ⟨-, hduty', -⟩ := hslots r' hr' q hq
  have hactionable := Slot.actionable_of_renders hrenders (Ownership.kind_of_obligation hduty)
    hconcrete
  -- The one entry `e` names the helpers of both slots.
  obtain ⟨e, he, hsupported⟩ := hactionable.supported
  obtain ⟨hrelease, hretain⟩ := htemplates e he
  obtain ⟨hlent, hreleased, huncounted, hcounted⟩ :=
    helpers_of_obligation (Option.filter_eq_some_iff.2 ⟨he, hsupported⟩) hduty
  rw [hmode] at hduty'
  obtain ⟨-, hreleased', -, hcounted'⟩ :=
    helpers_of_obligation (Option.filter_eq_some_iff.2 ⟨hentry.trans he, hsupported⟩) hduty'
  have hsymbols : p.type.symbol = q.type.symbol ↔ helperWords a = helperWords b := by
    rw [ha.symbol_eq, hb.symbol_eq, nominalSymbol_eq_iff]
  constructor
  · by_cases hborrowed : p.mode = .borrowed
    · simp [hborrowed, hlent hborrowed]
    · rw [shared_iff hrelease (hreleased hborrowed) (hreleased' hborrowed), hsymbols]
      exact and_congr_left fun _ => iff_of_true (hactionable.named.1 hborrowed) hborrowed
  · by_cases hshared : p.mode = .sharedCounted
    · rw [shared_iff hretain (hcounted hshared) (hcounted' hshared), hsymbols]
      exact and_congr_left fun _ => iff_of_true (hactionable.named.2 hshared) hshared
    · simp [hshared, huncounted hshared]

section Examples

/-- A struct with a text in it. -/
def holdsText (name : String) : Declaration :=
  ⟨name, .everyone, [], [], {}, .struct [⟨some "s", .ofNames ["String"], .everyone⟩] .named⟩

/-- Two structs, and one in a module inside. -/
def networks : NativeModule where
  name := "crate"
  items := [holdsText "Net", holdsText "NetId"]
  children := [⟨"net", [holdsText "Id"], [], .everyone, {}⟩]
  visibility := .everyone
  span := {}

/-- Helpers that have the symbol as their name. -/
def bySymbol : CapabilityEntry where
  release := some "\x7bsymbol\x7d"
  retain := some "\x7bsymbol\x7d"

/-- Renders everything, with such helpers. -/
def naming : RunSettings where
  capabilities := { renderer with entries := fun _ _ => some bySymbol }

def structOf (name : String) : InterfaceType := .record name [⟨"s", .text .utf8 .owned⟩]

/-- The slots of a bundle: what they hold and in which mode, and what releases it. -/
def releases (b : Bundle) : List (InterfaceType × OwnershipMode × Option String) :=
  b.items.flatMap fun r => r.slots.map fun p => (p.type, p.mode, p.obligation.release)

theorem releases_networks : (run networks naming).1.map (·.bundle.map releases) =
    .ok (some [(structOf "crate::Net", .transferredOut, some "net"),
      (.text .utf8 .owned, .transferredOut, some "str"),
      (structOf "crate::NetId", .transferredOut, some "net_id"),
      (.text .utf8 .owned, .transferredOut, some "str"),
      (structOf "crate::net::Id", .transferredOut, some "net_id"),
      (.text .utf8 .owned, .transferredOut, some "str")]) := by
  cbv

/-- The structs are handed over in slots of their own, and each is released by its symbol. -/
theorem slots_networks : ∃ result bundle, (run networks naming).1 = .ok result ∧
    result.bundle = some bundle ∧
    ∀ x ∈ [("crate::Net", "net"), ("crate::NetId", "net_id"), ("crate::net::Id", "net_id")],
      ∃ p : Slot, (∃ r ∈ bundle.items, p ∈ r.slots) ∧ p.type = structOf x.1 ∧
        p.mode = .transferredOut ∧ p.obligation.release = some x.2 := by
  have hreleases := releases_networks
  cases hresult : (run networks naming).1 with
  | error =>
    rw [hresult] at hreleases
    cases hreleases
  | ok result =>
    rw [hresult] at hreleases
    obtain ⟨bundle, hbundle, hreleases⟩ := Option.map_eq_some_iff.1 (Except.ok.inj hreleases)
    refine ⟨result, bundle, rfl, hbundle, fun x hx => ?_⟩
    have hlisted : (structOf x.1, .transferredOut, some x.2) ∈ releases bundle := by
      rw [hreleases]
      fin_cases hx <;> simp
    obtain ⟨r, hr, hlisted⟩ := List.mem_flatMap.1 hlisted
    obtain ⟨p, hp, hlisted⟩ := List.mem_map.1 hlisted
    simp only [Prod.mk.injEq] at hlisted
    exact ⟨p, ⟨r, hr, hp⟩, hlisted⟩

theorem isNominal_structOf {name : String} (h : name ≠ "") : (structOf name).IsNominal name :=
  ⟨h, .inl ⟨_, rfl⟩⟩

theorem namesSymbol_naming : NamesSymbol (some "\x7bsymbol\x7d") := by
  rintro _ ⟨⟩
  refine ⟨[.symbol], List.mem_cons_self, ?_⟩
  rfl

theorem helperWords_networks : helperWords "crate::Net" = ["net".toList] ∧
    helperWords "crate::net::Id" = ["net".toList, "id".toList] := by
  constructor <;> rfl

/-- Two structs whose names have other words are released by helpers of their own. -/
theorem apart_of_words : ∃ result bundle, (run networks naming).1 = .ok result ∧
    result.bundle = some bundle ∧ ∃ p q : Slot,
      (∃ r ∈ bundle.items, p ∈ r.slots) ∧ (∃ r ∈ bundle.items, q ∈ r.slots) ∧
      p.type = structOf "crate::Net" ∧ q.type = structOf "crate::net::Id" ∧
      p.mode = .transferredOut ∧ q.mode = p.mode ∧
      ¬ ∃ name, p.obligation.release = some name ∧ q.obligation.release = some name := by
  obtain ⟨result, bundle, hresult, hbundle, hslots⟩ := slots_networks
  obtain ⟨p, hp, hptype, hpmode, -⟩ := hslots ("crate::Net", "net") (by simp)
  obtain ⟨q, hq, hqtype, hqmode, -⟩ := hslots ("crate::net::Id", "net_id") (by simp)
  obtain ⟨outcomes, s, h⟩ := goes_run networks naming
  have hshared := shared_helper_iff h hresult hbundle hp hq
    (hptype ▸ isNominal_structOf (by decide)) (hqtype ▸ isNominal_structOf (by decide))
    (hqmode.trans hpmode.symm) rfl fun e he => by
      obtain rfl := Option.some.inj he
      exact ⟨namesSymbol_naming, namesSymbol_naming⟩
  refine ⟨result, bundle, hresult, hbundle, p, q, hp, hq, hptype, hqtype, hpmode,
    hqmode.trans hpmode.symm, fun hname => ?_⟩
  have hwords := (hshared.1.1 hname).2
  rw [helperWords_networks.1, helperWords_networks.2] at hwords
  cases hwords

/-- Two structs of different names are released by one helper, since their names have the same
words. -/
theorem shared_of_words : (∀ kind mode, ∃ e, naming.capabilities.entries kind mode = some e ∧
      NamesSymbol e.release ∧ NamesSymbol e.retain) ∧
    (∃ result bundle, (run networks naming).1 = .ok result ∧ result.bundle = some bundle ∧
      ∃ p q : Slot, (∃ r ∈ bundle.items, p ∈ r.slots) ∧ (∃ r ∈ bundle.items, q ∈ r.slots) ∧
        p.type = structOf "crate::NetId" ∧ q.type = structOf "crate::net::Id" ∧
        p.mode = .transferredOut ∧ q.mode = .transferredOut ∧
        p.obligation.release = some "net_id" ∧ q.obligation.release = some "net_id") ∧
    InterfaceType.nominalSymbol "crate::geom::Point" = "geom_point" ∧
      InterfaceType.nominalSymbol "crate::GeomPoint" = "geom_point" ∧
      InterfaceType.nominalSymbol "crate::geom_point" = "geom_point" := by
  refine ⟨fun _ _ => ⟨_, rfl, namesSymbol_naming, namesSymbol_naming⟩, ?run, ?qualified, ?joined,
    ?snake⟩
  case run =>
    obtain ⟨result, bundle, hresult, hbundle, hslots⟩ := slots_networks
    obtain ⟨p, hp, hptype, hpmode, hprelease⟩ := hslots ("crate::NetId", "net_id") (by simp)
    obtain ⟨q, hq, hqtype, hqmode, hqrelease⟩ := hslots ("crate::net::Id", "net_id") (by simp)
    exact ⟨result, bundle, hresult, hbundle, p, q, hp, hq, hptype, hqtype, hpmode, hqmode,
      hprelease, hqrelease⟩
  all_goals rfl

end Examples

end Crossing
