import Mathlib
import Crossing.Proofs.Ownership.Settled

/-!
# Modes are coherent along the tree

In every resolved item (`resolveItem_coherent`), what is lent or counted lends everything below it
without a duty; a transferred value hands its mode on to each part, unless the part is counted, owns
nothing, or is a raw pointer with a hint; and no reference lies below a transferred value, unless
something counted or a lent raw pointer is between them. Without hints a mode is the direction of
its role wherever it is a transfer.

Each of the three follows from the standing at which a slot is settled, by induction over the way
down: in view everything is lent (`lent_of_view`), inside a transfer nothing is held by reference
(`shielded_of_transfer`), and without hints a transfer has the direction of the role
(`InRole`).
-/

namespace Crossing

/-- How a part crosses inside a value that crosses as `m`. -/
inductive Slot.HandedOn (hints : List (String × OwnershipMode)) (m : OwnershipMode) (c : Slot) :
    Prop where
  | transferred (mode : c.mode = m)
  | counted (held : c.type.holding = .counted) (mode : c.mode = .sharedCounted)
  | plain (held : c.type.holding = .value) (owns : c.type.OwnsNothing) (mode : c.mode = .borrowed)
  | hinted (held : c.type.holding = .raw) (hint : hints.lookup c.path = some c.mode)

/-- What a slot hides from a transfer above it: it is counted, or a raw pointer whose hint says that
what it points to is lent or counted. -/
def Slot.Shields (hints : List (String × OwnershipMode)) (p : Slot) : Prop :=
  p.mode = .sharedCounted ∨
    (p.type.holding = .raw ∧ hints.lookup p.path = some p.mode ∧ p.mode = .borrowed)

/-- The slot goes together with the slots below it, short of the signatures of functions. -/
structure Slot.Coherent (hints : List (String × OwnershipMode)) (p : Slot) : Prop where
  lends : p.mode = .sharedCounted ∨ (p.mode = .borrowed ∧ p.type.holding ≠ .value) →
    ∀ way q, p.Leads way q → way ≠ [] → q.mode = .borrowed ∧ q.obligation = .free
  handsOn : p.mode.isTransfer = true → ∀ c ∈ p.children, c.HandedOn hints p.mode
  encloses : p.mode.isTransfer = true → ∀ way q, p.Leads way q → q.type.holding = .borrowed →
    ∃ x ∈ way, x.Shields hints

namespace Ownership

variable {terms : Terms} {item : ExportItem} {s : Standing} {p q : Slot} {way : List Slot}

theorem obligation_borrowed {table : CapabilityTable} {t : InterfaceType} {o : Obligation}
    (h : table.obligation t .borrowed = .ok o) : o = .free :=
  (Except.ok.inj h).symm

theorem lent_of_view (h : Settled terms item s p) (hview : s.reach = .view) (hq : p.Leads way q) :
    q.mode = .borrowed ∧ q.obligation = .free := by
  have hmode : ∀ {p : Slot}, Settled terms item s p → p.mode = .borrowed := fun {p} h => by
    have hgives := h.gives
    rw [show s = ⟨.view, s.role⟩ from hview ▸ rfl] at hgives
    exact Standing.eq_borrowed_of_view hgives
  induction hq with
  | here p =>
    have hduty := h.duty
    rw [hmode h] at hduty
    exact ⟨hmode h, obligation_borrowed hduty⟩
  | down hplain hc _ ih =>
    have hchild := h.child hc
    rw [ofChild_of_plain hplain (hmode h) (.inr hview)] at hchild
    exact ih hchild

theorem grant_of_settled {m : OwnershipMode} (h : Settled terms item s p)
    (hs : s.reach = .transfer m) :
    Standing.Grant p.type ((terms.hintsFor item).lookup p.path) m p.mode := by
  have hgives := h.gives
  rw [show s = ⟨.transfer m, s.role⟩ from hs ▸ rfl] at hgives
  exact Standing.grant_of_transfer hgives

theorem handedOn_of_grant {hints : List (String × OwnershipMode)} {m : OwnershipMode}
    (h : Standing.Grant p.type (hints.lookup p.path) m p.mode) : p.HandedOn hints m := by
  cases h with
  | hinted held hint => exact .hinted held hint
  | counted held mode => exact .counted held mode
  | owning _ _ mode => exact .transferred mode
  | plain held owns mode => exact .plain held (InterfaceType.ownsNothing_of_ownsResources owns) mode
  | owned _ mode => exact .transferred mode

/-- Inside a transfer a reference is reached only behind what shields it. -/
theorem shielded_of_transfer {m : OwnershipMode} (hm : m.isTransfer = true)
    (h : Settled terms item s p) (hs : s.reach = .transfer m) (hq : p.Leads way q)
    (hheld : q.type.holding = .borrowed) : ∃ x ∈ way, x.Shields (terms.hintsFor item) := by
  induction hq generalizing s m with
  | here p =>
    have hgrant := grant_of_settled h hs
    cases hgrant <;> simp_all
  | @down p c q way hplain hc _ ih =>
    have htransfer : p.mode.isTransfer = true →
        ∃ x ∈ p :: way, x.Shields (terms.hintsFor item) := by
      intro hmode
      have hchild := h.child hc
      rw [ofChild_of_transfer hplain hmode] at hchild
      obtain ⟨x, hx, hshields⟩ := ih hmode hchild rfl hheld
      exact ⟨x, List.mem_cons_of_mem _ hx, hshields⟩
    cases grant_of_settled h hs with
    | hinted held hint =>
      cases hmode : p.mode with
      | borrowed => exact ⟨p, List.mem_cons_self, .inr ⟨held, hint, hmode⟩⟩
      | sharedCounted => exact ⟨p, List.mem_cons_self, .inl hmode⟩
      | transferredIn | transferredOut => exact htransfer (by rw [hmode]; rfl)
    | counted _ mode => exact ⟨p, List.mem_cons_self, .inl mode⟩
    | owning _ _ mode => exact htransfer (mode ▸ hm)
    | owned _ mode => exact htransfer (mode ▸ hm)
    | plain held _ mode =>
      have hchild := h.child hc
      rw [ofChild_of_plain hplain mode (.inl held)] at hchild
      obtain ⟨x, hx, hshields⟩ := ih hm hchild hs hheld
      exact ⟨x, List.mem_cons_of_mem _ hx, hshields⟩

theorem holding_ne_borrowed (h : Settled terms item s p) (hmode : p.mode.isTransfer = true) :
    p.type.holding ≠ .borrowed := by
  intro hheld
  rcases s with ⟨_ | _ | m, role⟩
  · rcases Standing.grant_of_position h.gives with hgrant | ⟨hlent, -⟩
    · cases hgrant <;> simp_all
    · rw [hlent] at hmode
      exact absurd hmode (by decide)
  · rw [(lent_of_view h rfl (.here p)).1] at hmode
    exact absurd hmode (by decide)
  · have hgrant := grant_of_settled h rfl
    cases hgrant <;> simp_all

theorem coherent_of_settled (h : Settled terms item s p) (hplain : p.type.kind ≠ .function) :
    p.Coherent (terms.hintsFor item) where
  lends := by
    intro hlent way q hq hne
    cases hq with
    | here => exact absurd rfl hne
    | down _ hc hq =>
      rcases hlent with hmode | ⟨hmode, hheld⟩
      · exact lent_of_view (h.child hc) (reach_ofChild_of_counted hplain hmode) hq
      · exact lent_of_view (h.child hc) (reach_ofChild_of_lent hplain hmode hheld) hq
  handsOn := by
    intro hmode c hc
    have hchild := h.child hc
    rw [ofChild_of_transfer hplain hmode] at hchild
    exact handedOn_of_grant (grant_of_settled hchild rfl)
  encloses := by
    intro hmode way q hq hheld
    cases hq with
    | here => exact absurd hheld (holding_ne_borrowed h hmode)
    | down _ hc hq =>
      have hchild := h.child hc
      rw [ofChild_of_transfer hplain hmode] at hchild
      obtain ⟨x, hx, hshields⟩ := shielded_of_transfer hmode hchild rfl hq hheld
      exact ⟨x, List.mem_cons_of_mem _ hx, hshields⟩

/-- Where the slot is inside a transfer, the transfer has the direction of its role. -/
def InRole (s : Standing) : Prop := ∀ m, s.reach = .transfer m → m = s.role.transfer

section Unhinted

variable (hints : terms.hintsFor item = [])
include hints

theorem mode_of_inRole (h : Settled terms item s p) (hs : InRole s) :
    p.mode = .borrowed ∨ p.mode = .sharedCounted ∨ p.mode = s.role.transfer := by
  have hgrant : ∀ {m}, Standing.Grant p.type ((terms.hintsFor item).lookup p.path) m p.mode →
      p.mode = .borrowed ∨ p.mode = .sharedCounted ∨ p.mode = m := by
    intro m hgrant
    rw [hints] at hgrant
    cases hgrant with
    | hinted _ hint => simp at hint
    | counted _ mode => exact .inr (.inl mode)
    | owning _ _ mode | owned _ mode => exact .inr (.inr mode)
    | plain _ _ mode => exact .inl mode
  rcases s with ⟨_ | _ | m, role⟩
  · rcases Standing.grant_of_position h.gives with hg | ⟨hlent, -⟩
    · exact hgrant hg
    · exact .inl hlent
  · exact .inl (lent_of_view h rfl (.here p)).1
  · have hm : m = role.transfer := hs m rfl
    exact hm ▸ hgrant (grant_of_settled h rfl)

theorem inRole_ofChild (h : Settled terms item s p) (hs : InRole s) (c : Slot) :
    InRole (s.ofChild p c) := by
  have hmode := mode_of_inRole hints h hs
  by_cases hplain : p.type.kind = .function
  · rw [Standing.ofChild, if_pos hplain]
    rintro _ ⟨⟩
  · intro m hm
    rcases hmode with hmode | hmode | hmode
    · by_cases hheld : p.type.holding = .value
      · rw [ofChild_of_plain hplain hmode (.inl hheld)] at hm ⊢
        exact hs m hm
      · rw [reach_ofChild_of_lent hplain hmode hheld] at hm
        simp at hm
    · rw [reach_ofChild_of_counted hplain hmode] at hm
      simp at hm
    · have htransfer : p.mode.isTransfer = true := by
        rw [hmode]
        exact s.role.isTransfer_transfer
      rw [ofChild_of_transfer hplain htransfer] at hm ⊢
      obtain rfl : p.mode = m := by simpa using hm
      exact hmode

end Unhinted

end Ownership

/-- The modes of a resolved item go together along its tree, whatever it was resolved with and
after. Without hints, a transfer has the direction of the role. -/
theorem resolveItem_coherent {terms : Ownership.Terms} {item : ExportItem} {t : InterfaceType}
    {b : Ownership.Resolver} {r : ResolvedItem}
    (h : ((Ownership.resolveItem terms item t).run.run b).1 = .ok (.ok r)) :
    (∀ s ∈ r.slots, s.type.kind ≠ .function → s.Coherent (terms.hintsFor item)) ∧
      (terms.hintsFor item = [] → ∀ s ∈ r.slots,
        s.mode = .borrowed ∨ s.mode = .sharedCounted ∨ s.mode = s.role.transfer) := by
  obtain ⟨-, -, -, hroot⟩ := Ownership.rooted_of_resolveItem h
  refine ⟨fun s hs hplain => ?_, fun hints s hs => ?_⟩
  · rcases Ownership.settled_of_mem_preorder (Q := fun _ => True) (fun _ => trivial)
      (fun _ _ _ _ _ _ => trivial) hroot s hs with ⟨st, -, hsettled⟩ | ⟨hfunction, -⟩
    · exact Ownership.coherent_of_settled hsettled hplain
    · exact absurd hfunction hplain
  · rcases Ownership.settled_of_mem_preorder (Q := Ownership.InRole) (fun _ => nofun)
      (fun st p hst hp c _ => Ownership.inRole_ofChild hints hp hst c) hroot s hs with
      ⟨st, hst, hsettled⟩ | ⟨-, hmode, -⟩
    · rw [hsettled.role]
      exact Ownership.mode_of_inRole hints hsettled hst
    · exact .inl hmode

section Examples

/-- A function item of whatever type. -/
def exported : ExportItem where
  qualifiedName := "crate::f"
  kind := .function
  isExplicit := true
  symbol := "f"
  index := 0
  modulePath := []
  declaration := ⟨"f", .everyone, [], [], {}, .function [] none none false false none⟩

/-- A target that renders everything, without helpers. -/
def renderer : CapabilityTable where
  target := "any"
  entries := fun _ _ => some {}
  intBits := [8]
  floatBits := []
  encodings := [.utf8]

/-- Takes a raw pointer to a text, and returns a text beside a counted pointer to a reference. -/
def takesRaw : InterfaceType :=
  .function [.pointer (.text .utf8 .owned) false .raw true]
    (.record "" [⟨"0", .text .utf8 .owned⟩,
      ⟨"1", .pointer (.pointer (.int 8 false) false .borrowed false) false .counted false⟩])
    .never .value

theorem resolveItem_coherent_takesRaw :
    let terms : Ownership.Terms := ⟨renderer, [("crate::f", [("arg0", .transferredIn)])]⟩
    ∃ r, ((Ownership.resolveItem terms exported takesRaw).run.run
        { engine := { word := .bits64 } }).1 = .ok (.ok r)
      ∧ (∀ s ∈ r.slots, s.type.kind ≠ .function → s.Coherent (terms.hintsFor exported))
      ∧ (terms.hintsFor exported = [] → ∀ s ∈ r.slots,
        s.mode = .borrowed ∨ s.mode = .sharedCounted ∨ s.mode = s.role.transfer) := by
  intro terms
  refine ⟨?r, ?resolved, resolveItem_coherent ?resolved⟩
  case resolved =>
    cbv
    rfl

end Examples

end Crossing
