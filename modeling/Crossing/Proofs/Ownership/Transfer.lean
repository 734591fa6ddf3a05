import Crossing.Capability.Builtin
import Crossing.Proofs.Ownership.Coherence

/-!
# Owned values are transferred

From a position down to an owned value, by values held in place, optional values and owned pointers,
the transfer of the position reaches the value (`transferred_iff`), with one exception: an optional
value whose contents borrow counts as a reference, and what it owns besides is lent with it and
released by nobody (`lent_of_returned_option`).
-/

namespace Crossing

/-- The item position of a declaration, or a position in the signature of a function. -/
def ResolvedItem.Position (r : ResolvedItem) (p : Slot) : Prop :=
  (p = r.root ∧ r.item.kind ≠ .function) ∨
    ∃ f ∈ r.slots, f.type.kind = .function ∧ p ∈ f.children

/-- Held in place, as optional, or owned. -/
def InterfaceType.Held (t : InterfaceType) : Prop :=
  t.holding = .value ∨ t.holding = .optional ∨ t.holding = .owned

namespace Ownership

variable {terms : Terms} {item : ExportItem} {s : Standing} {p q : Slot} {way : List Slot}

/-- A value on the way to something owned owns something. -/
theorem ownsResources_of_leads (h : Settled terms item s p) (hq : p.Leads way q)
    (hheld : ∀ x ∈ way, x.type.Held) (hlent : ∀ x ∈ way, ¬ x.type.LentOptional)
    (howned : q.type.holding = .owned) : p.type.ownsResources ≠ .ok false := by
  intro hfalse
  have hown := InterfaceType.holding_of_ownsResources hfalse
  induction hq generalizing s with
  | here p => exact hown.1 howned
  | @down p c q way hplain hc _ ih =>
    rcases hheld p List.mem_cons_self with hvalue | hoptional | howned
    · have hpart := InterfaceType.ownsResources_part hvalue hplain hfalse (h.type_mem_parts hc)
      exact ih (h.child hc) (fun x hx => hheld x (List.mem_cons_of_mem _ hx))
        (fun x hx => hlent x (List.mem_cons_of_mem _ hx)) howned hpart
        (InterfaceType.holding_of_ownsResources hpart)
    · exact hlent p List.mem_cons_self ⟨hoptional, hown.2.2 hoptional⟩
    · exact hown.1 howned

/-- The way that a slot takes when nothing on it is a lent optional value. -/
def Carries (s : Standing) : Prop := s.reach = .position ∨ s.reach = .transfer s.role.transfer

theorem mode_of_carries (h : Settled terms item s p) (hs : Carries s) (hheld : p.type.Held)
    (hlent : ¬ p.type.LentOptional) (howns : p.type.ownsResources ≠ .ok false) :
    p.mode = s.role.transfer := by
  have hgrant : ∀ {m}, Standing.Grant p.type ((terms.hintsFor item).lookup p.path) m p.mode →
      p.mode = m := by
    intro m hgrant
    cases hgrant with
    | hinted held | counted held => simp [InterfaceType.Held, held] at hheld
    | owning _ _ mode | owned _ mode => exact mode
    | plain _ owns => exact absurd owns howns
  rcases s with ⟨reach, role⟩
  rcases hs with hreach | hreach
  · obtain rfl : reach = .position := hreach
    rcases Standing.grant_of_position h.gives with hg | ⟨-, hb | hl | ⟨hr, -⟩⟩
    · exact hgrant hg
    · simp [InterfaceType.Held, hb] at hheld
    · exact absurd hl hlent
    · simp [InterfaceType.Held, hr] at hheld
  · exact hgrant (grant_of_settled h hreach)

theorem transferred_of_leads (h : Settled terms item s p) (hs : Carries s) (hq : p.Leads way q)
    (hheld : ∀ x ∈ way, x.type.Held) (hlent : ∀ x ∈ way, ¬ x.type.LentOptional)
    (howned : q.type.holding = .owned) : q.mode = q.role.transfer := by
  have howns := ownsResources_of_leads h hq hheld hlent howned
  induction hq generalizing s with
  | here p =>
    rw [h.role]
    refine mode_of_carries h hs (.inr (.inr howned)) (fun hl => ?_) howns
    simp [InterfaceType.LentOptional, howned] at hl
  | @down p c q way hplain hc hway ih =>
    have hmode := mode_of_carries h hs (hheld p List.mem_cons_self) (hlent p List.mem_cons_self) howns
    have hchild := h.child hc
    have htransfer : p.mode.isTransfer = true := hmode ▸ s.role.isTransfer_transfer
    rw [ofChild_of_transfer hplain htransfer] at hchild
    have hheld' : ∀ x ∈ way, x.type.Held := fun x hx => hheld x (List.mem_cons_of_mem _ hx)
    have hlent' : ∀ x ∈ way, ¬ x.type.LentOptional := fun x hx =>
      hlent x (List.mem_cons_of_mem _ hx)
    exact ih hchild (.inr (by rw [hmode])) hheld' hlent' howned
      (ownsResources_of_leads hchild hway hheld' hlent' howned)

theorem mode_of_lentOptional (h : Settled terms item s p) (hl : p.type.LentOptional) :
    p.mode = .borrowed := by
  have hgrant : ∀ {m}, ¬ Standing.Grant p.type ((terms.hintsFor item).lookup p.path) m p.mode := by
    intro m hgrant
    obtain ⟨hoptional, hborrows⟩ := hl
    cases hgrant <;> simp_all
  rcases s with ⟨_ | _ | m, role⟩
  · rcases Standing.grant_of_position h.gives with hg | ⟨hmode, -⟩
    · exact absurd hg hgrant
    · exact hmode
  · exact (lent_of_view h rfl (.here p)).1
  · exact absurd (grant_of_settled h rfl) hgrant

/-- Below an optional value that counts as a reference everything is lent. -/
theorem lent_of_leads (h : Settled terms item s p) (hq : p.Leads way q)
    (hlent : ∃ x ∈ way, x.type.LentOptional) : q.mode = .borrowed := by
  induction hq generalizing s with
  | here => simp at hlent
  | @down p c q way hplain hc hway ih =>
    obtain ⟨x, hx, hl⟩ := hlent
    rcases List.mem_cons.1 hx with rfl | hx
    · have hheld : x.type.holding ≠ .value := by simp [hl.1]
      have hview := reach_ofChild_of_lent (s := s) (c := c) hplain (mode_of_lentOptional h hl) hheld
      exact (lent_of_view (h.child hc) hview hway).1
    · exact ih (h.child hc) ⟨x, hx, hl⟩

theorem settled_of_leads (h : Settled terms item s p) (hq : p.Leads way q) :
    ∃ s, Settled terms item s q := by
  induction hq generalizing s with
  | here => exact ⟨s, h⟩
  | down _ hc _ ih => exact ih (h.child hc)

theorem kind_of_obligation {table : CapabilityTable} {t : InterfaceType} {m : OwnershipMode}
    {o : Obligation} (h : table.obligation t m = .ok o) : o.kind = m.obligation := by
  unfold CapabilityTable.obligation at h
  split at h
  · rename_i hkind
    rw [← Except.ok.inj h, hkind]
    rfl
  · rw [← Except.ok.inj h]
  · rename_i e hkind _
    obtain ⟨release, -, h⟩ := Findings.exists_of_bind h
    obtain ⟨retain, -, h⟩ := Findings.exists_of_bind h
    rw [← Except.ok.inj h, hkind]
  · obtain ⟨release, -, h⟩ := Findings.exists_of_bind h
    rw [← Except.ok.inj h]

theorem settled_of_position {t : InterfaceType} {b : Resolver} {r : ResolvedItem}
    (h : ((resolveItem terms item t).run.run b).1 = .ok (.ok r)) (hp : r.Position p) :
    ∃ role, Settled terms item ⟨.position, role⟩ p := by
  obtain ⟨hitem, -, -, hroot⟩ := rooted_of_resolveItem h
  rcases hp with ⟨rfl, hkind⟩ | ⟨f, hf, hfunction, hp⟩
  · cases hroot with
    | declaration hsettled => exact ⟨.declaration, hsettled⟩
    | function hk => exact absurd hk (hitem ▸ hkind)
  · rcases settled_of_mem_preorder (Q := fun _ => True) (fun _ => trivial)
      (fun _ _ _ _ _ _ => trivial) hroot f hf with ⟨st, -, hsettled⟩ | ⟨-, -, hsignature⟩
    · have hchild := hsettled.child hp
      rw [Standing.ofChild, if_pos hfunction] at hchild
      exact ⟨p.role, hchild⟩
    · exact ⟨p.role, hsignature p hp⟩

end Ownership

/-- An owned value below a position, reached by nothing but values in place, optional values and
owned pointers, is transferred, and its duty is that of a transfer, exactly when no optional value
on the way borrows. -/
theorem transferred_iff {terms : Ownership.Terms} {item : ExportItem} {t : InterfaceType}
    {b : Ownership.Resolver} {r : ResolvedItem}
    (h : ((Ownership.resolveItem terms item t).run.run b).1 = .ok (.ok r)) {p q : Slot}
    (hp : r.Position p) {way : List Slot} (hq : p.Leads way q) (hheld : ∀ x ∈ way, x.type.Held)
    (howned : q.type.holding = .owned) :
    q.obligation.kind = q.mode.obligation ∧
      (q.mode.isTransfer = true ↔ ∀ x ∈ way, ¬ x.type.LentOptional) := by
  obtain ⟨role, hsettled⟩ := Ownership.settled_of_position h hp
  obtain ⟨s, hend⟩ := Ownership.settled_of_leads hsettled hq
  refine ⟨Ownership.kind_of_obligation hend.duty, fun htransfer x hx hl => ?_, fun hlent => ?_⟩
  · rw [Ownership.lent_of_leads hsettled hq ⟨x, hx, hl⟩] at htransfer
    exact absurd htransfer (by decide)
  · rw [Ownership.transferred_of_leads hsettled (.inl rfl) hq hheld hlent howned]
    exact q.role.isTransfer_transfer

section Examples

/-- Returns a text beside something else, or nothing. -/
def returnsOption (other : InterfaceType) : InterfaceType :=
  .function [] (.pointer (.record "" [⟨"0", .text .utf8 .owned⟩, ⟨"1", other⟩]) true .optional false)
    .never .value

/-- Beside a number the text is transferred. -/
theorem transferred_of_returned_option :
    ∃ r, ((Ownership.resolveItem { capabilities := renderer } exported
        (returnsOption (.int 8 false))).run.run { engine := { word := .bits64 } }).1 = .ok (.ok r)
      ∧ ∃ p way q, r.Position p ∧ p.Leads way q ∧ (∀ x ∈ way, x.type.Held)
        ∧ q.type.holding = .owned ∧ q.obligation.kind = q.mode.obligation
        ∧ q.mode.isTransfer = true := by
  have hrun : ∃ r, ((Ownership.resolveItem { capabilities := renderer } exported
        (returnsOption (.int 8 false))).run.run { engine := { word := .bits64 } }).1 = .ok (.ok r)
      ∧ ∃ p way q, r.Position p ∧ p.Leads way q ∧ (∀ x ∈ way, x.type.Held)
        ∧ q.type.holding = .owned ∧ ∀ x ∈ way, ¬ x.type.LentOptional := by
    refine ⟨?r, ?resolved, ?inside⟩
    case resolved =>
      cbv
      rfl
    case inside =>
      refine ⟨_, [_, _], _, .inr ⟨_, List.mem_cons_self, rfl, List.mem_cons_self⟩,
        .down (by decide) List.mem_cons_self (.down (by decide) List.mem_cons_self (.here _)),
        ?_, rfl, ?_⟩
      · simp [InterfaceType.Held, InterfaceType.holding]
      · simp only [List.forall_mem_cons, InterfaceType.LentOptional]
        decide
  obtain ⟨r, hr, p, way, q, hp, hq, hheld, howned, hlent⟩ := hrun
  have htransferred := transferred_iff hr hp hq hheld howned
  exact ⟨r, hr, p, way, q, hp, hq, hheld, howned, htransferred.1, htransferred.2.2 hlent⟩

/-- Beside a reference the text is lent to the caller, and nobody releases it. -/
theorem lent_of_returned_option :
    ∃ r, ((Ownership.resolveItem { capabilities := .dart } exported
        (returnsOption (.text .utf8 .borrowed))).run.run
          { engine := { word := .bits64 } }).1 = .ok (.ok r)
      ∧ ∃ p way q, r.Position p ∧ p.Leads way q ∧ (∀ x ∈ way, x.type.Held)
        ∧ q.type.holding = .owned ∧ q.mode = .borrowed ∧ q.obligation = .free := by
  refine ⟨?r, ?resolved, ?inside⟩
  case resolved =>
    cbv
    rfl
  case inside =>
    refine ⟨_, [_, _], _, .inr ⟨_, List.mem_cons_self, rfl, List.mem_cons_self⟩,
      .down (by decide) List.mem_cons_self (.down (by decide) List.mem_cons_self (.here _)),
      ?_, rfl, rfl, rfl⟩
    simp [InterfaceType.Held, InterfaceType.holding]

end Examples

end Crossing
