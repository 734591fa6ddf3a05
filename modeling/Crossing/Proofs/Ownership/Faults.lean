import Mathlib
import Crossing.Proofs.Ownership.Extension

/-!
# Faults of the resolver

Resolving an item ends in a fault for one of two reasons (`Fails`): a helper of a type inside the
item has no name, or the item cannot be resolved against any table (`fails_ruledItem`). For what the
resolver looks at, and in which order, does not depend on the table, and nothing else of a table can
fail.
-/

namespace Crossing

namespace Ownership

variable {w : WordSize} {terms : Terms} {item : ExportItem} {fault : Fault}

/-- Why resolving something of a type ends in a fault, where `again` is what the same comes to
against another table. -/
inductive Fails {α : Type} (terms : Terms) (t : InterfaceType)
    (again : CapabilityTable → Except Fault α) : Fault → Prop where
  /-- The table has no name for a helper of a type inside. -/
  | unnamed {u : InterfaceType} {mode : OwnershipMode} {why : Text.Template.Fault}
      (inside : t.Contains u) (helper : terms.capabilities.obligation u mode = .error why) :
      Fails terms t again (.helper why)
  /-- No table would do. -/
  | anyway {fault : Fault} (other : ∀ why, fault ≠ .helper why)
      (fails : ∀ b, ∃ fault', again b = .error fault') : Fails terms t again fault

section Fails

variable {α β : Type} {again : CapabilityTable → Except Fault α} {t u : InterfaceType}

/-- What fails with a fault that is no matter of helpers, whatever the table. -/
theorem Fails.of_same {e : Fault} (hother : ∀ why, e ≠ .helper why)
    (hsame : ∀ b, again b = .error e) (h : again terms.capabilities = .error fault) :
    Fails terms t again fault := by
  obtain rfl : e = fault := Except.error.inj ((hsame _).symm.trans h)
  exact .anyway hother fun b => ⟨e, hsame b⟩

/-- What fails for a part fails for the whole, if the whole cannot do without the part. -/
theorem Fails.of_part (hu : u ∈ t.parts) (h : Fails terms u again fault)
    {whole : CapabilityTable → Except Fault β}
    (hwhole : ∀ b, (∃ fault', again b = .error fault') → ∃ fault', whole b = .error fault') :
    Fails terms t whole fault := by
  cases h with
  | unnamed inside helper => exact .unnamed (.head hu inside) helper
  | anyway other fails => exact .anyway other fun b => hwhole b (fails b)

/-- A loop fails if its body does for some element. -/
theorem exists_fault_of_mem {ι : Type} {f : ι → Except Fault α} {xs : List ι} {x : ι} (hx : x ∈ xs)
    (h : ∃ fault, f x = .error fault) : ∃ fault, xs.mapM f = .error fault := by
  cases hmap : xs.mapM f with
  | error fault => exact ⟨fault, rfl⟩
  | ok ys =>
    obtain ⟨made, rfl, -, hmade⟩ := exists_of_forall₂ (hmap ▸ OnEach.of_mapM f xs ()).forall₂
    obtain ⟨p, hp, rfl⟩ := List.mem_map.1 hx
    obtain ⟨fault, hfault⟩ := h
    rw [hmade p hp] at hfault
    cases hfault

end Fails

/-- Nothing can fail in a slot behind its parts but the name of its own helper. -/
theorem unnamed_of_ruledWhole {s : Standing} {label path : String} {t : InterfaceType}
    {mode : OwnershipMode} {layout : Layout} {parts : Findings Diagnostic (List Slot)}
    (h : ruledWhole terms item s label path t mode layout parts = .error fault) :
    ∃ why, terms.capabilities.obligation t mode = .error why ∧ fault = .helper why := by
  unfold ruledWhole at h
  split at h
  · cases h
  cases hduty : terms.capabilities.obligation t mode with
  | ok o =>
    rw [hduty] at h
    cases h
  | error why =>
    rw [hduty] at h
    exact ⟨why, rfl, (Except.error.inj h).symm⟩

theorem fails_ruledSlot (s : Standing) (label path : String) (t : InterfaceType)
    (h : ruledSlot w terms item s label path t = .error fault) :
    Fails terms t (fun b => ruledSlot w (terms.against b) item s label path t) fault := by
  have hagainst : ∀ b, ruledMode (terms.against b) item s path t = ruledMode terms item s path t :=
    fun _ => rfl
  induction t using InterfaceType.parts_induction generalizing s label path with
  | h t ih =>
    rcases ruledMode_cases terms item s path t with
      ⟨why, -, hmode⟩ | ⟨d, -, hmode⟩ | ⟨mode, hmode⟩
    · refine .of_same (e := .misheld why) (by simp) (fun b => ?_) h
      rw [ruledSlot, hagainst, hmode]
      rfl
    · rw [ruledSlot, hmode] at h
      cases h
    rcases hlayout : t.layoutOf w with range | layout
    · refine .of_same (e := .tags range) (by simp) (fun b => ?_) h
      rw [ruledSlot, hagainst, hmode, hlayout]
      rfl
    rw [ruledSlot_eq hmode hlayout] at h
    cases hparts : (s.parts t mode).mapM (ruledPart w terms item path) with
    | error e =>
      rw [hparts] at h
      obtain rfl := Except.error.inj h
      have hloop := hparts ▸ OnEach.of_mapM (ruledPart w terms item path) (s.parts t mode) ()
      obtain ⟨x, hx, hfails⟩ := hloop.exists_failed
      -- A part that no table lets through stops the loop over the parts whatever the table.
      have hmem := Standing.mem_parts hx
      refine (ih x.2.1 hmem _ _ _ hfails fun _ => rfl).of_part hmem fun b hb => ?_
      rw [ruledSlot_eq ((hagainst b).trans hmode) hlayout]
      obtain ⟨fault', hfault'⟩ :=
        exists_fault_of_mem (f := ruledPart w (terms.against b) item path) hx hb
      exact ⟨fault', by rw [hfault']; rfl⟩
    | ok parts =>
      rw [hparts] at h
      obtain ⟨why, hduty, rfl⟩ := unnamed_of_ruledWhole h
      exact .unnamed .refl hduty

theorem fails_ruledFunction (params : List InterfaceType) (ret : InterfaceType)
    (failure : Failure InterfaceType) (holding : Holding) :
    let t := InterfaceType.function params ret failure holding
    ruledFunction w terms item t params ret failure = .error fault → Fails terms t
      (fun b => ruledFunction w (terms.against b) item t params ret failure) fault := by
  intro t h
  have hloop := OnEach.of_mapM
    (fun x => ruledSlot w terms item x.2.2 x.1 x.1 x.2.1) (positions item params ret failure) ()
  unfold ruledFunction at h
  cases hparts : (positions item params ret failure).mapM fun x =>
      ruledSlot w terms item x.2.2 x.1 x.1 x.2.1 with
  | error e =>
    simp only [hparts] at h
    obtain rfl := Except.error.inj h
    obtain ⟨x, hx, hfails⟩ := (hparts ▸ hloop).exists_failed
    have hmem : x.2.1 ∈ t.parts := mem_parts_of_mem_positions holding hx
    refine (fails_ruledSlot _ _ _ _ hfails).of_part hmem fun b hb => ?_
    obtain ⟨fault', hfault'⟩ := exists_fault_of_mem
      (f := fun x => ruledSlot w (terms.against b) item x.2.2 x.1 x.1 x.2.1) hx hb
    exact ⟨fault', by rw [ruledFunction, hfault']; rfl⟩
  | ok parts =>
    simp only [hparts, bind, Except.bind] at h
    split at h <;> cases h

theorem fails_ruledItem (t : InterfaceType) (h : ruledItem w terms item t = .error fault) :
    Fails terms t (fun b => ruledItem w (terms.against b) item t) fault := by
  have hroot : Fails terms t (fun b => ruledRoot w (terms.against b) item t) fault := by
    have hfails : ruledRoot w terms item t = .error fault := by
      unfold ruledItem at h
      cases hroot : ruledRoot w terms item t with
      | error e =>
        rw [hroot] at h
        exact congrArg _ (Except.error.inj h)
      | ok root =>
        rw [hroot] at h
        cases h
    unfold ruledRoot at hfails ⊢
    split at hfails
    · exact fails_ruledFunction _ _ _ _ hfails
    · exact fails_ruledSlot _ _ _ _ hfails
  cases hroot with
  | unnamed inside helper => exact .unnamed inside helper
  | anyway other fails =>
    refine .anyway other fun b => ?_
    obtain ⟨fault', hfault'⟩ := fails b
    exact ⟨fault', by rw [ruledItem, hfault']; rfl⟩

/-- What the rules do not come through with, no resolver does. -/
theorem exists_fault_of_ruledItem {t : InterfaceType} (h : ruledItem w terms item t = .error fault)
    {b : Resolver} (hb : b.engine.Faithful w) :
    ∃ fault', ((resolveItem terms item t).run.run b).1 = .error fault' := by
  have hensures : Ensures (resolving w fun _ => True) b (resolveItem terms item t)
      (Answers ResolvedItem.unnumbered ResolvedItem.slots (ruledItem w terms item t)
        (hintedItem terms item t)) := ensures_resolveItem t b fun _ _ => trivial
  have hruled := (hensures.run ⟨hb, fun _ _ => trivial⟩).2.ruled
  rw [h] at hruled
  cases hanswer : ((resolveItem terms item t).run.run b).1 with
  | error fault' => exact ⟨fault', rfl⟩
  | ok found =>
    rw [hanswer] at hruled
    cases hruled

end Ownership

end Crossing
