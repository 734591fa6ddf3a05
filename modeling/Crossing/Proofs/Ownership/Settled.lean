import Mathlib
import Crossing.Ownership.Resolver
import Crossing.Proofs.Keeps
import Crossing.Proofs.Ownership.Verdict
import Crossing.Proofs.Related

/-!
# Settled slots

A slot is settled at a standing when it has its mode and its duty from there and its children are
settled at the standings that follow (`Settled`). Whatever `slot` answers is settled
(`keeps_slot`), and so the slots of a resolved item are, with a function item that only lends its
signature at the root (`rooted_of_resolveItem`). From here on nothing is said about the resolver
any more: what holds of settled slots follows along the tree (`Slot.Leads`).
-/

namespace Crossing

namespace Slot

mutual

theorem forall_preorder {P : Slot → Prop} (hP : ∀ p, P p → ∀ c ∈ p.children, P c) :
    ∀ p : Slot, P p → ∀ s ∈ p.preorder, P s
  | ⟨label, path, type, layout, mode, obligation, role, children⟩, h => by
    intro s hs
    rw [preorder] at hs
    rcases List.mem_cons.1 hs with rfl | hs
    · exact h
    · exact forall_preorderAll hP children (hP _ h) s hs

theorem forall_preorderAll {P : Slot → Prop} (hP : ∀ p, P p → ∀ c ∈ p.children, P c) :
    ∀ ps : List Slot, (∀ p ∈ ps, P p) → ∀ s ∈ preorderAll ps, P s
  | [], _ => by simp [preorderAll]
  | p :: ps, h => by
    intro s hs
    rw [preorderAll, List.mem_append] at hs
    rcases hs with hs | hs
    · exact forall_preorder hP p (h p List.mem_cons_self) s hs
    · exact forall_preorderAll hP ps (fun q hq => h q (List.mem_cons_of_mem _ hq)) s hs

end

/-- A way down from `p` to `q` by the slots passed on it, `p` first and `q` left out. It does not
lead into the signature of a function. -/
inductive Leads : Slot → List Slot → Slot → Prop where
  | here (p : Slot) : Leads p [] p
  | down {p c q : Slot} {way : List Slot} (plain : p.type.kind ≠ .function) (child : c ∈ p.children)
      (below : Leads c way q) : Leads p (p :: way) q

end Slot

/-- How a child of a slot is reached. In a signature everything is at a position of its own. -/
def Standing.ofChild (s : Standing) (p c : Slot) : Standing :=
  if p.type.kind = .function then ⟨.position, c.role⟩ else s.below p.type p.mode

namespace Ownership

variable {terms : Terms} {item : ExportItem}

/-- The slot and everything inside it is as the rule says when the slot is reached in some way. -/
inductive Settled (terms : Terms) (item : ExportItem) : Standing → Slot → Prop where
  | intro {s : Standing} {p : Slot} (role : p.role = s.role)
      (mode : s.Gives p.type ((terms.hintsFor item).lookup p.path) p.mode)
      (duty : terms.capabilities.obligation p.type p.mode = .ok p.obligation)
      (parts : ∀ c ∈ p.children, c.type ∈ p.type.parts)
      (children : ∀ c ∈ p.children, Settled terms item (s.ofChild p c) c) : Settled terms item s p

section Settled

variable {s : Standing} {p : Slot} (h : Settled terms item s p)
include h

theorem Settled.role : p.role = s.role := by
  cases h
  assumption

theorem Settled.gives : s.Gives p.type ((terms.hintsFor item).lookup p.path) p.mode := by
  cases h
  assumption

theorem Settled.duty : terms.capabilities.obligation p.type p.mode = .ok p.obligation := by
  cases h
  assumption

theorem Settled.type_mem_parts {c : Slot} (hc : c ∈ p.children) : c.type ∈ p.type.parts := by
  obtain ⟨-, -, -, hparts, -⟩ := h
  exact hparts c hc

theorem Settled.child {c : Slot} (hc : c ∈ p.children) :
    Settled terms item (s.ofChild p c) c := by
  obtain ⟨-, -, -, -, hchildren⟩ := h
  exact hchildren c hc

end Settled

theorem reach_of_mem_signature {label : Nat → String} {param ret : Role}
    {params : List InterfaceType} {returned : InterfaceType} {failure : Failure InterfaceType}
    {x : String × InterfaceType × Standing}
    (hx : x ∈ Standing.signature label param ret params returned failure) :
    x.2.2.reach = .position := by
  rcases List.mem_append.1 hx with hx | hx
  · obtain ⟨y, -, rfl⟩ := List.mem_map.1 hx
    rfl
  · obtain ⟨y, -, rfl⟩ := List.mem_map.1 hx
    rfl

theorem standing_eq {s : Standing} {role : Role} (hreach : s.reach = .position)
    (hrole : role = s.role) : (⟨.position, role⟩ : Standing) = s := by
  rw [hrole, ← hreach]

theorem ofChild_of_mem_parts {s : Standing} {p c : Slot} {x : String × InterfaceType × Standing}
    (hx : x ∈ s.parts p.type p.mode) (hrole : c.role = x.2.2.role) : s.ofChild p c = x.2.2 := by
  unfold Standing.parts at hx
  unfold Standing.ofChild
  split at hx
  · rename_i heq
    rw [if_pos (by rw [heq]; rfl)]
    exact standing_eq (reach_of_mem_signature hx) hrole
  · rename_i hne
    obtain ⟨y, -, rfl⟩ := List.mem_map.1 hx
    rw [if_neg]
    intro hkind
    cases ht : p.type <;> rw [ht] at hkind <;> simp [InterfaceType.kind] at hkind
    exact hne _ _ _ _ ht

theorem keeps_modeOf (terms : Terms) (item : ExportItem) (s : Standing) (path : String)
    (t : InterfaceType) :
    Keeps (fun _ => True) (modeOf terms item s path t) (OnValue fun found =>
      ∀ m, found = .ok m → s.Gives t ((terms.hintsFor item).lookup path) m) := by
  unfold modeOf
  split
  · exact Keeps.throw trivial
  · rename_i m hm
    exact Keeps.pure fun k hk => .inl (by rw [hm, Except.ok.inj hk])
  · rename_i m hm
    refine Keeps.bindValue (Keeps.anyway _) fun _ _ => Keeps.pure fun k hk => .inr ?_
    rw [hm, Except.ok.inj hk]
  · exact Keeps.pure nofun
  · exact Keeps.pure nofun

theorem keeps_obligation (terms : Terms) (t : InterfaceType) (mode : OwnershipMode) :
    Keeps (fun _ => True) (obligation terms t mode) (OnValue fun o =>
      terms.capabilities.obligation t mode = .ok o) := by
  unfold obligation
  split
  · exact Keeps.pure ‹_›
  · exact Keeps.throw trivial

/-- What `slot` answers is settled. -/
theorem keeps_slot (terms : Terms) (item : ExportItem) (s : Standing) (label path : String)
    (t : InterfaceType) :
    Keeps (fun _ => True) (slot terms item s label path t) (OnValue fun found =>
      ∀ p, found = .ok p → p.type = t ∧ (p.label = label ∧ p.path = path)
        ∧ Settled terms item s p) := by
  rw [slot]
  refine Keeps.bindValue (keeps_modeOf terms item s path t) fun found hfound => ?_
  cases found with
  | error ds => exact Keeps.pure nofun
  | ok mode =>
    refine Keeps.bindValue (Keeps.anyway (layoutOf t)) fun layout _ => ?_
    refine Keeps.bindValue (Keeps.attachMapM (R := fun x found =>
      ∀ p, found = .ok p → p.type = x.2.1 ∧ Settled terms item x.2.2 p) ?_) fun parts hparts => ?_
    · rintro ⟨label, u, below⟩ hx
      refine (keeps_slot terms item below label (Slot.under path label) u).mono ?_
      rintro (_ | found) hfound
      · trivial
      · exact fun p hp => ⟨(hfound p hp).1, (hfound p hp).2.2⟩
    · obtain ⟨made, hfst, rfl, hmade⟩ := hparts
      split
      · exact Keeps.pure nofun
      · rename_i children hok
        obtain ⟨-, children', -, hall, rfl⟩ := Findings.combine_eq_ok.1 hok
        have hpart : ∀ c ∈ children', ∃ x ∈ s.parts t mode,
            c.type = x.2.1 ∧ Settled terms item x.2.2 c := by
          intro c hc
          obtain ⟨x, hx⟩ := Findings.exists_of_mem_all hall hc
          exact ⟨x, hfst ▸ List.mem_map_of_mem hx, hmade _ hx c rfl⟩
        refine Keeps.bindValue (keeps_obligation terms t mode) fun o ho => Keeps.pure fun p hp => ?_
        obtain rfl := Except.ok.inj hp
        refine ⟨rfl, ⟨rfl, rfl⟩, .intro rfl (hfound mode rfl) ho (fun c hc => ?_) fun c hc => ?_⟩
        · obtain ⟨x, hx, htype, -⟩ := hpart c hc
          exact htype ▸ Standing.mem_parts hx
        · obtain ⟨x, hx, -, hsettled⟩ := hpart c hc
          rwa [ofChild_of_mem_parts hx hsettled.role]
termination_by sizeOf t
decreasing_by exact Standing.sizeOf_part_lt ‹_›

/-- The root of a resolved item: a settled declaration, or a function that is lent and has its
signature settled. -/
inductive Rooted (terms : Terms) (item : ExportItem) : Slot → Prop where
  | declaration {p : Slot} (settled : Settled terms item ⟨.position, .declaration⟩ p) :
      Rooted terms item p
  | function {p : Slot} (kind : item.kind = .function) (type : p.type.kind = .function)
      (mode : p.mode = .borrowed) (duty : p.obligation = .free)
      (signature : ∀ c ∈ p.children, Settled terms item ⟨.position, c.role⟩ c) :
      Rooted terms item p

/-- The children of a function item stand at its positions, in their order. -/
theorem keeps_functionRoot (terms : Terms) (item : ExportItem) (t : InterfaceType)
    (params : List InterfaceType) (ret : InterfaceType) (failure : Failure InterfaceType) :
    Keeps (fun _ => True) (functionRoot terms item t params ret failure) (OnValue fun found =>
      ∀ p, found = .ok p → p.type = t ∧ p.mode = .borrowed ∧ p.obligation = .free
        ∧ List.Forall₂ (fun x c => (c.label, c.type) = (x.1, x.2.1) ∧ Settled terms item x.2.2 c)
          (positions item params ret failure) p.children) := by
  unfold functionRoot
  refine Keeps.bindValue (Keeps.mapM (R := fun x found => ∀ p, found = .ok p →
    (p.label, p.type) = (x.1, x.2.1) ∧ Settled terms item x.2.2 p) ?_) fun parts hparts => ?_
  · rintro ⟨label, u, s⟩ -
    refine (keeps_slot terms item s label label u).mono ?_
    rintro (_ | found) hfound
    · trivial
    · intro p hp
      obtain ⟨htype, ⟨hlabel, -⟩, hsettled⟩ := hfound p hp
      exact ⟨Prod.ext hlabel htype, hsettled⟩
  · obtain ⟨made, hfst, rfl, hmade⟩ := hparts
    split
    · exact Keeps.pure (by rintro _ ⟨⟩)
    · rename_i children hok
      obtain ⟨children', -, hall, -, rfl⟩ := Findings.combine_eq_ok.1 hok
      refine Keeps.bindValue (Keeps.anyway (layoutOf t)) fun layout _ => Keeps.pure fun p hp => ?_
      obtain rfl := Except.ok.inj hp
      have hchildren := forall₂_of_made (P := fun (x : String × InterfaceType × Standing)
        (found : Findings Diagnostic Slot) => ∀ c, found = .ok c →
          (c.label, c.type) = (x.1, x.2.1) ∧ Settled terms item x.2.2 c)
        hmade (Findings.all_eq_ok.1 hall)
      rw [hfst] at hchildren
      exact ⟨rfl, rfl, rfl, hchildren.imp fun x c hc => hc c rfl⟩

theorem keeps_resolveRoot (terms : Terms) (item : ExportItem) (t : InterfaceType) :
    Keeps (fun _ => True) (resolveRoot terms item t) (OnValue fun found =>
      ∀ p, found = .ok p → p.type = t ∧ Rooted terms item p) := by
  unfold resolveRoot
  split
  · rename_i params ret failure holding hkind
    refine (keeps_functionRoot terms item _ params ret failure).mono ?_
    rintro (_ | found) hfound
    · trivial
    · intro p hp
      obtain ⟨htype, hmode, hduty, hchildren⟩ := hfound p hp
      refine ⟨htype, .function hkind (by rw [htype]; rfl) hmode hduty fun c hc => ?_⟩
      obtain ⟨x, hx, -, hsettled⟩ := Related.exists_of_mem hchildren.flip hc
      rwa [standing_eq (reach_of_mem_signature hx) hsettled.role]
  · refine (keeps_slot terms item ⟨.position, .declaration⟩ item.name "" _).mono ?_
    rintro (_ | found) hfound
    · trivial
    · exact fun p hp => ⟨(hfound p hp).1, .declaration (hfound p hp).2.2⟩

theorem rooted_of_resolveItem {t : InterfaceType} {b : Resolver} {r : ResolvedItem}
    (h : ((resolveItem terms item t).run.run b).1 = .ok (.ok r)) :
    r.item = item ∧ r.type = t ∧ r.root.type = t ∧ Rooted terms item r.root := by
  have hkeeps : Keeps (fun _ => True) (resolveItem terms item t) (OnValue fun found =>
      ∀ r, found = .ok r → r.item = item ∧ r.type = t ∧ r.root.type = t
        ∧ Rooted terms item r.root) := by
    refine Keeps.bindValue (keeps_resolveRoot terms item t) fun found hfound =>
      Keeps.pure fun r hr => ?_
    obtain ⟨p, hp, rfl⟩ := Findings.map_eq_ok.1 hr
    exact ⟨rfl, rfl, hfound p hp⟩
  have hvalue := (hkeeps.run (s := b) trivial).1
  rw [h] at hvalue
  exact hvalue r rfl

/-- Every slot below a root is settled at a standing, and what holds of positions and is handed on
holds of the standing; only a function at the root is not. -/
theorem settled_of_mem_preorder {Q : Standing → Prop} (hposition : ∀ role, Q ⟨.position, role⟩)
    (hchild : ∀ s p, Q s → Settled terms item s p → ∀ c ∈ p.children, Q (s.ofChild p c))
    {root : Slot} (h : Rooted terms item root) :
    ∀ p ∈ root.preorder, (∃ s, Q s ∧ Settled terms item s p) ∨
      (p.type.kind = .function ∧ p.mode = .borrowed
        ∧ ∀ c ∈ p.children, Settled terms item ⟨.position, c.role⟩ c) := by
  refine Slot.forall_preorder ?_ root ?_
  · rintro p (⟨s, hs, hp⟩ | ⟨-, -, hsignature⟩) c hc
    · exact .inl ⟨s.ofChild p c, hchild s p hs hp c hc, hp.child hc⟩
    · exact .inl ⟨_, hposition c.role, hsignature c hc⟩
  · cases h with
    | declaration hp => exact .inl ⟨_, hposition .declaration, hp⟩
    | function _ htype hmode _ hsignature => exact .inr ⟨htype, hmode, hsignature⟩

/-- Every slot below a root has the duty that the target gives its type in its mode. -/
theorem Rooted.duty {root : Slot} (h : Rooted terms item root) :
    ∀ p ∈ root.preorder, terms.capabilities.obligation p.type p.mode = .ok p.obligation := by
  have hsettled : ∀ p ∈ root.preorder, Rooted terms item p ∨ ∃ s, Settled terms item s p := by
    refine Slot.forall_preorder ?_ root (.inl h)
    rintro p (hp | ⟨s, hp⟩) c hc
    · cases hp with
      | declaration hp => exact .inr ⟨_, hp.child hc⟩
      | function _ _ _ _ hsignature => exact .inr ⟨_, hsignature c hc⟩
    · exact .inr ⟨_, hp.child hc⟩
  intro p hp
  rcases hsettled p hp with hp | ⟨s, hp⟩
  · cases hp with
    | declaration hp => exact hp.duty
    | function _ _ hmode hduty _ =>
      rw [hmode, hduty]
      rfl
  · exact hp.duty

section Standing

variable {s : Standing} {p c : Slot}

theorem ofChild_of_transfer (hplain : p.type.kind ≠ .function) (hmode : p.mode.isTransfer = true) :
    s.ofChild p c = ⟨.transfer p.mode, s.role⟩ := by
  rw [Standing.ofChild, if_neg hplain]
  unfold Standing.below
  cases hm : p.mode <;> simp_all [OwnershipMode.isTransfer]

theorem reach_ofChild_of_counted (hplain : p.type.kind ≠ .function)
    (hmode : p.mode = .sharedCounted) : (s.ofChild p c).reach = .view := by
  rw [Standing.ofChild, if_neg hplain, hmode]
  rfl

theorem reach_ofChild_of_lent (hplain : p.type.kind ≠ .function) (hmode : p.mode = .borrowed)
    (hheld : p.type.holding ≠ .value) : (s.ofChild p c).reach = .view := by
  rw [Standing.ofChild, if_neg hplain, hmode, Standing.below]
  cases hr : s.reach <;> simp [hr, hheld]

/-- What is lent in place hands on how it is reached itself. -/
theorem ofChild_of_plain (hplain : p.type.kind ≠ .function) (hmode : p.mode = .borrowed)
    (hheld : p.type.holding = .value ∨ s.reach = .view) : s.ofChild p c = s := by
  rw [Standing.ofChild, if_neg hplain, hmode, Standing.below]
  rcases hheld with hheld | hreach
  · cases hr : s.reach <;> simp [hheld]
  · simp [hreach]

end Standing

end Ownership

end Crossing
