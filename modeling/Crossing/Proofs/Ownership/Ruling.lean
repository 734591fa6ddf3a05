import Crossing.Proofs.Building.Determined
import Crossing.Proofs.Building.Sturdy
import Crossing.Proofs.Ownership.Ruled

/-!
# What the rules say of an item

By the rules, a sturdy type is resolved or refused, unless a helper name cannot be made; a refusal has
diagnostics, which name the item; and the slots of an item cover every type inside its own, each in
a mode that the target renders (`ruling_item`). What a single slot can come to is said once, in
`Comes`.
-/

namespace Crossing

namespace InterfaceType

theorem exists_ownsFields : ∀ {fs : List (Field InterfaceType)},
    (∀ f ∈ fs, ∃ owns, f.type.ownsResources = .ok owns) → ∃ owns, ownsFields fs = .ok owns
  | [], _ => ⟨false, rfl⟩
  | ⟨name, t⟩ :: fs, h => by
    obtain ⟨owns, ht⟩ := h _ List.mem_cons_self
    rw [ownsFields, ht]
    cases owns with
    | true => exact ⟨true, rfl⟩
    | false => exact exists_ownsFields fun f hf => h f (.tail _ hf)

theorem exists_ownsVariants : ∀ {vs : List (Variant InterfaceType)},
    (∀ v ∈ vs, ∀ f ∈ v.fields, ∃ owns, f.type.ownsResources = .ok owns) →
      ∃ owns, ownsVariants vs = .ok owns
  | [], _ => ⟨false, rfl⟩
  | ⟨name, tag, fs⟩ :: vs, h => by
    obtain ⟨owns, hfs⟩ := exists_ownsFields (h _ List.mem_cons_self)
    rw [ownsVariants, hfs]
    cases owns with
    | true => exact ⟨true, rfl⟩
    | false => exact exists_ownsVariants fun v hv => h v (.tail _ hv)

theorem exists_ownsThrough {h : Holding} {copy contents : Except Misheld Bool}
    (hcopy : h = .optional → ∃ owns, copy = .ok owns)
    (hcontents : ∃ owns, contents = .ok owns) : ∃ owns, ownsThrough h copy contents = .ok owns := by
  cases h with
  | optional => exact hcopy rfl
  | value => exact hcontents
  | _ => exact ⟨_, rfl⟩

variable {t : InterfaceType}

/-- What is held as it says can be asked what it owns. -/
theorem Sturdy.exists_ownsResources (h : t.Sturdy) : ∃ owns, t.ownsResources = .ok owns := by
  induction t using parts_induction with
  | h t ih =>
    have hparts : ∀ u ∈ t.parts, ∃ owns, u.ownsResources = .ok owns := fun u hu =>
      ih u hu (h.of_part hu)
    have hpointer := h.viable.optional
    clear ih h
    cases t with
    | primitive | handle => exact ⟨false, rfl⟩
    | pointer target n k m => exact exists_ownsThrough (fun _ => ⟨_, rfl⟩) (hparts target (by simp))
    | buffer e k | array e k n =>
      exact exists_ownsThrough (fun hk => by simpa [kind] using hpointer hk) (hparts e (by simp))
    | text c k | function ps r f k =>
      exact exists_ownsThrough (fun hk => by simpa [kind] using hpointer hk) ⟨_, rfl⟩
    | record name fs =>
      exact exists_ownsFields fun f hf => hparts _ (by
        rw [parts_record]
        exact List.mem_map_of_mem hf)
    | taggedUnion name vs =>
      refine exists_ownsVariants fun v hv f hf => hparts _ ?_
      rw [parts_taggedUnion]
      exact List.mem_flatMap.2 ⟨v, hv, List.mem_map_of_mem hf⟩

end InterfaceType

namespace InterfaceType

theorem Viable.exists_effectiveHolding {t : InterfaceType} (h : t.Viable) :
    ∃ holding, t.effectiveHolding = .ok holding := by
  unfold effectiveHolding
  split
  · exact ⟨_, rfl⟩
  · rename_i hne
    refine ⟨t.holding, if_neg fun hopt => ?_⟩
    have hkind := h.optional hopt
    cases t <;> simp [kind] at hkind
    obtain rfl : _ = Holding.optional := hopt
    exact hne _ _ _ rfl

end InterfaceType

theorem Standing.exists_plain {t : InterfaceType} (h : t.Sturdy) (m : OwnershipMode) :
    ∃ verdict, plain t m = .ok verdict := by
  obtain ⟨owns, ho⟩ := h.exists_ownsResources
  exact ⟨_, by rw [plain, ho]; rfl⟩

/-- There is a verdict on every sturdy type. -/
theorem Standing.exists_verdict {t : InterfaceType} (h : t.Sturdy) (s : Standing)
    (hint : Option OwnershipMode) : ∃ verdict, s.verdict t hint = .ok verdict := by
  obtain ⟨holding, hh⟩ := h.viable.exists_effectiveHolding
  unfold verdict
  rw [hh]
  simp only [bind, Except.bind]
  split
  case h_6 | h_9 => exact exists_plain h _
  case h_2 | h_3 => cases hint <;> exact ⟨_, rfl⟩
  all_goals exact ⟨_, rfl⟩

theorem CapabilityTable.gap?_eq_none_iff {table : CapabilityTable} {t : InterfaceType}
    {mode : OwnershipMode} : table.gap? t mode = none ↔
      table.formGap? t = none ∧ (table.entry t.kind mode).isSome = true := by
  rw [gap?, Option.or_eq_none_iff]
  refine and_congr_right fun _ => ?_
  split
  · exact iff_of_true rfl ‹_›
  · exact iff_of_false (by simp) ‹_›

namespace Ownership

variable {w : WordSize} {terms : Terms} {item : ExportItem}

/-- The part of a slot under a path, by the rules. -/
def ruledPart (w : WordSize) (terms : Terms) (item : ExportItem) (path : String)
    (x : String × InterfaceType × Standing) : Except Fault (Findings Diagnostic Slot) :=
  ruledSlot w terms item x.2.2 x.1 (Slot.under path x.1) x.2.1

/-- What a slot can come to by the rules. -/
inductive Comes (w : WordSize) (terms : Terms) (item : ExportItem) (s : Standing)
    (label path : String) (t : InterfaceType) : Except Fault (Findings Diagnostic Slot) → Prop where
  | misheld {why : InterfaceType.Misheld}
      (verdict : s.verdict t ((terms.hintsFor item).lookup path) = .error why) :
      Comes w terms item s label path t (.error (.misheld why))
  /-- A slot without a mode. -/
  | refused {d : Diagnostic} (names : d.item = some item.qualifiedName) :
      Comes w terms item s label path t (.ok (.error [d]))
  | unlaid {range : TagRange} (layout : t.layoutOf w = .error range) :
      Comes w terms item s label path t (.error (.tags range))
  | failed {mode : OwnershipMode} {fault : Fault} {x : String × InterfaceType × Standing}
      (part : x ∈ s.parts t mode) (fails : ruledPart w terms item path x = .error fault) :
      Comes w terms item s label path t (.error fault)
  /-- Something is wrong with the slot or with a part of it. -/
  | lacking {mode : OwnershipMode} {parts : List (Findings Diagnostic Slot)} {ds : List Diagnostic}
      (parts_eq : List.Forall₂ (fun x r => ruledPart w terms item path x = .ok r) (s.parts t mode)
        parts)
      (found : Findings.combine (fun _ children => children)
        (.ofProblems (gaps terms item path t mode)) (Findings.all parts) = .error ds) :
      Comes w terms item s label path t (.ok (.error ds))
  | unnamed {mode : OwnershipMode} {fault : Text.Template.Fault}
      (helper : terms.capabilities.obligation t mode = .error fault) :
      Comes w terms item s label path t (.error (.helper fault))
  | whole {p : Slot} (type : p.type = t)
      (parts_eq : List.Forall₂ (fun x c => ruledPart w terms item path x = .ok (.ok c))
        (s.parts t p.mode) p.children)
      (renders : gaps terms item path t p.mode = []) :
      Comes w terms item s label path t (.ok (.ok p))

theorem ruledMode_cases (terms : Terms) (item : ExportItem) (s : Standing) (path : String)
    (t : InterfaceType) :
    (∃ why, s.verdict t ((terms.hintsFor item).lookup path) = .error why ∧
        ruledMode terms item s path t = .error (.misheld why)) ∨
      (∃ d : Diagnostic, d.item = some item.qualifiedName ∧
        ruledMode terms item s path t = .ok (.error [d])) ∨
      ∃ mode, ruledMode terms item s path t = .ok (.ok mode) := by
  unfold ruledMode
  split
  · exact .inl ⟨_, ‹_›, rfl⟩
  · exact .inr (.inr ⟨_, rfl⟩)
  · exact .inr (.inr ⟨_, rfl⟩)
  · exact .inr (.inl ⟨_, rfl, rfl⟩)
  · exact .inr (.inl ⟨_, rfl, rfl⟩)

theorem comes_ruledSlot (w : WordSize) (terms : Terms) (item : ExportItem) (s : Standing)
    (label path : String) (t : InterfaceType) :
    Comes w terms item s label path t (ruledSlot w terms item s label path t) := by
  rw [ruledSlot]
  rcases ruledMode_cases terms item s path t with
    ⟨why, hverdict, hmode⟩ | ⟨d, hd, hmode⟩ | ⟨mode, hmode⟩ <;> rw [hmode]
  · exact .misheld hverdict
  · exact .refused hd
  have hattach := attach_mapM (s.parts t mode) (ruledPart w terms item path)
  unfold ruledPart at hattach
  cases hlayout : t.layoutOf w with
  | error range => exact .unlaid hlayout
  | ok layout =>
    have hparts := OnEach.of_mapM (ruledPart w terms item path) (s.parts t mode) ()
    unfold ruledPart at hparts
    simp only [bind, Except.bind, Except.mapError, hattach]
    cases hmap : (s.parts t mode).mapM fun x =>
        ruledSlot w terms item x.2.2 x.1 (Slot.under path x.1) x.2.1 with
    | error fault =>
      obtain ⟨x, hx, hfails⟩ := (hmap ▸ hparts).exists_failed
      exact .failed hx hfails
    | ok parts =>
      have hforall := (hmap ▸ hparts).forall₂
      simp only
      split
      · rename_i heq
        exact .lacking hforall heq
      · rename_i children heq
        obtain ⟨_, children, hgaps, hall, rfl⟩ := Findings.combine_eq_ok.1 heq
        cases hduty : terms.capabilities.obligation t mode with
        | error fault => exact .unnamed hduty
        | ok duty =>
          refine .whole rfl ?_ (Findings.ofProblems_eq_ok.1 hgaps)
          rwa [Findings.all_eq_ok.1 hall, List.forall₂_map_right_iff] at hforall

/-- A helper name that cannot be made. -/
def IsUnnamed (terms : Terms) (fault : Fault) : Prop :=
  ∃ why t mode, fault = .helper why ∧ terms.capabilities.obligation t mode = .error why

/-- A diagnostic names the item. -/
def Names (item : ExportItem) (d : Diagnostic) : Prop := d.item = some item.qualifiedName

/-- Slots for all that a type is made of, in modes that the target renders. -/
structure Complete (terms : Terms) (t : InterfaceType) (slots : List Slot) : Prop where
  covers : ∀ u, t.Contains u → ∃ q ∈ slots, q.type = u
  renders : ∀ q ∈ slots, terms.capabilities.gap? q.type q.mode = none

/-- What resolving a type comes to, in a slot or in all slots of an item: for a sturdy type nothing but
a helper without a name is at fault, a refusal tells of the item, and otherwise the slots are
complete. -/
def Ruling {α : Type} (slots : α → List Slot) (terms : Terms) (item : ExportItem)
    (t : InterfaceType) : Except Fault (Findings Diagnostic α) → Prop
  | .error fault => t.Sturdy → IsUnnamed terms fault
  | .ok (.error ds) => ds ≠ [] ∧ ∀ d ∈ ds, Names item d
  | .ok (.ok a) => Complete terms t (slots a)

theorem Complete.of_unnumbered {t : InterfaceType} {slots : List Slot}
    (h : Complete terms t (slots.map Slot.unnumbered)) : Complete terms t slots := by
  refine ⟨fun u hu => ?_, fun q hq => ?_⟩
  · obtain ⟨q, hq, rfl⟩ := h.covers u hu
    obtain ⟨p, hp, rfl⟩ := List.mem_map.1 hq
    exact ⟨p, hp, (Slot.type_unnumbered p).symm⟩
  · have hrenders := h.renders _ (List.mem_map_of_mem hq)
    rwa [Slot.type_unnumbered, Slot.mode_unnumbered] at hrenders

theorem gap?_eq_none {path : String} {t : InterfaceType} {mode : OwnershipMode}
    (h : gaps terms item path t mode = []) : terms.capabilities.gap? t mode = none := by
  unfold gaps at h
  split at h
  · assumption
  · simp at h

theorem refused_of_gaps (path : String) (t : InterfaceType) (mode : OwnershipMode) :
    Findings.ofProblems (gaps terms item path t mode) ≠ .error [] ∧
      ∀ d ∈ (Findings.ofProblems (gaps terms item path t mode)).problems, Names item d := by
  refine ⟨Findings.ofProblems_ne_silent _, ?_⟩
  rw [Findings.problems_ofProblems]
  unfold gaps
  split
  · simp
  · exact List.forall_mem_singleton.2 rfl

/-- What stands in the way of two things together tells of the item if it does for each. -/
theorem refused_of_combine {α β γ : Type} {f : α → β → γ} {r : Findings Diagnostic α}
    {s : Findings Diagnostic β} {ds : List Diagnostic}
    (hr : r ≠ .error [] ∧ ∀ d ∈ r.problems, Names item d)
    (hs : s ≠ .error [] ∧ ∀ d ∈ s.problems, Names item d)
    (h : Findings.combine f r s = .error ds) : ds ≠ [] ∧ ∀ d ∈ ds, Names item d := by
  have hproblems := Findings.problems_combine f r s
  rw [h] at hproblems
  have hds : ds = r.problems ++ s.problems := hproblems
  refine ⟨fun hnil => ?_, fun d hd => ?_⟩
  · exact Findings.combine_ne_silent hr.1 hs.1 (h.trans (congrArg _ hnil))
  · rw [hds] at hd
    exact (List.mem_append.1 hd).elim (hr.2 d) (hs.2 d)

section Parts

variable {xs : List (String × InterfaceType × Standing)}
  {f : String × InterfaceType × Standing → Except Fault (Findings Diagnostic Slot)}
  (hf : ∀ x ∈ xs, Ruling Slot.preorder terms item x.2.1 (f x))
include hf

/-- What stands in the way of some parts and their whole tells of the item. -/
theorem refused_of_parts {parts : List (Findings Diagnostic Slot)}
    (hparts : List.Forall₂ (fun x r => f x = .ok r) xs parts) :
    Findings.all parts ≠ .error [] ∧ ∀ d ∈ (Findings.all parts).problems, Names item d := by
  obtain ⟨made, rfl, rfl, hmade⟩ := exists_of_forall₂ hparts
  have hrefused : ∀ q ∈ made, ∀ ds, q.2 = .error ds → ds ≠ [] ∧ ∀ d ∈ ds, Names item d := by
    intro q hq ds hds
    have hq' := hf q.1 (List.mem_map_of_mem hq)
    rwa [hmade q hq, hds] at hq'
  constructor
  · exact Findings.all_ne_silent (List.forall_mem_map.2 fun q hq h => (hrefused q hq [] h).1 rfl)
  · rw [Findings.problems_all]
    intro d hd
    obtain ⟨r, hr, hd⟩ := List.mem_flatMap.1 hd
    obtain ⟨q, hq, rfl⟩ := List.mem_map.1 hr
    cases hq2 : q.2 with
    | ok c => simp [hq2, Findings.problems] at hd
    | error ds =>
      rw [hq2] at hd
      exact (hrefused q hq ds hq2).2 d hd

/-- A slot is complete when its children are. -/
theorem complete_of_children {p : Slot} {t : InterfaceType} (htype : p.type = t)
    (htypes : xs.map (·.2.1) = t.parts)
    (hp : terms.capabilities.gap? t p.mode = none)
    (hchildren : List.Forall₂ (fun x c => f x = .ok (.ok c)) xs p.children) :
    Complete terms t p.preorder := by
  subst htype
  obtain ⟨made, rfl, hsnd, hmade⟩ := exists_of_forall₂ hchildren
  have hcomplete : ∀ y ∈ made, Complete terms y.1.2.1 y.2.preorder := by
    intro y hy
    have hy' := hf y.1 (List.mem_map_of_mem hy)
    rwa [hmade y hy] at hy'
  refine ⟨fun u hu => ?_, fun q hq => ?_⟩
  · rcases InterfaceType.contains_iff.1 hu with rfl | ⟨v, hv, hu⟩
    · exact ⟨p, Slot.mem_preorder.2 (.inl rfl), rfl⟩
    · rw [← htypes, List.map_map] at hv
      obtain ⟨y, hy, rfl⟩ := List.mem_map.1 hv
      obtain ⟨q, hq, hqu⟩ := (hcomplete y hy).covers u hu
      exact ⟨q, Slot.mem_preorder.2 (.inr ⟨y.2, hsnd ▸ List.mem_map_of_mem hy, hq⟩), hqu⟩
  · rcases Slot.mem_preorder.1 hq with rfl | ⟨c, hc, hq⟩
    · exact hp
    · rw [← hsnd] at hc
      obtain ⟨y, hy, rfl⟩ := List.mem_map.1 hc
      exact (hcomplete y hy).renders q hq

end Parts

/-- What a single slot comes to, when the same is known of its parts. -/
theorem ruling_slot (s : Standing) (label path : String) (t : InterfaceType) :
    Ruling Slot.preorder terms item t (ruledSlot w terms item s label path t) := by
  induction t using InterfaceType.parts_induction generalizing s label path with
  | h t ih =>
    have hpart : ∀ mode, ∀ x ∈ s.parts t mode,
        x.2.1 ∈ t.parts ∧ Ruling Slot.preorder terms item x.2.1 (ruledPart w terms item path x) :=
      fun mode x hx => ⟨Standing.mem_parts hx, ih x.2.1 (Standing.mem_parts hx) _ _ _⟩
    have hcomes := comes_ruledSlot w terms item s label path t
    generalize ruledSlot w terms item s label path t = r at hcomes
    cases hcomes with
    | misheld verdict =>
      intro hsturdy
      obtain ⟨v, hv⟩ := s.exists_verdict hsturdy ((terms.hintsFor item).lookup path)
      rw [hv] at verdict
      cases verdict
    | refused names => exact ⟨by simp, List.forall_mem_singleton.2 names⟩
    | unlaid layout =>
      intro hsturdy
      obtain ⟨l, hl, -⟩ := InterfaceType.exists_proper w t hsturdy.regular
      rw [hl] at layout
      cases layout
    | failed part fails =>
      intro hsturdy
      obtain ⟨hmem, hruling⟩ := hpart _ _ part
      rw [fails] at hruling
      exact hruling (hsturdy.of_part hmem)
    | lacking parts_eq found =>
      exact refused_of_combine (refused_of_gaps _ _ _)
        (refused_of_parts (fun x hx => (hpart _ x hx).2) parts_eq) found
    | unnamed helper => exact fun _ => ⟨_, _, _, rfl, helper⟩
    | whole type parts_eq renders =>
      exact complete_of_children (fun x hx => (hpart _ x hx).2) type (s.map_parts _ _)
        (gap?_eq_none renders) parts_eq

theorem map_positions (item : ExportItem) (params : List InterfaceType) (ret : InterfaceType)
    (failure : Failure InterfaceType) (holding : Holding) :
    (positions item params ret failure).map (·.2.1)
      = (InterfaceType.function params ret failure holding).parts := by
  simp [positions, Standing.signature, Function.comp_def, InterfaceType.map_snd_numbered]

theorem mem_parts_of_mem_positions {params : List InterfaceType} {ret : InterfaceType}
    {failure : Failure InterfaceType} (holding : Holding) {x : String × InterfaceType × Standing}
    (hx : x ∈ positions item params ret failure) :
    x.2.1 ∈ (InterfaceType.function params ret failure holding).parts := by
  rw [← map_positions item params ret failure holding]
  exact List.mem_map_of_mem hx

/-- What a function item comes to. It is lent, and has no duty of its own. -/
theorem ruling_function (params : List InterfaceType) (ret : InterfaceType)
    (failure : Failure InterfaceType) (holding : Holding) :
    Ruling Slot.preorder terms item (.function params ret failure holding)
      (ruledFunction w terms item (.function params ret failure holding) params ret failure) := by
  have htypes := map_positions item params ret failure holding
  have hpart : ∀ x ∈ positions item params ret failure,
      Ruling Slot.preorder terms item x.2.1 (ruledSlot w terms item x.2.2 x.1 x.1 x.2.1) :=
    fun x _ => ruling_slot _ _ _ _
  have hparts := OnEach.of_mapM
    (fun x => ruledSlot w terms item x.2.2 x.1 x.1 x.2.1) (positions item params ret failure) ()
  unfold ruledFunction
  cases hmap : (positions item params ret failure).mapM fun x =>
      ruledSlot w terms item x.2.2 x.1 x.1 x.2.1 with
  | error fault =>
    intro hsturdy
    obtain ⟨x, hx, hfails⟩ := (hmap ▸ hparts).exists_failed
    have hruling := hpart x hx
    rw [hfails] at hruling
    exact hruling (hsturdy.of_part (mem_parts_of_mem_positions holding hx))
  | ok parts =>
    have hforall := (hmap ▸ hparts).forall₂
    simp only [bind, Except.bind]
    split
    · rename_i ds heq
      exact refused_of_combine (refused_of_parts hpart hforall) (refused_of_gaps _ _ _) heq
    · rename_i children heq
      obtain ⟨children, _, hall, hgaps, rfl⟩ := Findings.combine_eq_ok.1 heq
      rw [Findings.all_eq_ok.1 hall, List.forall₂_map_right_iff] at hforall
      exact complete_of_children hpart rfl htypes
        (gap?_eq_none (Findings.ofProblems_eq_ok.1 hgaps)) hforall

theorem ruling_root (w : WordSize) (terms : Terms) (item : ExportItem) (t : InterfaceType) :
    Ruling Slot.preorder terms item t (ruledRoot w terms item t) := by
  unfold ruledRoot
  split
  · exact ruling_function _ _ _ _
  · exact ruling_slot _ _ _ _

section Item

variable {t : InterfaceType} {r : Except Fault (Findings Diagnostic ResolvedItem)}
  (h : r.map (Except.map ResolvedItem.unnumbered) = ruledItem w terms item t)
include h

/-- An item that is resolved by the rules is what its root is. -/
theorem root_of_ruledItem : ruledRoot w terms item t = r.map (Except.map (·.root.unnumbered)) ∧
    ∀ a, r = .ok (.ok a) → a.item = item ∧ a.type = t := by
  unfold ruledItem at h
  generalize ruledRoot w terms item t = root at h
  rcases root with fault | ds | root <;> rcases r with fault' | ds' | a <;> cases h
  · exact ⟨rfl, by simp⟩
  · exact ⟨rfl, by simp⟩
  · refine ⟨rfl, fun b hb => ?_⟩
    obtain rfl := Except.ok.inj (Except.ok.inj hb)
    exact ⟨rfl, rfl⟩

/-- What an item comes to, whatever numbers its layouts have. -/
theorem ruling_item : Ruling ResolvedItem.slots terms item t r := by
  have hroot := ruling_root w terms item t
  rw [(root_of_ruledItem h).1] at hroot
  rcases r with fault | ds | a
  · exact hroot
  · exact hroot
  · have hcomplete : Complete terms t a.root.unnumbered.preorder := hroot
    rw [Slot.preorder_unnumbered] at hcomplete
    exact hcomplete.of_unnumbered

end Item

end Ownership

end Crossing
