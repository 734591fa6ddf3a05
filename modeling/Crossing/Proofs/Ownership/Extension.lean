import Mathlib
import Crossing.Proofs.Follows
import Crossing.Proofs.Ownership.Ruling

/-!
# Resolving against a target that renders more

A capability table extends another when it renders whatever that renders, in the same way
(`CapabilityTable.Extends`). The resolver looks into the same slots whatever the target renders, so
against the larger table it goes the way that it goes against the smaller one, step by step, until it
has found something that the smaller one lacks (`follows_resolveItem`). What it reports of owners and
loans is the same against both, and the larger table lacks something only for slots that the smaller
one lacks something for (`eased_resolveItem`). One thing can be worse: where the larger table renders
a type, its helper has to be named, and the name may be one that cannot be made.
-/

namespace Crossing

namespace CapabilityTable

/-- `b` renders whatever `a` renders, and in the same way. -/
structure Extends (b a : CapabilityTable) : Prop where
  target : b.target = a.target
  entry : ∀ kind mode e, a.entry kind mode = some e → b.entry kind mode = some e
  intBits : a.intBits ⊆ b.intBits
  floatBits : a.floatBits ⊆ b.floatBits
  encodings : a.encodings ⊆ b.encodings

variable {a b : CapabilityTable} {t : InterfaceType} {mode : OwnershipMode}

namespace Extends

theorem formGap?_eq_none (h : b.Extends a) (hform : a.formGap? t = none) : b.formGap? t = none := by
  unfold formGap? at hform ⊢
  split at hform
  · rw [if_pos (h.intBits (by simpa using hform))]
  · rw [if_pos (h.floatBits (by simpa using hform))]
  · rw [if_pos (h.encodings (by simpa using hform))]
  · rfl

theorem gap?_eq_none (h : b.Extends a) (hgap : a.gap? t mode = none) : b.gap? t mode = none := by
  obtain ⟨hform, hentry⟩ := gap?_eq_none_iff.1 hgap
  obtain ⟨e, he⟩ := Option.isSome_iff_exists.1 hentry
  exact gap?_eq_none_iff.2 ⟨h.formGap?_eq_none hform, by simp [h.entry _ _ e he]⟩

/-- Where the smaller table renders a type, the duty is that of its entry. -/
theorem obligation_eq (h : b.Extends a) (hgap : a.gap? t mode = none) :
    b.obligation t mode = a.obligation t mode := by
  obtain ⟨e, he⟩ := Option.isSome_iff_exists.1 (gap?_eq_none_iff.1 hgap).2
  unfold obligation
  rw [h.entry _ _ e he, he]

end Extends

end CapabilityTable

namespace Ownership

/-- The same terms for another target. -/
def Terms.against (terms : Terms) (b : CapabilityTable) : Terms := { terms with capabilities := b }

variable {w : WordSize} {terms : Terms} {b : CapabilityTable} {item : ExportItem}

theorem gaps_eq_nil (h : b.Extends terms.capabilities) {path : String} {t : InterfaceType}
    {mode : OwnershipMode} (hgaps : gaps terms item path t mode = []) :
    gaps (terms.against b) item path t mode = [] := by
  unfold gaps
  rw [show (terms.against b).capabilities = b from rfl, h.gap?_eq_none (gap?_eq_none hgaps)]

section Follows

/-- Nothing comes out but a fault or problems. -/
def Fruitless {ε α : Type} (r : Except ε (Findings Diagnostic α)) : Prop :=
  ∀ found, r = .ok found → found.problems ≠ []

theorem fruitless_error {ε α : Type} (e : ε) :
    Fruitless (.error e : Except ε (Findings Diagnostic α)) := nofun

theorem keeps_fruitless {ε σ α : Type} {ds : List Diagnostic} (h : ds ≠ []) :
    Keeps (fun _ => True) (pure (.error ds) : ExceptT ε (Steps σ) (Findings Diagnostic α))
      Fruitless := by
  refine Keeps.pure ?_
  rintro _ ⟨⟩
  exact h

/-- What has problems on either side has nothing else. -/
theorem exists_combined {α β γ : Type} (f : α → β → γ) {r : Findings Diagnostic α}
    {s : Findings Diagnostic β} (h : r.problems ≠ [] ∨ s.problems ≠ []) :
    ∃ ds, Findings.combine f r s = .error ds ∧ ds ≠ [] := by
  have hproblems := Findings.problems_combine f r s
  have hne : r.problems ++ s.problems ≠ [] :=
    h.elim (List.append_ne_nil_of_left_ne_nil · _) (List.append_ne_nil_of_right_ne_nil _ ·)
  rw [← hproblems] at hne
  cases hcombined : Findings.combine f r s with
  | error ds => exact ⟨ds, rfl, by rwa [hcombined] at hne⟩
  | ok c => exact absurd rfl (hcombined ▸ hne)

theorem problems_all_ne_nil {parts : List (Findings Diagnostic Slot)}
    (h : ∃ p ∈ parts, Fruitless (.ok p : Except Fault (Findings Diagnostic Slot))) :
    (Findings.all parts).problems ≠ [] := by
  rw [Findings.problems_all]
  obtain ⟨p, hp, hfruitless⟩ := h
  exact fun hnil => hfruitless p rfl (List.flatMap_eq_nil_iff.1 hnil p hp)

variable (h : b.Extends terms.capabilities)
include h

/-- Against the larger table a slot is resolved as against the smaller one, as long as that lacks
nothing. -/
theorem follows_slot (s : Standing) (label path : String) (t : InterfaceType) :
    Follows Fruitless (slot terms item s label path t)
      (slot (terms.against b) item s label path t) := by
  rw [slot, slot]
  have hmode : modeOf (terms.against b) item s path t = modeOf terms item s path t := rfl
  rw [hmode]
  refine Follows.bindSame fun found => ?_
  cases found with
  | error ds => exact Follows.refl _
  | ok mode =>
    refine Follows.bindSame fun layout => ?_
    -- The parts are looked into before it counts what the target lacks for the slot itself, so both
    -- get here unless a part is lost; then the slot is, and so it is when the smaller table has a gap.
    refine (Follows.attachMapM fun x hx => follows_slot x.2.2 x.1 _ x.2.1).bind fruitless_error
      (fun parts hparts => ?_) fun parts => ?_
    · obtain ⟨ds, hds, hne⟩ := exists_combined (fun _ children => children)
        (r := .ofProblems (gaps terms item path t mode))
        (.inr (problems_all_ne_nil (hparts parts rfl)))
      rw [hds]
      exact keeps_fruitless hne
    · by_cases hgaps : gaps terms item path t mode = []
      · have hduty : obligation (terms.against b) t mode = obligation terms t mode := by
          unfold obligation
          rw [show (terms.against b).capabilities = b from rfl,
            h.obligation_eq (gap?_eq_none hgaps)]
        rw [hgaps, gaps_eq_nil h hgaps, hduty]
        exact Follows.refl _
      · obtain ⟨ds, hds, hne⟩ := exists_combined (fun _ children => children)
          (s := Findings.all parts) (.inl (by rwa [Findings.problems_ofProblems]))
        rw [hds]
        exact Follows.lost (keeps_fruitless hne)
termination_by sizeOf t
decreasing_by exact Standing.sizeOf_part_lt ‹_›

theorem follows_functionRoot (t : InterfaceType) (params : List InterfaceType) (ret : InterfaceType)
    (failure : Failure InterfaceType) :
    Follows Fruitless (functionRoot terms item t params ret failure)
      (functionRoot (terms.against b) item t params ret failure) := by
  unfold functionRoot
  refine (Follows.mapM fun x _ => follows_slot h x.2.2 x.1 x.1 x.2.1).bind fruitless_error
    (fun parts hparts => ?_) fun parts => ?_
  · obtain ⟨ds, hds, hne⟩ := exists_combined (fun children _ => children)
      (s := .ofProblems (gaps terms item "" t .borrowed))
      (.inl (problems_all_ne_nil (hparts parts rfl)))
    rw [hds]
    exact keeps_fruitless hne
  · by_cases hgaps : gaps terms item "" t .borrowed = []
    · rw [hgaps, gaps_eq_nil h hgaps]
      exact Follows.refl _
    · obtain ⟨ds, hds, hne⟩ := exists_combined (fun children _ => children)
        (r := Findings.all parts) (.inr (by rwa [Findings.problems_ofProblems]))
      rw [hds]
      exact Follows.lost (keeps_fruitless hne)

theorem follows_resolveRoot (t : InterfaceType) :
    Follows Fruitless (resolveRoot terms item t) (resolveRoot (terms.against b) item t) := by
  unfold resolveRoot
  split
  · exact follows_functionRoot h _ _ _ _
  · exact follows_slot h _ _ _ _

/-- Against the larger table an item is resolved as against the smaller one, step by step, as long as
that lacks nothing for it. -/
theorem follows_resolveItem (t : InterfaceType) :
    Follows Fruitless (resolveItem terms item t) (resolveItem (terms.against b) item t) := by
  unfold resolveItem
  refine (follows_resolveRoot h t).bind fruitless_error (fun root hroot => Keeps.pure ?_)
    fun _ => Follows.refl _
  rintro _ ⟨⟩
  cases root with
  | error ds => exact hroot _ rfl
  | ok p => exact absurd rfl (hroot _ rfl)

end Follows

section Eased

/-- What is told of a slot for which both tables lack something. -/
def AtOneSlot (terms : Terms) (b : CapabilityTable) (item : ExportItem) (d' d : Diagnostic) : Prop :=
  ∃ path t mode, d ∈ gaps terms item path t mode ∧ d' ∈ gaps (terms.against b) item path t mode

/-- The problems `ds` against the smaller table and `ds'` against the larger one: the same but for what
the tables lack, and of that the larger one tells only for slots that the smaller one tells it for,
though it may lack something else there. -/
structure Eases (terms : Terms) (b : CapabilityTable) (item : ExportItem)
    (ds ds' : List Diagnostic) : Prop where
  others : ds'.filter (·.kind ≠ .unsupported) = ds.filter (·.kind ≠ .unsupported)
  lacks : List.SublistForall₂ (AtOneSlot terms b item) (ds'.filter (·.kind = .unsupported))
    (ds.filter (·.kind = .unsupported))

/-- What is found against the larger table is less than what is found against the smaller one. -/
structure Relieved (terms : Terms) (b : CapabilityTable) (item : ExportItem) {α : Type}
    (x y : Findings Diagnostic α) : Prop where
  problems : Eases terms b item x.problems y.problems
  value : (∃ a, x = .ok a) → ∃ a, y = .ok a

/-- What resolving a type comes to against the larger table, given what it comes to against the
smaller one. -/
inductive Eased (terms : Terms) (b : CapabilityTable) (item : ExportItem) (t : InterfaceType)
    {α : Type} : Except Fault (Findings Diagnostic α) → Except Fault (Findings Diagnostic α) → Prop
    where
  /-- The larger table has no name for a helper of a type inside. -/
  | unnamed {r : Except Fault (Findings Diagnostic α)} {u : InterfaceType} {mode : OwnershipMode}
      {why : Text.Template.Fault} (inside : t.Contains u) (helper : b.obligation u mode = .error why) :
      Eased terms b item t r (.error (.helper why))
  | fault (fault : Fault) : Eased terms b item t (.error fault) (.error fault)
  | found {x y : Findings Diagnostic α} (relieved : Relieved terms b item x y) :
      Eased terms b item t (.ok x) (.ok y)

theorem Eases.append {ds ds' es es' : List Diagnostic} (h : Eases terms b item ds ds')
    (h' : Eases terms b item es es') : Eases terms b item (ds ++ es) (ds' ++ es') := by
  refine ⟨?_, ?_⟩
  · rw [List.filter_append, List.filter_append, h.others, h'.others]
  · rw [List.filter_append, List.filter_append, List.sublistForall₂_iff]
    obtain ⟨l, hl, hsub⟩ := List.sublistForall₂_iff.1 h.lacks
    obtain ⟨l', hl', hsub'⟩ := List.sublistForall₂_iff.1 h'.lacks
    exact ⟨l ++ l', List.rel_append hl hl', hsub.append hsub'⟩

/-- Problems that are not about what a table lacks stay the same. -/
theorem Eases.of_others {ds : List Diagnostic} (h : ∀ d ∈ ds, d.kind ≠ .unsupported) :
    Eases terms b item ds ds := by
  have hnone : ds.filter (·.kind = .unsupported) = [] := by
    simpa [List.filter_eq_nil_iff] using h
  exact ⟨rfl, by rw [hnone]; exact .nil⟩

theorem Eased.bind {t : InterfaceType} {α β : Type} {r r' : Except Fault (Findings Diagnostic α)}
    {k k' : Findings Diagnostic α → Except Fault (Findings Diagnostic β)}
    (h : Eased terms b item t r r')
    (hk : ∀ x y, Relieved terms b item x y → Eased terms b item t (k x) (k' y)) :
    Eased terms b item t (r >>= k) (r' >>= k') := by
  cases h with
  | unnamed inside helper => exact .unnamed inside helper
  | fault e => exact .fault e
  | found relieved => exact hk _ _ relieved

theorem Eased.of_part {t u : InterfaceType} {α : Type} {r r' : Except Fault (Findings Diagnostic α)}
    (hu : u ∈ t.parts) (h : Eased terms b item u r r') : Eased terms b item t r r' := by
  cases h with
  | unnamed inside helper => exact .unnamed (.head hu inside) helper
  | fault e => exact .fault e
  | found relieved => exact .found relieved

theorem problems_map {α β : Type} (f : α → β) (x : Findings Diagnostic α) :
    Findings.problems (x.map f) = x.problems := by
  cases x <;> rfl

theorem relieved_map {α β : Type} (f g : α → β) {x y : Findings Diagnostic α} :
    Relieved terms b item (x.map f) (y.map g) ↔ Relieved terms b item x y := by
  have hvalue : ∀ (f : α → β) (x : Findings Diagnostic α),
      (∃ c, x.map f = .ok c) ↔ ∃ a, x = .ok a := by
    intro f x
    cases x <;> simp [Except.map]
  constructor
  · rintro ⟨hproblems, hok⟩
    rw [problems_map, problems_map] at hproblems
    exact ⟨hproblems, fun h => (hvalue g y).1 (hok ((hvalue f x).2 h))⟩
  · rintro ⟨hproblems, hok⟩
    refine ⟨?_, fun h => (hvalue g y).2 (hok ((hvalue f x).1 h))⟩
    rw [problems_map, problems_map]
    exact hproblems

/-- What is made of the values in the end does not count. -/
theorem Eased.of_map {t : InterfaceType} {α β : Type} {f g : α → β}
    {r r' : Except Fault (Findings Diagnostic α)}
    (h : Eased terms b item t (r.map (Except.map f)) (r'.map (Except.map g))) :
    Eased terms b item t r r' := by
  rcases r' with e' | y
  · generalize hr : r.map (Except.map f) = x at h
    cases h with
    | unnamed inside helper => exact .unnamed inside helper
    | fault =>
      cases r with
      | error e =>
        obtain rfl := Except.error.inj hr
        exact .fault e
      | ok => cases hr
  · rcases r with e | x
    · cases h
    · cases h with
      | found relieved => exact .found ((relieved_map f g).1 relieved)

theorem Relieved.combine {α β γ : Type} (f : α → β → γ) {x x' : Findings Diagnostic α}
    {y y' : Findings Diagnostic β} (hx : Relieved terms b item x x')
    (hy : Relieved terms b item y y') :
    Relieved terms b item (Findings.combine f x y) (Findings.combine f x' y') := by
  refine ⟨?_, ?_⟩
  · rw [Findings.problems_combine, Findings.problems_combine]
    exact hx.problems.append hy.problems
  · rintro ⟨c, hc⟩
    obtain ⟨a, d, ha, hd, -⟩ := Findings.combine_eq_ok.1 hc
    obtain ⟨a', ha'⟩ := hx.value ⟨a, ha⟩
    obtain ⟨d', hd'⟩ := hy.value ⟨d, hd⟩
    exact ⟨f a' d', Findings.combine_eq_ok.2 ⟨a', d', ha', hd', rfl⟩⟩

/-- The parts of a slot are eased when each of them is. -/
theorem eased_all {ι : Type} {t : InterfaceType} {xs : List ι}
    {f g : ι → Except Fault (Findings Diagnostic Slot)}
    (h : ∀ x ∈ xs, Eased terms b item t (f x) (g x)) :
    Eased terms b item t (Findings.all <$> xs.mapM f) (Findings.all <$> xs.mapM g) := by
  induction xs with
  | nil => exact .found ⟨.of_others (by simp [Findings.all, Findings.problems]), id⟩
  | cons x xs ih =>
    have hcons : ∀ f : ι → Except Fault (Findings Diagnostic Slot),
        Findings.all <$> (x :: xs).mapM f = (do
          let y ← f x
          let ys ← Findings.all <$> xs.mapM f
          pure (Findings.combine (fun p ps => p :: ps) y ys)) := by
      intro f
      simp only [List.mapM_cons, map_bind, bind_map_left, map_pure]
      rfl
    rw [hcons, hcons]
    refine (h x List.mem_cons_self).bind fun y y' hy => ?_
    exact (ih fun z hz => h z (.tail _ hz)).bind fun ys ys' hys => .found (hy.combine _ hys)

/-- What is told of a slot without a mode is not told of what a target lacks. -/
theorem kind_of_ruledMode {s : Standing} {path : String} {t : InterfaceType}
    {ds : List Diagnostic} (hds : ruledMode terms item s path t = .ok (.error ds)) :
    ∀ d ∈ ds, d.kind ≠ .unsupported := by
  unfold ruledMode at hds
  split at hds <;> cases hds
  · exact List.forall_mem_singleton.2 (by simp [unknownOwner, diagnostic])
  · exact List.forall_mem_singleton.2 (by simp [lentInside, diagnostic])

/-- A slot with a mode and a layout, from what its parts come to. -/
def ruledWhole (terms : Terms) (item : ExportItem) (s : Standing) (label path : String)
    (t : InterfaceType) (mode : OwnershipMode) (layout : Layout)
    (parts : Findings Diagnostic (List Slot)) : Except Fault (Findings Diagnostic Slot) :=
  match Findings.combine (fun _ children => children)
      (.ofProblems (gaps terms item path t mode)) parts with
  | .error ds => .ok (.error ds)
  | .ok children => do
    let obligation ← (terms.capabilities.obligation t mode).mapError .helper
    pure (.ok { label, path, type := t, layout := ⟨layout, 0⟩, mode, obligation, role := s.role
                children })

theorem ruledSlot_eq {s : Standing} {label path : String} {t : InterfaceType} {mode : OwnershipMode}
    {layout : Layout} (hmode : ruledMode terms item s path t = .ok (.ok mode))
    (hlayout : t.layoutOf w = .ok layout) : ruledSlot w terms item s label path t =
      Findings.all <$> (s.parts t mode).mapM (ruledPart w terms item path) >>=
        ruledWhole terms item s label path t mode layout := by
  have hattach := attach_mapM (s.parts t mode) (ruledPart w terms item path)
  unfold ruledPart at hattach
  rw [ruledSlot, hmode, hlayout, bind_map_left]
  simp only [bind, Except.bind, Except.mapError, hattach]
  rfl

variable (h : b.Extends terms.capabilities)
include h

/-- Of a slot the larger table lacks nothing unless the smaller one lacks something. -/
theorem relieved_gaps (path : String) (t : InterfaceType) (mode : OwnershipMode) :
    Relieved terms b item (.ofProblems (gaps terms item path t mode))
      (.ofProblems (gaps (terms.against b) item path t mode)) := by
  refine ⟨?_, ?_⟩
  swap
  · rintro ⟨u, hu⟩
    exact ⟨u, Findings.ofProblems_eq_ok.2 (gaps_eq_nil h (Findings.ofProblems_eq_ok.1 hu))⟩
  rw [Findings.problems_ofProblems, Findings.problems_ofProblems]
  have hagainst : (terms.against b).capabilities = b := rfl
  cases ha : terms.capabilities.gap? t mode with
  | none =>
    have hnil : gaps terms item path t mode = [] := by rw [gaps, ha]
    rw [hnil, gaps_eq_nil h hnil]
    exact .of_others (by simp)
  | some gap =>
    have hgaps : gaps terms item path t mode = [diagnostic .unsupported item path t
        (gap.message terms.capabilities.target) []] := by rw [gaps, ha]
    cases hb : b.gap? t mode with
    | none =>
      have hnil : gaps (terms.against b) item path t mode = [] := by rw [gaps, hagainst, hb]
      rw [hgaps, hnil]
      exact ⟨by simp [diagnostic], .nil⟩
    | some gap' =>
      have hgaps' : gaps (terms.against b) item path t mode = [diagnostic .unsupported item path t
          (gap'.message b.target) []] := by rw [gaps, hagainst, hb]
      rw [hgaps, hgaps']
      refine ⟨by simp [diagnostic], .cons ⟨path, t, mode, ?_, ?_⟩ .nil⟩
      · rw [hgaps]
        exact List.mem_cons_self
      · rw [hgaps']
        exact List.mem_cons_self

theorem eased_whole (s : Standing) (label path : String) (t : InterfaceType) (mode : OwnershipMode)
    (layout : Layout) {x y : Findings Diagnostic (List Slot)} (hparts : Relieved terms b item x y) :
    Eased terms b item t (ruledWhole terms item s label path t mode layout x)
      (ruledWhole (terms.against b) item s label path t mode layout y) := by
  have hgaps : Relieved terms b item (.ofProblems (gaps terms item path t mode)) _ :=
    relieved_gaps h path t mode
  have hwhole := hgaps.combine (fun _ children => children) hparts
  unfold ruledWhole
  generalize hsmall : Findings.combine (fun _ children => children)
    (.ofProblems (gaps terms item path t mode)) x = small at hwhole ⊢
  generalize Findings.combine (fun _ children => children)
    (.ofProblems (gaps (terms.against b) item path t mode)) y = large at hwhole ⊢
  cases large with
  | error ds' =>
    cases small with
    | error ds => exact .found ⟨hwhole.problems, by simp⟩
    | ok children => simpa using hwhole.value ⟨children, rfl⟩
  | ok children' =>
    cases hduty : b.obligation t mode with
    | error why =>
      have hlarge : (terms.against b).capabilities.obligation t mode = .error why := hduty
      simp only [hlarge]
      exact .unnamed .refl hduty
    | ok duty =>
      have hlarge : (terms.against b).capabilities.obligation t mode = .ok duty := hduty
      simp only [hlarge]
      cases small with
      | error ds => exact .found ⟨hwhole.problems, by simp⟩
      | ok children =>
        obtain ⟨_, _, hgaps, -⟩ := Findings.combine_eq_ok.1 hsmall
        have hgap := gap?_eq_none (Findings.ofProblems_eq_ok.1 hgaps)
        simp only [← h.obligation_eq hgap, hduty]
        exact .found ⟨.of_others (by simp [Findings.problems]), fun _ => ⟨_, rfl⟩⟩

theorem eased_slot (s : Standing) (label path : String) (t : InterfaceType) :
    Eased terms b item t (ruledSlot w terms item s label path t)
      (ruledSlot w (terms.against b) item s label path t) := by
  have hagainst : ruledMode (terms.against b) item s path t = ruledMode terms item s path t := rfl
  rcases hmode : ruledMode terms item s path t with e | ds | mode
  · rw [ruledSlot, ruledSlot, hagainst, hmode]
    exact .fault e
  · rw [ruledSlot, ruledSlot, hagainst, hmode]
    exact .found ⟨.of_others (kind_of_ruledMode hmode), by simp⟩
  rcases hlayout : t.layoutOf w with range | layout
  · rw [ruledSlot, ruledSlot, hagainst, hmode, hlayout]
    exact .fault _
  rw [ruledSlot_eq hmode hlayout, ruledSlot_eq (hagainst.trans hmode) hlayout]
  refine (eased_all fun x hx => ?_).bind fun parts parts' => eased_whole h s label path t mode layout
  exact (eased_slot x.2.2 x.1 _ x.2.1).of_part (Standing.mem_parts hx)
termination_by sizeOf t
decreasing_by exact Standing.sizeOf_part_lt ‹_›

theorem eased_function (params : List InterfaceType) (ret : InterfaceType)
    (failure : Failure InterfaceType) (holding : Holding) :
    let t := InterfaceType.function params ret failure holding
    Eased terms b item t (ruledFunction w terms item t params ret failure)
      (ruledFunction w (terms.against b) item t params ret failure) := by
  intro t
  have hfunction : ∀ terms : Terms, ruledFunction w terms item t params ret failure =
      (Findings.all <$> (positions item params ret failure).mapM fun x =>
        ruledSlot w terms item x.2.2 x.1 x.1 x.2.1) >>= fun parts =>
          .ok ((Findings.combine (fun children _ => children) parts
            (.ofProblems (gaps terms item "" t .borrowed))).map fun children =>
              { label := item.name, path := "", type := t, layout := ⟨.word w, 0⟩, mode := .borrowed
                obligation := .free, role := .declaration, children }) := by
    intro terms
    rw [bind_map_left]
    unfold ruledFunction
    refine congrArg _ (funext fun parts => ?_)
    cases Findings.combine (fun children _ => children) (Findings.all parts)
      (.ofProblems (gaps terms item "" t .borrowed)) <;> rfl
  rw [hfunction, hfunction]
  refine (eased_all fun x hx => ?_).bind fun parts parts' hparts => .found ?_
  · exact (eased_slot h x.2.2 x.1 x.1 x.2.1).of_part (mem_parts_of_mem_positions holding hx)
  · exact (relieved_map _ _).2 (hparts.combine _ (relieved_gaps h "" t .borrowed))

theorem eased_root (t : InterfaceType) : Eased terms b item t (ruledRoot w terms item t)
    (ruledRoot w (terms.against b) item t) := by
  unfold ruledRoot
  split
  · exact eased_function h _ _ _ _
  · exact eased_slot h _ _ _ _

theorem eased_item (t : InterfaceType) : Eased terms b item t (ruledItem w terms item t)
    (ruledItem w (terms.against b) item t) :=
  (eased_root h t).bind fun _ _ hroot => .found ((relieved_map _ _).2 hroot)

/-- Whatever the two resolvers have on record, an item is eased against the larger table. -/
theorem eased_resolveItem (t : InterfaceType) {small large : Resolver}
    (hsmall : small.engine.Faithful w) (hlarge : large.engine.Faithful w) :
    Eased terms b item t ((resolveItem terms item t).run.run small).1
      ((resolveItem (terms.against b) item t).run.run large).1 := by
  have hanswers : ∀ terms s, Ensures (resolving w fun _ => True) s (resolveItem terms item t)
      (Answers ResolvedItem.unnumbered ResolvedItem.slots (ruledItem w terms item t)
        (hintedItem terms item t)) := fun _ s => ensures_resolveItem t s fun _ _ => trivial
  have heased : Eased terms b item t (ruledItem w terms item t)
    (ruledItem w (terms.against b) item t) := eased_item h t
  rw [← ((hanswers terms small).run ⟨hsmall, fun _ _ => trivial⟩).2.ruled,
    ← ((hanswers (terms.against b) large).run ⟨hlarge, fun _ _ => trivial⟩).2.ruled] at heased
  exact heased.of_map

end Eased

end Ownership

end Crossing
