import Crossing.Proofs.Attempted
import Crossing.Proofs.Ownership.Ruling
import Crossing.Proofs.Ownership.Settled

/-!
# Where resolving comes to

Resolving an item visits its places one after the other: from a slot with a mode and a layout it
enters the parts in their order, as far as the parts before them do not end in a fault
(`Place.Enters`), and it begins with the positions of a function item or with the item as a whole
(`Place.Begins`). A place is in view exactly when a slot around it within its position lends what is
behind it (`Visited.view_iff`), and a raw pointer asks for its hint everywhere else
(`Visited.asks_iff`). What is asked for at the places visited, and nothing else, is noted
(`ensures_visited`).
-/

namespace Crossing

theorem InterfaceType.holding_eq_raw {t : InterfaceType} (h : t.effectiveHolding = .ok .raw) :
    t.holding = .raw := by
  by_cases hopt : t.holding = .optional
  · have heff := effectiveHolding_optional hopt h
    split at heff <;> cases heff
  · rw [effectiveHolding_of_ne hopt] at h
    exact Except.ok.inj h

namespace Standing

variable {s : Standing} {t : InterfaceType} {hint : Option OwnershipMode} {m : OwnershipMode}

/-- The slot is a raw pointer outside a view, which takes the mode of its hint. -/
def Asks (s : Standing) (t : InterfaceType) : Prop := s.reach ≠ .view ∧ t.holding = .raw

theorem verdict_of_asks (h : s.Asks t) (m : OwnershipMode) :
    s.verdict t (some m) = .ok (.hinted m) := by
  obtain ⟨hreach, hheld⟩ := h
  have hne : t.holding ≠ .optional := by
    rw [hheld]
    decide
  unfold verdict
  rw [InterfaceType.effectiveHolding_of_ne hne, hheld]
  cases hs : s.reach with
  | view => exact absurd hs hreach
  | position | transfer => rfl

/-- A slot that does not ask for its hint has the same verdict with any. -/
theorem verdict_congr (h : ¬ s.Asks t) (hint hint' : Option OwnershipMode) :
    s.verdict t hint = s.verdict t hint' := by
  unfold verdict
  cases he : t.effectiveHolding with
  | error => rfl
  | ok held =>
    cases hs : s.reach with
    | view => rfl
    | position | transfer =>
      have hraw : held ≠ .raw := by
        rintro rfl
        exact h ⟨by simp [hs], InterfaceType.holding_eq_raw he⟩
      cases held with
      | raw => exact absurd rfl hraw
      | _ => rfl

theorem plain_ne_hinted {k : OwnershipMode} : plain t k ≠ .ok (.hinted m) := by
  unfold plain
  cases t.ownsResources <;> simp [Except.map]

theorem verdict_none_ne_hinted : s.verdict t none ≠ .ok (.hinted m) := by
  unfold verdict
  cases t.effectiveHolding with
  | error => simp [bind, Except.bind]
  | ok held =>
    simp only [bind, Except.bind, pure, Except.pure]
    cases s.reach <;> cases held
    case position.raw => cases s.role.lendsRaw <;> simp
    case position.value | transfer.value => exact plain_ne_hinted
    all_goals simp

theorem hinted_iff : s.verdict t hint = .ok (.hinted m) ↔ s.Asks t ∧ hint = some m := by
  by_cases h : s.Asks t
  · cases hint with
    | none => simp [verdict_none_ne_hinted]
    | some k => simp [verdict_of_asks h, h]
  · simp [verdict_congr h hint none, verdict_none_ne_hinted, h]

end Standing

namespace Ownership

variable {w : WordSize} {terms : Terms} {item : ExportItem} {t : InterfaceType}

theorem mem_noted_iff {s : Standing} {path : String} {h : String × String} :
    h ∈ noted terms item s path t ↔ h = (item.qualifiedName, path) ∧ s.Asks t ∧
      ∃ m, (terms.hintsFor item).lookup path = some m := by
  unfold noted
  split
  · rename_i m hverdict
    obtain ⟨hasks, hhint⟩ := Standing.hinted_iff.1 hverdict
    simp [hasks, hhint]
  · rename_i hother
    refine iff_of_false List.not_mem_nil ?_
    rintro ⟨-, hasks, m, hm⟩
    exact hother m (Standing.hinted_iff.2 ⟨hasks, hm⟩)

/-- A place that resolving comes to. -/
structure Place where
  standing : Standing
  path : String
  type : InterfaceType
  /-- The slots around it within its position, the nearest first, each with its mode. -/
  around : List (InterfaceType × OwnershipMode)

/-- A slot that crosses as counted, or a pointer or sequence that is lent, lends what is behind
it. -/
def Lends (x : InterfaceType × OwnershipMode) : Prop :=
  x.2 = .sharedCounted ∨ x.2 = .borrowed ∧ x.1.holding ≠ .value

/-- A part of a slot does not end in a fault. -/
def PartAnswered (w : WordSize) (terms : Terms) (item : ExportItem) (path : String)
    (x : String × InterfaceType × Standing) : Prop :=
  ∃ found, ruledPart w terms item path x = .ok found

/-- A position of a function item does not end in a fault. -/
def PositionAnswered (w : WordSize) (terms : Terms) (item : ExportItem)
    (x : String × InterfaceType × Standing) : Prop :=
  ∃ found, ruledSlot w terms item x.2.2 x.1 x.1 x.2.1 = .ok found

namespace Place

/-- The place of a part. In the signature of a callback nothing is around it. -/
def part (p : Place) (mode : OwnershipMode) (x : String × InterfaceType × Standing) : Place where
  standing := x.2.2
  path := Slot.under p.path x.1
  type := x.2.1
  around := if p.type.kind = .function then [] else (p.type, mode) :: p.around

/-- The place of a position of a function item. -/
def position (x : String × InterfaceType × Standing) : Place := ⟨x.2.2, x.1, x.2.1, []⟩

/-- From a slot that has a mode and a layout, resolving goes into the parts, and on from each that
does not end in a fault. -/
inductive Enters (w : WordSize) (terms : Terms) (item : ExportItem) : Place → Place → Prop where
  | intro {p : Place} {mode : OwnershipMode} {layout : Layout}
      {x : String × InterfaceType × Standing}
      (mode_eq : ruledMode terms item p.standing p.path p.type = .ok (.ok mode))
      (layout_eq : p.type.layoutOf w = .ok layout)
      (attempted : Attempted (PartAnswered w terms item p.path) (p.standing.parts p.type mode) x) :
      Enters w terms item p (p.part mode x)

/-- Where resolving an item begins: at each position of a function item up to one that ends in a
fault, and at any other item as a whole. -/
inductive Begins (w : WordSize) (terms : Terms) (item : ExportItem) : InterfaceType → Place → Prop
    where
  | position {params : List InterfaceType} {ret : InterfaceType} {failure : Failure InterfaceType}
      {holding : Holding} {x : String × InterfaceType × Standing} (kind : item.kind = .function)
      (attempted :
        Attempted (PositionAnswered w terms item) (positions item params ret failure) x) :
      Begins w terms item (.function params ret failure holding) (position x)
  | whole {t : InterfaceType} (kind : ¬ (item.kind = .function ∧ t.kind = .function)) :
      Begins w terms item t ⟨⟨.position, .declaration⟩, "", t, []⟩

/-- Resolving comes to the second place from the first. -/
def Leads (w : WordSize) (terms : Terms) (item : ExportItem) : Place → Place → Prop :=
  Relation.ReflTransGen (Enters w terms item)

theorem leads_iff {p q : Place} : p.Leads w terms item q ↔
    q = p ∨ ∃ r, p.Enters w terms item r ∧ r.Leads w terms item q := by
  unfold Leads
  rw [Relation.ReflTransGen.cases_head_iff, eq_comm]

/-- The hint that is asked for at the place. -/
def noted (terms : Terms) (item : ExportItem) (p : Place) : List (String × String) :=
  Ownership.noted terms item p.standing p.path p.type

end Place

/-- The place is visited when the item is resolved. -/
def Visited (w : WordSize) (terms : Terms) (item : ExportItem) (t : InterfaceType) (q : Place) :
    Prop :=
  ∃ p, Place.Begins w terms item t p ∧ p.Leads w terms item q

section View

theorem gives_of_ruledMode {s : Standing} {path : String} {mode : OwnershipMode}
    (h : ruledMode terms item s path t = .ok (.ok mode)) :
    s.Gives t ((terms.hintsFor item).lookup path) mode := by
  unfold ruledMode at h
  split at h <;> cases h
  · exact .inl ‹_›
  · exact .inr ‹_›

/-- What is behind a slot is in view if the slot lends it or is in view itself. -/
theorem reach_below_iff {s : Standing} {mode : OwnershipMode}
    (hview : s.reach = .view → mode = .borrowed) :
    (s.below t mode).reach = .view ↔ Lends (t, mode) ∨ s.reach = .view := by
  cases mode with
  | transferredIn | transferredOut =>
    have hreach : s.reach ≠ .view := fun h => by simpa using hview h
    simp [Standing.below, Lends, hreach]
  | sharedCounted => simp [Standing.below, Lends]
  | borrowed =>
    cases hs : s.reach with
    | view => simp [Standing.below, hs]
    | position | transfer =>
      by_cases ht : t.holding = .value <;> simp [Standing.below, Lends, hs, ht]

/-- In view is what a slot around it lends. -/
def Place.ViewIff (p : Place) : Prop := p.standing.reach = .view ↔ ∃ x ∈ p.around, Lends x

theorem Place.Enters.viewIff {p q : Place} (h : p.Enters w terms item q) (hp : p.ViewIff) :
    q.ViewIff := by
  obtain ⟨hmode, -, hattempted⟩ := h
  rename_i mode layout x
  have hx : x ∈ p.standing.parts p.type mode := hattempted.mem
  unfold Place.ViewIff Place.part
  by_cases hkind : p.type.kind = .function
  · obtain ⟨params, ret, failure, holding, htype⟩ :
        ∃ params ret failure holding, p.type = .function params ret failure holding := by
      cases ht : p.type <;> simp [ht, InterfaceType.kind] at hkind
      exact ⟨_, _, _, _, rfl⟩
    rw [htype] at hx
    simp [hkind, reach_of_mem_signature hx]
  · have hbelow : x.2.2 = p.standing.below p.type mode := by
      unfold Standing.parts at hx
      split at hx
      · rename_i ht
        exact absurd (by rw [ht]; rfl) hkind
      · obtain ⟨y, -, rfl⟩ := List.mem_map.1 hx
        rfl
    have hview : p.standing.reach = .view → mode = .borrowed := by
      intro hreach
      have hgives := gives_of_ruledMode hmode
      rw [show p.standing = ⟨.view, p.standing.role⟩ from hreach ▸ rfl] at hgives
      exact Standing.eq_borrowed_of_view hgives
    simp only [if_neg hkind, List.exists_mem_cons_iff]
    rw [hbelow, reach_below_iff hview]
    exact or_congr_right hp

theorem Place.Begins.viewIff {p : Place} (h : Place.Begins w terms item t p) : p.ViewIff := by
  unfold Place.ViewIff
  cases h with
  | position _ hattempted => simp [Place.position, reach_of_mem_signature hattempted.mem]
  | whole => simp

/-- A place is in view if and only if a slot around it within its position lends what is behind. -/
theorem Visited.view_iff {p : Place} (h : Visited w terms item t p) :
    p.standing.reach = .view ↔ ∃ x ∈ p.around, Lends x := by
  obtain ⟨start, hbegins, hleads⟩ := h
  induction hleads with
  | refl => exact hbegins.viewIff
  | tail _ hstep ih => exact hstep.viewIff ih

theorem Visited.asks_iff {p : Place} (h : Visited w terms item t p) :
    p.standing.Asks p.type ↔ p.type.holding = .raw ∧ ∀ x ∈ p.around, ¬ Lends x := by
  unfold Standing.Asks
  rw [and_comm, Ne, h.view_iff, not_exists]
  simp only [not_and]

end View

section Noting

variable {allowed : String × String → Prop} {b : Resolver}

/-- What comes of a slot when its parts are through. -/
def assemble (terms : Terms) (item : ExportItem) (s : Standing) (label path : String)
    (t : InterfaceType) (mode : OwnershipMode) (layout : IssuedLayout)
    (parts : List (Findings Diagnostic Slot)) : ResolveM (Findings Diagnostic Slot) :=
  match Findings.combine (fun _ children => children)
      (.ofProblems (gaps terms item path t mode)) (Findings.all parts) with
  | .error ds => pure (.error ds)
  | .ok children => do
    let obligation ← obligation terms t mode
    pure (.ok { label, path, type := t, layout, mode, obligation, role := s.role, children })

/-- Resolves a part of a slot. -/
def slotPart (terms : Terms) (item : ExportItem) (path : String)
    (x : String × InterfaceType × Standing) : ResolveM (Findings Diagnostic Slot) :=
  slot terms item x.2.2 x.1 (Slot.under path x.1) x.2.1

theorem slot_eq (terms : Terms) (item : ExportItem) (s : Standing) (label path : String)
    (t : InterfaceType) : slot terms item s label path t = (do
      match ← modeOf terms item s path t with
      | .error ds => pure (.error ds)
      | .ok mode => do
        let layout ← layoutOf t
        let parts ← (s.parts t mode).mapM (slotPart terms item path)
        assemble terms item s label path t mode layout parts) := by
  rw [slot]
  refine congrArg _ (funext fun found => ?_)
  cases found with
  | error ds => rfl
  | ok mode =>
    dsimp only
    rw [← attach_mapM (s.parts t mode) (slotPart terms item path)]
    rfl

theorem ensures_assemble {s : Standing} {label path : String} {mode : OwnershipMode}
    {layout : IssuedLayout} {parts : List (Findings Diagnostic Slot)} :
    Ensures (resolving w allowed) b (assemble terms item s label path t mode layout parts)
      fun _ _ => True := by
  unfold assemble
  split
  · exact Ensures.pure fun _ _ => trivial
  · refine ensures_obligation.bind (fun _ _ _ _ => trivial) fun _ _ _ _ => ?_
    exact Ensures.pure fun _ _ => trivial

/-- What is said of the answers needs no bound on what is noted. -/
theorem ensures_both {α : Type} {x : ResolveM α} {Q R : Except Fault α → Resolver → Prop}
    (h : Ensures (resolving w fun _ => True) b x Q) (h' : Ensures (resolving w allowed) b x R) :
    Ensures (resolving w allowed) b x fun r t => Q r t ∧ R r t := by
  have hloose : ∀ b b', (resolving w allowed).Later b b' →
      (resolving w fun _ => True).Later b b' :=
    fun _ _ hb => ⟨⟨hb.1.1, fun _ _ => trivial⟩, hb.2⟩
  exact Steps.Upholds.both hloose (fun _ _ hb => hb) (fun _ _ _ hb => hb) h h'

/-- A slot is answered beside others if and only if it is by the rules. -/
theorem ensures_answered (s : Standing) (label path : String) (t : InterfaceType) (b : Resolver) :
    Ensures (resolving w fun _ => True) b (slot terms item s label path t) fun r _ =>
      (∃ found, r = .ok found) ↔ ∃ found, ruledSlot w terms item s label path t = .ok found := by
  refine (ensures_slot s label path t b fun _ _ => trivial).mono fun r _ _ hr => ?_
  rw [← hr.ruled]
  cases r <;> simp [Except.map]

/-- Whatever is asked for from the place on is noted. -/
def Place.Told (w : WordSize) (terms : Terms) (item : ExportItem) (p : Place) (b : Resolver) :
    Prop :=
  ∀ q, p.Leads w terms item q → ∀ h ∈ q.noted terms item, h ∈ b.applied

namespace Place

variable {p : Place} {b' : Resolver}

theorem Told.later (h : p.Told w terms item b) (hb : (resolving w allowed).Later b b') :
    p.Told w terms item b' :=
  fun q hq x hx => hb.2.2 x (h q hq x hx)

theorem told_of_entered (hnoted : ∀ h ∈ p.noted terms item, h ∈ b.applied)
    (hentered : ∀ q, p.Enters w terms item q → q.Told w terms item b) : p.Told w terms item b := by
  intro q hq
  rcases leads_iff.1 hq with rfl | ⟨r, hr, hq⟩
  · exact hnoted
  · exact hentered r hr q hq

/-- A hint that is asked for gives a mode. -/
theorem noted_eq_nil {e : Fault} (h : ruledMode terms item p.standing p.path p.type = .error e) :
    p.noted terms item = [] := by
  unfold noted Ownership.noted
  unfold ruledMode at h
  split at h <;> cases h
  rename_i hverdict
  simp [hverdict]

end Place

/-- Resolving the slot at a place notes what is asked for from there on, and nothing else, be there
a fault or not. -/
theorem ensures_visits (p : Place) (label : String) (b : Resolver)
    (hallowed : ∀ q, p.Leads w terms item q → ∀ h ∈ q.noted terms item, allowed h) :
    Ensures (resolving w allowed) b (slot terms item p.standing label p.path p.type)
      fun _ b => p.Told w terms item b := by
  rw [slot_eq]
  refine (ensures_modeOf fun h hh => hallowed p .refl h hh).bind ?_ ?_
  · rintro e b - ⟨hmode, -⟩
    refine Place.told_of_entered (by simp [Place.noted_eq_nil hmode.symm]) ?_
    rintro q ⟨hmode', -, -⟩
    rw [← hmode] at hmode'
    cases hmode'
  rintro found b hb ⟨hmode, hnoted⟩
  have hkept : ∀ b', (resolving w allowed).Later b b' →
      ∀ h ∈ p.noted terms item, h ∈ b'.applied :=
    fun b' hb' h hh => hb'.2.2 h (hnoted _ rfl h hh)
  cases found with
  | error ds =>
    refine Ensures.pure fun b' hb' => Place.told_of_entered (hkept b' hb') ?_
    rintro q ⟨hmode', -, -⟩
    rw [← hmode] at hmode'
    cases hmode'
  | ok mode =>
    refine ensures_layoutOf.bind ?_ ?_
    · rintro e b' hb' ⟨hlayout, -⟩
      refine Place.told_of_entered (hkept b' hb') ?_
      rintro q ⟨-, hlayout', -⟩
      rw [hlayout'] at hlayout
      cases hlayout
    rintro layout b' hb' ⟨hlayout, -⟩
    obtain ⟨l, hlayout⟩ : ∃ l, p.type.layoutOf w = .ok l := by
      cases h : p.type.layoutOf w with
      | error range => simp [h, Except.map, Except.mapError] at hlayout
      | ok l => exact ⟨l, rfl⟩
    -- The places entered from here are the parts that the loop comes to.
    have htold : ∀ b'', (resolving w allowed).Later b' b'' →
        (∀ x, Attempted (PartAnswered w terms item p.path) (p.standing.parts p.type mode) x →
          (p.part mode x).Told w terms item b'') → p.Told w terms item b'' := by
      intro b'' hb'' hparts
      refine Place.told_of_entered (hkept b'' (hb'.trans hb'')) ?_
      rintro q ⟨hmode', -, hattempted⟩
      obtain rfl := Except.ok.inj (Except.ok.inj (hmode.trans hmode'))
      exact hparts _ hattempted
    refine (Ensures.mapM_attempted (P := PartAnswered w terms item p.path)
      (T := fun x b => (p.part mode x).Told w terms item b) ?_).bind
      (fun _ b'' hb'' h => htold b'' hb'' h) fun parts b'' hb'' h => ?_
    · intro x hx b _
      refine ensures_both (ensures_answered ..) (ensures_visits (p.part mode x) x.1 b ?_)
      exact fun q hq => hallowed q (hq.head ⟨hmode.symm, hlayout, hx⟩)
    · exact ensures_assemble.mono fun _ _ hlater _ => (htold b'' hb'' h).later hlater
termination_by sizeOf p.type
decreasing_by exact Standing.sizeOf_part_lt hx.mem

theorem ensures_functionRoot_visits {params : List InterfaceType} {ret : InterfaceType}
    {failure : Failure InterfaceType} {holding : Holding} (hkind : item.kind = .function)
    (hallowed : ∀ q, Visited w terms item (.function params ret failure holding) q →
      ∀ h ∈ q.noted terms item, allowed h) :
    Ensures (resolving w allowed) b (functionRoot terms item t params ret failure) fun _ b =>
      ∀ x, Attempted (PositionAnswered w terms item) (positions item params ret failure) x →
        (Place.position x).Told w terms item b := by
  unfold functionRoot
  refine (Ensures.mapM_attempted (P := PositionAnswered w terms item)
    (T := fun x b => (Place.position x).Told w terms item b) ?_).bind
    (fun _ _ _ h => h) fun parts b hb h => ?_
  · intro x hx b _
    refine ensures_both (ensures_answered ..) (ensures_visits (Place.position x) x.1 b ?_)
    exact fun q hq => hallowed q ⟨_, .position hkind hx, hq⟩
  split
  · exact Ensures.pure fun b' hb' x hx => (h x hx).later hb'
  · refine ensures_layoutOf.bind (fun _ b' hb' _ x hx => (h x hx).later hb') fun _ b' hb' _ => ?_
    exact Ensures.pure fun b'' hb'' x hx => (h x hx).later (hb'.trans hb'')

/-- Resolving an item notes what is asked for at the places visited, and nothing else, be there a
fault or not. -/
theorem ensures_visited (item : ExportItem) (t : InterfaceType) (b : Resolver)
    (hallowed : ∀ q, Visited w terms item t q → ∀ h ∈ q.noted terms item, allowed h) :
    Ensures (resolving w allowed) b (resolveItem terms item t) fun _ b =>
      ∀ q, Visited w terms item t q → ∀ h ∈ q.noted terms item, h ∈ b.applied := by
  suffices hroot : Ensures (resolving w allowed) b (resolveRoot terms item t) fun _ b =>
      ∀ p, Place.Begins w terms item t p → p.Told w terms item b by
    refine hroot.bindPure fun _ b _ h q hq => ?_
    obtain ⟨p, hp, hq⟩ := hq
    exact h p hp q hq
  unfold resolveRoot
  split
  · rename_i params ret failure holding hkind
    refine (ensures_functionRoot_visits hkind hallowed).mono fun _ b _ h p hp => ?_
    cases hp with
    | position _ hattempted => exact h _ hattempted
    | whole hwhole => exact absurd ⟨hkind, rfl⟩ hwhole
  · rename_i t _ _ hwhole
    have hbegins : ¬ (item.kind = .function ∧ t.kind = .function) := by
      rintro ⟨hkind, ht⟩
      cases t <;> simp [InterfaceType.kind] at ht
      exact hwhole _ _ _ _ hkind rfl
    refine (ensures_visits ⟨⟨.position, .declaration⟩, "", t, []⟩ item.name b fun q hq =>
      hallowed q ⟨_, .whole hbegins, hq⟩).mono fun _ b _ h p hp => ?_
    cases hp with
    | position hkind => exact absurd ⟨hkind, rfl⟩ hbegins
    | whole => exact h

end Noting

end Ownership

end Crossing
