import Mathlib
import Crossing.Ownership.Resolver
import Crossing.Proofs.Layout.Engine

/-!
# Resolving by the rules

`ruledItem` is what resolving an item comes to by the rules alone: without an engine, so that no
layout has a number, and without notes about hints, which `hintedItem` has instead. Whoever else uses
the resolver, it answers as the rules do, up to the numbers of layouts (`Slot.unnumbered`); the
layouts of the answer are on record, and the hints that it made use of are noted
(`ensures_resolveItem`).
-/

namespace Crossing

namespace Slot

mutual

/-- The slot without the numbers of layouts. -/
def unnumbered : Slot → Slot
  | ⟨label, path, type, layout, mode, obligation, role, children⟩ =>
    ⟨label, path, type, ⟨layout.layout, 0⟩, mode, obligation, role, unnumberedAll children⟩
termination_by structural s => s

def unnumberedAll : List Slot → List Slot
  | [] => []
  | s :: ss => unnumbered s :: unnumberedAll ss
termination_by structural ss => ss

end

theorem unnumberedAll_eq_map (ss : List Slot) : unnumberedAll ss = ss.map unnumbered := by
  induction ss with
  | nil => rfl
  | cons s ss ih => rw [unnumberedAll, ih, List.map_cons]

theorem preorderAll_eq_flatMap (ss : List Slot) : preorderAll ss = ss.flatMap preorder := by
  induction ss with
  | nil => rfl
  | cons s ss ih => rw [preorderAll, ih, List.flatMap_cons]

theorem preorder_eq (p : Slot) : p.preorder = p :: p.children.flatMap preorder := by
  cases p
  rw [preorder, preorderAll_eq_flatMap]

theorem mem_preorder {p q : Slot} : q ∈ p.preorder ↔ q = p ∨ ∃ c ∈ p.children, q ∈ c.preorder := by
  rw [preorder_eq, List.mem_cons, List.mem_flatMap]

mutual

theorem preorder_unnumbered : ∀ p : Slot, p.unnumbered.preorder = p.preorder.map unnumbered
  | ⟨label, path, type, layout, mode, obligation, role, children⟩ => by
    rw [unnumbered, preorder, preorder, List.map_cons, preorderAll_unnumberedAll, unnumbered]

theorem preorderAll_unnumberedAll :
    ∀ ps : List Slot, preorderAll (unnumberedAll ps) = (preorderAll ps).map unnumbered
  | [] => rfl
  | p :: ps => by
    rw [unnumberedAll, preorderAll, preorderAll, List.map_append, preorder_unnumbered p,
      preorderAll_unnumberedAll ps]

end

@[simp]
theorem type_unnumbered (p : Slot) : p.unnumbered.type = p.type := by cases p; rfl

@[simp]
theorem mode_unnumbered (p : Slot) : p.unnumbered.mode = p.mode := by cases p; rfl

@[simp]
theorem obligation_unnumbered (p : Slot) : p.unnumbered.obligation = p.obligation := by cases p; rfl

end Slot

namespace ResolvedItem

def unnumbered (r : ResolvedItem) : ResolvedItem := { r with root := r.root.unnumbered }

theorem slots_unnumbered (r : ResolvedItem) : r.unnumbered.slots = r.slots.map Slot.unnumbered :=
  r.root.preorder_unnumbered

end ResolvedItem

namespace Ownership

/-- The hint that a slot takes its mode from, as it is noted. -/
def noted (terms : Terms) (item : ExportItem) (s : Standing) (path : String) (t : InterfaceType) :
    List (String × String) :=
  match s.verdict t ((terms.hintsFor item).lookup path) with
  | .ok (.hinted _) => [(item.qualifiedName, path)]
  | _ => []

def ruledMode (terms : Terms) (item : ExportItem) (s : Standing) (path : String)
    (t : InterfaceType) : Except Fault (Findings Diagnostic OwnershipMode) :=
  match s.verdict t ((terms.hintsFor item).lookup path) with
  | .error misheld => .error (.misheld misheld)
  | .ok (.mode m) | .ok (.hinted m) => .ok (.ok m)
  | .ok .unknownOwner => .ok (.error [unknownOwner item path t s])
  | .ok (.lentInside m) => .ok (.error [lentInside item path t m])

/-- The slot of a type that is reached in some way. -/
def ruledSlot (w : WordSize) (terms : Terms) (item : ExportItem) (s : Standing)
    (label path : String) (t : InterfaceType) : Except Fault (Findings Diagnostic Slot) := do
  match ← ruledMode terms item s path t with
  | .error ds => pure (.error ds)
  | .ok mode => do
    let layout ← (t.layoutOf w).mapError .tags
    let parts ← (s.parts t mode).attach.mapM fun ⟨(label, u, s), _⟩ =>
      ruledSlot w terms item s label (Slot.under path label) u
    match Findings.combine (fun _ children => children)
        (.ofProblems (gaps terms item path t mode)) (Findings.all parts) with
    | .error ds => pure (.error ds)
    | .ok children => do
      let obligation ← (terms.capabilities.obligation t mode).mapError .helper
      pure (.ok { label, path, type := t, layout := ⟨layout, 0⟩, mode, obligation, role := s.role
                  children })
termination_by sizeOf t
decreasing_by exact Standing.sizeOf_part_lt ‹_›

/-- The hints that the slot of a type and its parts take their modes from. -/
def hintedSlot (terms : Terms) (item : ExportItem) (s : Standing) (path : String)
    (t : InterfaceType) : List (String × String) :=
  noted terms item s path t ++ match ruledMode terms item s path t with
    | .ok (.ok mode) => (s.parts t mode).attach.flatMap fun ⟨(label, u, s), _⟩ =>
      hintedSlot terms item s (Slot.under path label) u
    | _ => []
termination_by sizeOf t
decreasing_by exact Standing.sizeOf_part_lt ‹_›

def ruledFunction (w : WordSize) (terms : Terms) (item : ExportItem) (t : InterfaceType)
    (params : List InterfaceType) (ret : InterfaceType) (failure : Failure InterfaceType) :
    Except Fault (Findings Diagnostic Slot) := do
  let parts ← (positions item params ret failure).mapM fun (label, u, s) =>
    ruledSlot w terms item s label label u
  match Findings.combine (fun children _ => children) (Findings.all parts)
      (.ofProblems (gaps terms item "" t .borrowed)) with
  | .error ds => pure (.error ds)
  | .ok children => do
    let layout ← (t.layoutOf w).mapError .tags
    pure (.ok {
      label := item.name, path := "", type := t, layout := ⟨layout, 0⟩, mode := .borrowed
      obligation := .free, role := .declaration, children })

def ruledRoot (w : WordSize) (terms : Terms) (item : ExportItem) (t : InterfaceType) :
    Except Fault (Findings Diagnostic Slot) :=
  match item.kind, t with
  | .function, .function params ret failure holding =>
    ruledFunction w terms item (.function params ret failure holding) params ret failure
  | _, t => ruledSlot w terms item ⟨.position, .declaration⟩ item.name "" t

/-- What resolving an item comes to by the rules. -/
def ruledItem (w : WordSize) (terms : Terms) (item : ExportItem) (t : InterfaceType) :
    Except Fault (Findings Diagnostic ResolvedItem) := do
  let root ← ruledRoot w terms item t
  pure (root.map fun root => { item, type := t, root })

/-- The hints that the slots of an item take their modes from. -/
def hintedItem (terms : Terms) (item : ExportItem) (t : InterfaceType) : List (String × String) :=
  match item.kind, t with
  | .function, .function params ret failure _ =>
    (positions item params ret failure).flatMap fun (label, u, s) => hintedSlot terms item s label u
  | _, t => hintedSlot terms item ⟨.position, .declaration⟩ "" t

/-- The engine is faithful and keeps what it has on record, and nothing but some hints is noted, for
good. -/
def resolving (w : WordSize) (allowed : String × String → Prop) : Discipline Resolver where
  Inv r := r.engine.Faithful w ∧ ∀ h ∈ r.applied, allowed h
  Grows r r' := (LayoutEngine.recording w).Grows r.engine r'.engine ∧ ∀ h ∈ r.applied, h ∈ r'.applied
  refl _ := ⟨Discipline.refl _ _, fun _ h => h⟩
  trans h h' := ⟨Discipline.trans _ h.1 h'.1, fun x hx => h'.2 x (h.2 x hx)⟩

/-- The answer is that of the rules up to the numbers of layouts, the layouts of its slots are on
record, and unless it is a fault, the hints in use are noted. -/
structure Answers {α : Type} (unnumber : α → α) (slots : α → List Slot)
    (ruled : Except Fault (Findings Diagnostic α)) (hinted : List (String × String))
    (r : Except Fault (Findings Diagnostic α)) (b : Resolver) : Prop where
  ruled : r.map (Except.map unnumber) = ruled
  recorded : ∀ a, r = .ok (.ok a) → ∀ p ∈ slots a, b.engine.cache.lookup p.type = some p.layout
  noted : ∀ found, r = .ok found → ∀ h ∈ hinted, h ∈ b.applied

/-- A fault answers nothing but that the rules have it as well. -/
theorem Answers.of_fault {α : Type} {unnumber : α → α} {slots : α → List Slot}
    {ruled : Except Fault (Findings Diagnostic α)} {hinted : List (String × String)} {e : Fault}
    {b : Resolver} (h : .error e = ruled) : Answers unnumber slots ruled hinted (.error e) b :=
  ⟨h, by simp, by simp⟩

variable {w : WordSize} {terms : Terms} {item : ExportItem} {allowed : String × String → Prop}
  {b b' : Resolver}

section Steps

variable {s : Standing} {path : String} {t : InterfaceType}

theorem ensures_modeOf (hallowed : ∀ h ∈ noted terms item s path t, allowed h) :
    Ensures (resolving w allowed) b (modeOf terms item s path t) fun r b =>
      r = ruledMode terms item s path t ∧
        ∀ found, r = .ok found → ∀ h ∈ noted terms item s path t, h ∈ b.applied := by
  unfold modeOf
  split
  · rename_i hverdict
    exact Ensures.throw fun _ _ => ⟨by simp [ruledMode, hverdict], nofun⟩
  · rename_i hverdict
    exact Ensures.pure fun _ _ => ⟨by simp [ruledMode, hverdict], by simp [noted, hverdict]⟩
  · rename_i hverdict
    have hnoted : noted terms item s path t = [(item.qualifiedName, path)] := by
      simp [noted, hverdict]
    rw [hnoted, List.forall_mem_singleton] at hallowed
    refine Ensures.modifyBind fun b hb => ⟨⟨⟨hb.1.1, ?_⟩, Discipline.refl _ _, ?_⟩, ?_⟩
    · exact List.forall_mem_cons.2 ⟨hallowed, hb.1.2⟩
    · exact fun h hh => List.mem_cons_of_mem _ hh
    · refine Ensures.pure fun b' hb' => ⟨by simp [ruledMode, hverdict], fun _ _ => ?_⟩
      rw [hnoted, List.forall_mem_singleton]
      exact hb'.2.2 _ List.mem_cons_self
  · rename_i hverdict
    exact Ensures.pure fun _ _ => ⟨by simp [ruledMode, hverdict], by simp [noted, hverdict]⟩
  · rename_i hverdict
    exact Ensures.pure fun _ _ => ⟨by simp [ruledMode, hverdict], by simp [noted, hverdict]⟩

theorem ensures_layoutOf :
    Ensures (resolving w allowed) b (layoutOf t) fun r b =>
      r.map (·.layout) = (t.layoutOf w).mapError .tags ∧
        ∀ issued, r = .ok issued → b.engine.cache.lookup t = some issued := by
  refine Ensures.modifyGetBind fun b hb => ?_
  obtain ⟨hfaithful, happlied⟩ := hb.1
  have hlater := LayoutEngine.later_layoutOf hfaithful t
  have hanswer := LayoutEngine.answer_layoutOf hfaithful t
  refine ⟨⟨⟨hlater.1, happlied⟩, hlater.2, fun _ h => h⟩, ?_⟩
  simp only
  split
  · rename_i issued hissued
    refine Ensures.pure fun b' hb' => ⟨?_, ?_⟩
    · rw [← hanswer, hissued]
      rfl
    · rintro _ ⟨⟩
      exact hb'.2.1 t issued (LayoutEngine.lookup_layoutOf hissued)
  · rename_i range hrange
    refine Ensures.throw fun b' hb' => ⟨?_, nofun⟩
    rw [← hanswer, hrange]
    rfl

theorem ensures_obligation {mode : OwnershipMode} :
    Ensures (resolving w allowed) b (obligation terms t mode) fun r _ =>
      r = (terms.capabilities.obligation t mode).mapError .helper := by
  unfold obligation
  split
  · rename_i h
    exact Ensures.pure fun _ _ => by rw [h]; rfl
  · rename_i h
    exact Ensures.throw fun _ _ => by rw [h]; rfl

end Steps

/-- What the parts of a slot are answered beside others. -/
def PartAnswers (w : WordSize) (terms : Terms) (item : ExportItem)
    (place : String × InterfaceType × Standing → String) :
    String × InterfaceType × Standing → Except Fault (Findings Diagnostic Slot) → Resolver → Prop :=
  fun x => Answers Slot.unnumbered Slot.preorder
    (ruledSlot w terms item x.2.2 x.1 (place x) x.2.1) (hintedSlot terms item x.2.2 (place x) x.2.1)

section Parts

variable {place : String × InterfaceType × Standing → String}
  {xs : List (String × InterfaceType × Standing)} {r : Except Fault (List (Findings Diagnostic Slot))}
  (h : OnEach (PartAnswers w terms item place) xs r b)
include h

theorem ruled_of_parts : r.map (List.map (Except.map Slot.unnumbered)) =
    xs.mapM fun x => ruledSlot w terms item x.2.2 x.1 (place x) x.2.1 :=
  (h.imp fun _ _ _ hx => hx.ruled).eq_mapM

theorem recorded_of_parts {parts : List (Findings Diagnostic Slot)} (hr : r = .ok parts)
    {children : List Slot} (hall : Findings.all parts = .ok children) :
    ∀ p ∈ Slot.preorderAll children, b.engine.cache.lookup p.type = some p.layout := by
  subst hr
  intro p hp
  rw [Slot.preorderAll_eq_flatMap] at hp
  obtain ⟨c, hc, hp⟩ := List.mem_flatMap.1 hp
  obtain ⟨made, -, rfl, hmade⟩ := exists_of_forall₂ h.forall₂
  obtain ⟨x, hx⟩ := Findings.exists_of_mem_all hall hc
  exact (hmade _ hx).recorded c rfl p hp

theorem noted_of_parts {parts : List (Findings Diagnostic Slot)} (hr : r = .ok parts) :
    ∀ h ∈ xs.flatMap fun x => hintedSlot terms item x.2.2 (place x) x.2.1, h ∈ b.applied := by
  subst hr
  intro hint hhint
  obtain ⟨made, rfl, -, hmade⟩ := exists_of_forall₂ h.forall₂
  obtain ⟨x, hx, hhint⟩ := List.mem_flatMap.1 hhint
  obtain ⟨q, hq, rfl⟩ := List.mem_map.1 hx
  exact (hmade q hq).noted q.2 rfl hint hhint

end Parts

theorem attach_flatMap {α β : Type} (xs : List α) (f : α → List β) :
    (xs.attach.flatMap fun x => f x.1) = xs.flatMap f :=
  calc (xs.attach.flatMap fun x => f x.1) = (xs.attach.map Subtype.val).flatMap f :=
      (List.flatMap_map ..).symm
    _ = xs.flatMap f := by rw [List.attach_map_subtype_val]

/-- The children of a slot are those of the rules when the parts are. -/
theorem unnumbered_combine (gaps : Findings Diagnostic Unit)
    (parts : List (Findings Diagnostic Slot)) :
    Findings.combine (fun children _ => children)
        (Findings.all (parts.map (Except.map Slot.unnumbered))) gaps =
      (Findings.combine (fun children _ => children) (Findings.all parts) gaps).map
        (List.map Slot.unnumbered) := by
  rw [Findings.all_map]
  cases gaps <;> cases Findings.all parts <;> rfl

theorem combine_unnumbered (gaps : Findings Diagnostic Unit)
    (parts : List (Findings Diagnostic Slot)) :
    Findings.combine (fun _ children => children) gaps
        (Findings.all (parts.map (Except.map Slot.unnumbered))) =
      (Findings.combine (fun _ children => children) gaps (Findings.all parts)).map
        (List.map Slot.unnumbered) := by
  rw [Findings.all_map]
  cases gaps <;> cases Findings.all parts <;> rfl

section Whole

variable {s : Standing} {label path : String} {t : InterfaceType} {mode : OwnershipMode}
  {layout : IssuedLayout} {parts : List (Findings Diagnostic Slot)}
  {hinted : List (String × String)}

/-- A slot is put together from its parts as the rules have it. -/
theorem ensures_whole (hlayout : b.engine.cache.lookup t = some layout)
    (hparts : OnEach (PartAnswers w terms item (Slot.under path ·.1)) (s.parts t mode) (.ok parts) b)
    (hnoted : ∀ h ∈ hinted, h ∈ b.applied) :
    Ensures (resolving w allowed) b
      (match Findings.combine (fun _ children => children)
          (.ofProblems (gaps terms item path t mode)) (Findings.all parts) with
      | .error ds => pure (.error ds)
      | .ok children => do
        let obligation ← obligation terms t mode
        pure (.ok { label, path, type := t, layout, mode, obligation, role := s.role, children }))
      (Answers Slot.unnumbered Slot.preorder
        (match Findings.combine (fun _ children => children)
            (.ofProblems (gaps terms item path t mode))
            (Findings.all (parts.map (Except.map Slot.unnumbered))) with
        | .error ds => pure (.error ds)
        | .ok children => do
          let obligation ← (terms.capabilities.obligation t mode).mapError .helper
          pure (.ok { label, path, type := t, layout := ⟨layout.layout, 0⟩, mode, obligation
                      role := s.role, children }))
        hinted) := by
  rw [combine_unnumbered]
  split
  · rename_i heq
    exact Ensures.pure fun b' hb' =>
      ⟨by rw [heq]; rfl, nofun, fun _ _ h hh => hb'.2.2 h (hnoted h hh)⟩
  · rename_i children heq
    obtain ⟨-, children, -, hall, rfl⟩ := Findings.combine_eq_ok.1 heq
    rw [heq]
    refine ensures_obligation.bind ?_ ?_
    · rintro e b - he
      exact ⟨by simp only [Except.map, ← he]; rfl, nofun, nofun⟩
    · intro o b' hb' ho
      refine Ensures.pure fun b'' hb'' => ?_
      have hlater := Discipline.trans _ hb'.2 hb''.2
      refine ⟨?_, ?_, fun _ _ h hh => hlater.2 h (hnoted h hh)⟩
      · simp only [Except.map, ← ho, bind, Except.bind, pure, Except.pure, Slot.unnumbered,
          Slot.unnumberedAll_eq_map]
      · rintro _ ⟨⟩ p hp
        rw [Slot.preorder] at hp
        rcases List.mem_cons.1 hp with rfl | hp
        · exact hlater.1 t layout hlayout
        · exact hlater.1 _ _ (recorded_of_parts hparts rfl hall p hp)

end Whole

/-- What `slot` answers beside others is as the rules have it. -/
theorem ensures_slot (s : Standing) (label path : String) (t : InterfaceType) (b : Resolver)
    (hallowed : ∀ h ∈ hintedSlot terms item s path t, allowed h) :
    Ensures (resolving w allowed) b (slot terms item s label path t)
      (Answers Slot.unnumbered Slot.preorder (ruledSlot w terms item s label path t)
        (hintedSlot terms item s path t)) := by
  rw [hintedSlot] at hallowed ⊢
  rw [slot, ruledSlot]
  refine (ensures_modeOf fun h hh => hallowed h (List.mem_append_left _ hh)).bind ?_ ?_
  · rintro e b - ⟨hmode, -⟩
    exact .of_fault (by rw [← hmode]; rfl)
  rintro found b hb ⟨hmode, hnoted⟩
  rw [← hmode] at hallowed ⊢
  cases found with
  | error ds =>
    refine Ensures.pure fun b' hb' => ⟨rfl, by simp, fun _ _ h hh => ?_⟩
    exact hb'.2.2 h (hnoted _ rfl h (by simpa using hh))
  | ok mode =>
    have hhinted := attach_flatMap (s.parts t mode) fun x =>
      hintedSlot terms item x.2.2 (Slot.under path x.1) x.2.1
    have hruled := attach_mapM (s.parts t mode) fun x =>
      ruledSlot w terms item x.2.2 x.1 (Slot.under path x.1) x.2.1
    simp only [hhinted] at hallowed ⊢
    refine ensures_layoutOf.bind ?_ ?_
    · rintro e b - ⟨hlayout, -⟩
      refine .of_fault ?_
      simp only [bind, Except.bind, ← hlayout, Except.map]
    rintro layout b' hb' ⟨hlayout, hrecorded⟩
    refine (Ensures.attachMapM (R := PartAnswers w terms item (Slot.under path ·.1)) ?_).bind ?_ ?_
    · rintro ⟨label, u, below⟩ hx b -
      refine ensures_slot below label _ u b fun h hh => hallowed h ?_
      exact List.mem_append_right _ (List.mem_flatMap.2 ⟨_, hx, hh⟩)
    · rintro e b - hparts
      refine .of_fault ?_
      simp only [bind, Except.bind, ← hlayout, Except.map, hruled, ← ruled_of_parts hparts]
    · intro parts b'' hb'' hparts
      simp only [bind, Except.bind, ← hlayout, Except.map, hruled, ← ruled_of_parts hparts]
      refine ensures_whole (hb''.2.1 t layout (hrecorded _ rfl)) hparts fun h hh => ?_
      rcases List.mem_append.1 hh with hh | hh
      · exact hb''.2.2 h (hb'.2.2 h (hnoted _ rfl h hh))
      · exact noted_of_parts hparts rfl h hh
termination_by sizeOf t
decreasing_by exact Standing.sizeOf_part_lt ‹_›

theorem ensures_functionRoot (t : InterfaceType) (params : List InterfaceType) (ret : InterfaceType)
    (failure : Failure InterfaceType) (b : Resolver)
    (hallowed : ∀ h ∈ (positions item params ret failure).flatMap fun x =>
      hintedSlot terms item x.2.2 x.1 x.2.1, allowed h) :
    Ensures (resolving w allowed) b (functionRoot terms item t params ret failure)
      (Answers Slot.unnumbered Slot.preorder (ruledFunction w terms item t params ret failure)
        ((positions item params ret failure).flatMap fun x =>
          hintedSlot terms item x.2.2 x.1 x.2.1)) := by
  unfold functionRoot ruledFunction
  refine (Ensures.mapM (R := PartAnswers w terms item (·.1)) ?_).bind ?_ ?_
  · rintro ⟨label, u, s⟩ hx b -
    exact ensures_slot s label label u b fun h hh => hallowed h (List.mem_flatMap.2 ⟨_, hx, hh⟩)
  · rintro e b - hparts
    refine .of_fault ?_
    simp only [bind, Except.bind, ← ruled_of_parts hparts, Except.map]
  · intro parts b hb hparts
    simp only [bind, Except.bind, ← ruled_of_parts hparts, Except.map, unnumbered_combine]
    have hnoted := noted_of_parts hparts rfl
    split
    · rename_i heq
      exact Ensures.pure fun b' hb' =>
        ⟨by rw [heq]; rfl, by simp, fun _ _ h hh => hb'.2.2 h (hnoted h hh)⟩
    · rename_i children heq
      obtain ⟨children, -, hall, -, rfl⟩ := Findings.combine_eq_ok.1 heq
      rw [heq]
      refine ensures_layoutOf.bind ?_ ?_
      · rintro e b - ⟨hlayout, -⟩
        refine .of_fault ?_
        simp only [Except.map, ← hlayout]
      · rintro layout b' hb' ⟨hlayout, hrecorded⟩
        refine Ensures.pure fun b'' hb'' => ?_
        have hlater := Discipline.trans _ hb'.2 hb''.2
        refine ⟨?_, ?_, fun _ _ h hh => hlater.2 h (hnoted h hh)⟩
        · simp only [Except.map, ← hlayout, pure, Except.pure, Slot.unnumbered,
            Slot.unnumberedAll_eq_map]
        · rintro _ ⟨⟩ p hp
          rw [Slot.preorder] at hp
          rcases List.mem_cons.1 hp with rfl | hp
          · exact hb''.2.1 t layout (hrecorded layout rfl)
          · exact hlater.1 _ _ (recorded_of_parts hparts rfl hall p hp)

theorem ensures_resolveRoot (t : InterfaceType) (b : Resolver)
    (hallowed : ∀ h ∈ hintedItem terms item t, allowed h) :
    Ensures (resolving w allowed) b (resolveRoot terms item t)
      (Answers Slot.unnumbered Slot.preorder (ruledRoot w terms item t)
        (hintedItem terms item t)) := by
  revert hallowed
  unfold resolveRoot ruledRoot hintedItem
  cases item.kind <;> cases t
  case function.function => exact ensures_functionRoot _ _ _ _ b
  all_goals exact ensures_slot _ _ _ _ b

/-- What `resolveItem` answers beside others is as the rules have it. -/
theorem ensures_resolveItem (t : InterfaceType) (b : Resolver)
    (hallowed : ∀ h ∈ hintedItem terms item t, allowed h) :
    Ensures (resolving w allowed) b (resolveItem terms item t)
      (Answers ResolvedItem.unnumbered ResolvedItem.slots (ruledItem w terms item t)
        (hintedItem terms item t)) := by
  unfold resolveItem
  refine (ensures_resolveRoot t b hallowed).bind ?_ ?_
  · rintro e b - he
    refine ⟨?_, by simp, by simp⟩
    rw [ruledItem, ← he.ruled]
    rfl
  · intro root b hb hroot
    refine Ensures.pure fun b' hb' => ⟨?_, ?_, ?_⟩
    · rw [ruledItem, ← hroot.ruled]
      cases root <;> rfl
    · intro r hr p hp
      obtain ⟨root, rfl, rfl⟩ := Findings.map_eq_ok.1 (Except.ok.inj hr)
      exact hb'.2.1 _ _ (hroot.recorded root rfl p hp)
    · exact fun _ _ h hh => hb'.2.2 h (hroot.noted root rfl h hh)

end Ownership

end Crossing
