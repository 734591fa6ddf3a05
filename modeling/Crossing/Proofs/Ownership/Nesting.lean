import Mathlib
import Crossing.Capability.Builtin
import Crossing.Proofs.Building.Nesting
import Crossing.Proofs.Ownership.Ruling
import Crossing.Proofs.Ownership.Signature

/-!
# No callbacks below callbacks

The slots of a resolved item go along its type: every child is the slot of a part
(`typed_of_resolveItem`), so whatever lies below a slot lies inside its type (`Slot.Typed.below`).
An item is refused exactly where callbacks nest in its type, and so no slot below a callback is
another one (`nesting_iff`).
-/

namespace Crossing

namespace Slot

variable {p q c : Slot}

/-- The children of every slot of the tree are slots of parts of its type. -/
def Typed (p : Slot) : Prop := ∀ q ∈ p.preorder, ∀ c ∈ q.children, c.type ∈ q.type.parts

theorem self_mem_preorder (p : Slot) : p ∈ p.preorder := mem_preorder.2 (.inl rfl)

theorem Typed.child (h : p.Typed) (hc : c ∈ p.children) : c.Typed :=
  fun q hq => h q (mem_preorder.2 (.inr ⟨c, hc, hq⟩))

theorem Typed.contains_and_typed (h : p.Typed) :
    ∀ q ∈ p.preorder, p.type.Contains q.type ∧ q.Typed := by
  refine forall_preorder ?_ p ⟨.refl, h⟩
  rintro q ⟨hcontains, htyped⟩ c hc
  exact ⟨hcontains.tail (htyped q q.self_mem_preorder c hc), htyped.child hc⟩

/-- What lies below a slot lies inside a part of its type. -/
theorem Typed.below (h : p.Typed) (hq : q ∈ preorderAll p.children) :
    ∃ u ∈ p.type.parts, u.Contains q.type := by
  rw [preorderAll_eq_flatMap] at hq
  obtain ⟨c, hc, hq⟩ := List.mem_flatMap.1 hq
  exact ⟨c.type, h p p.self_mem_preorder c hc, ((h.child hc).contains_and_typed q hq).1⟩

end Slot

namespace Ownership

variable {terms : Terms} {item : ExportItem}

theorem Settled.typed {s : Standing} {p : Slot} (h : Settled terms item s p) : p.Typed := by
  have hsettled : ∀ q ∈ p.preorder, ∃ s, Settled terms item s q := by
    refine Slot.forall_preorder ?_ p ⟨s, h⟩
    rintro q ⟨s, hq⟩ c hc
    exact ⟨_, hq.child hc⟩
  intro q hq c hc
  obtain ⟨s, hq⟩ := hsettled q hq
  exact hq.type_mem_parts hc

/-- A function at the root has the parts of its type for children. -/
theorem type_mem_parts_of_root {t : InterfaceType} {b : Resolver} {r : ResolvedItem}
    (hkind : item.kind = .function) (ht : t.kind = .function)
    (h : ((resolveItem terms item t).run.run b).1 = .ok (.ok r)) :
    ∀ c ∈ r.root.children, c.type ∈ t.parts := by
  cases t with
  | function params ret failure holding =>
    have htypes := congrArg (List.map Prod.snd) (children_of_resolveItem hkind h)
    simp only [List.map_map, Function.comp_def, map_positions _ _ _ _ holding] at htypes
    intro c hc
    rw [← htypes]
    exact List.mem_map_of_mem hc
  | _ => cases ht

theorem typed_of_resolveItem {t : InterfaceType} {b : Resolver} {r : ResolvedItem}
    (h : ((resolveItem terms item t).run.run b).1 = .ok (.ok r)) : r.root.Typed := by
  obtain ⟨-, -, htype, hrooted⟩ := rooted_of_resolveItem h
  cases hrooted with
  | declaration hsettled => exact hsettled.typed
  | function hkind hfunction _ _ hsignature =>
    intro p hp c hc
    rcases Slot.mem_preorder.1 hp with rfl | ⟨q, hq, hp⟩
    · rw [htype] at hfunction ⊢
      exact type_mem_parts_of_root hkind hfunction h c hc
    · exact (hsignature q hq).typed p hp c hc

/-- Where callbacks do not nest in the type of an item, none lies below another among its slots. -/
theorem no_function_below {t : InterfaceType} {b : Resolver} {r : ResolvedItem}
    (hnests : ¬ item.NestsCallbacks t)
    (h : ((resolveItem terms item t).run.run b).1 = .ok (.ok r)) {p q : Slot} (hp : p ∈ r.slots)
    (hroot : item.kind = .function → p ≠ r.root) (hfunction : p.type.kind = .function)
    (hq : q ∈ Slot.preorderAll p.children) : q.type.kind ≠ .function := by
  obtain ⟨-, -, htype, -⟩ := rooted_of_resolveItem h
  have htyped := typed_of_resolveItem h
  intro hq'
  obtain ⟨u, hu, hcontains⟩ := (htyped.contains_and_typed p hp).2.below hq
  have hinside : ∀ v : InterfaceType, v.Contains p.type → v.NestsCallbacks :=
    fun v hv => ⟨p.type, hv, hfunction, u, hu, q.type, hcontains, hq'⟩
  refine hnests ?_
  unfold ExportItem.NestsCallbacks
  split
  · rename_i hkind
    obtain ⟨c, hc, hpc⟩ := (Slot.mem_preorder.1 hp).resolve_left (hroot hkind)
    refine ⟨c.type, ?_, hinside _ ((htyped.child hc).contains_and_typed p hpc).1⟩
    exact htype ▸ htyped _ r.root.self_mem_preorder c hc
  all_goals exact hinside t (htype ▸ (htyped.contains_and_typed p hp).1)

end Ownership

open Building Ownership in
/-- Where the types of an item build, the item is refused exactly if a callback lies inside another
one anywhere in its type. So below the slot of a callback there is never another one. -/
theorem nesting_iff (module : NativeModule) (wordBits : Int) (recognizers : RecognizerSet)
    (markers : List String) (items : List ExportItem) {item : ExportItem}
    (hitem : item ∈ (Export.collect module markers).items) {t : InterfaceType} :
    let m := TypeModel.ofModule module wordBits recognizers
    let answer := ((Builder.buildItem m item).run.run (Builder.after m items)).1
    ((Builder.buildDeclared m item).run.run (Builder.after m items)).1 = .ok (.ok t) →
      (answer = .ok (.ok t) ↔ ¬ item.NestsCallbacks t)
        ∧ ((∃ ds, answer = .ok (.error ds)) ↔ item.NestsCallbacks t)
        ∧ (answer = .ok (.ok t) → ∀ terms b r,
          ((resolveItem terms item t).run.run b).1 = .ok (.ok r) →
            ∀ p ∈ r.slots, (item.kind = .function → p ≠ r.root) → p.type.kind = .function →
              ∀ q ∈ Slot.preorderAll p.children, q.type.kind ≠ .function) := by
  intro m answer hdeclared
  have hnodup : m.index.names.Nodup := NominalIndex.nodup_names_ofModule module
  have hfaithful := Builder.faithful_after hnodup items
  have hok : answer = .ok (.ok t) ↔ t = t ∧ ¬ item.NestsCallbacks t :=
    buildItem_eq_ok_iff hnodup hitem hfaithful hdeclared
  refine ⟨hok.trans (and_iff_right rfl), buildItem_eq_error_iff hnodup hitem hfaithful hdeclared, ?_⟩
  intro h terms b r hr p hp hroot hfunction q hq
  exact no_function_below (hok.1 h).2 hr hp hroot hfunction hq

section Examples

open Building Ownership

theorem nesting_iff_callback :
    let param := callback (.ofNames ["u8"])
    takingItem param ∈ (Export.collect (guarded param) []).items
      ∧ ∃ t, ((Builder.buildDeclared (guardedModel param) (takingItem param)).run.run
          (Builder.after (guardedModel param) [])).1 = .ok (.ok t)
        ∧ ¬ (takingItem param).NestsCallbacks t
        ∧ ∃ r, ((resolveItem { capabilities := .dart } (takingItem param) t).run.run
            { engine := { word := .bits64 } }).1 = .ok (.ok r)
          ∧ ∀ p ∈ r.slots, p ≠ r.root → p.type.kind = .function →
            ∀ q ∈ Slot.preorderAll p.children, q.type.kind ≠ .function := by
  intro param
  have hitem : takingItem param ∈ (Export.collect (guarded param) []).items := by
    refine List.mem_of_getElem? (i := 1) ?_
    cbv
  have hbuilt : ∃ t, ((Builder.buildDeclared (guardedModel param) (takingItem param)).run.run
        (Builder.after (guardedModel param) [])).1 = .ok (.ok t)
      ∧ ((Builder.buildItem (guardedModel param) (takingItem param)).run.run
        (Builder.after (guardedModel param) [])).1 = .ok (.ok t)
      ∧ ∃ r, ((resolveItem { capabilities := .dart } (takingItem param) t).run.run
        { engine := { word := .bits64 } }).1 = .ok (.ok r) := by
    refine ⟨?t, ?declared, ?built, ?r, ?resolved⟩
    case declared =>
      cbv
      rfl
    case built => cbv
    case resolved =>
      cbv
      rfl
  obtain ⟨t, hdeclared, ht, r, hr⟩ := hbuilt
  obtain ⟨hnests, -, hslots⟩ := nesting_iff (guarded param) 64 .standard [] [] hitem hdeclared
  exact ⟨hitem, t, hdeclared, hnests.1 ht, r, hr, fun p hp hroot => hslots ht _ _ r hr p hp
    fun _ => hroot⟩

end Examples

end Crossing
