import Crossing.Layout.Engine
import Crossing.Proofs.Keeps

/-!
# The engine answers as the rule

Whatever an engine was asked before, also where it failed, what it has on record for a type is the
layout that the rule gives it, and so is every answer (`layoutOf_after`). What is on record stays
there (`later_layoutOf`), and every answer is put on record (`lookup_layoutOf`).
-/

namespace Crossing.LayoutEngine

/-- Everything on record is as the rule for the word size has it. -/
def Faithful (w : WordSize) (e : LayoutEngine) : Prop :=
  e.word = w ∧ ∀ t issued, e.cache.lookup t = some issued → t.layoutOf w = .ok issued.layout

/-- A faithful engine that has some layouts on record for sure. -/
def Retains (w : WordSize) (known : InterfaceType → IssuedLayout → Prop) (e : LayoutEngine) : Prop :=
  e.Faithful w ∧ ∀ t issued, known t issued → e.cache.lookup t = some issued

variable {w : WordSize} {known : InterfaceType → IssuedLayout → Prop}

theorem Faithful.record {e : LayoutEngine} (h : e.Faithful w) {t : InterfaceType} {l : Layout}
    (hl : t.layoutOf w = .ok l) : (e.record t l).2.Faithful w := by
  refine ⟨h.1, fun u issued hu => ?_⟩
  simp only [LayoutEngine.record, List.lookup_cons] at hu
  split at hu
  · rename_i heq
    simp only [Option.some.injEq] at hu
    rw [eq_of_beq heq, hl, ← hu]
  · exact h.2 u issued hu

theorem Retains.record {e : LayoutEngine} (h : e.Retains w known) {t : InterfaceType} {l : Layout}
    (hl : t.layoutOf w = .ok l) (ht : ∀ issued, ¬ known t issued) :
    (e.record t l).2.Retains w known := by
  refine ⟨h.1.record hl, fun u issued hu => ?_⟩
  have hne : (u == t) = false := by
    rw [beq_eq_false_iff_ne]
    rintro rfl
    exact ht issued hu
  simp only [LayoutEngine.record, List.lookup_cons, hne]
  exact h.2 u issued hu

/-- A recorded layout and a computed one are the same. -/
theorem keeps_cached {t : InterfaceType} {compute : Query Layout}
    (h : Keeps (Retains w known) compute (· = t.layoutOf w)) :
    Keeps (Retains w known) (cached t compute) (·.map (·.layout) = t.layoutOf w) := by
  refine Keeps.getBind fun e he => ?_
  split
  · rename_i issued hissued
    exact Keeps.pure (he.1.2 t issued hissued).symm
  · rename_i hnone
    refine h.bind (fun e he => ?_) fun l hl => ?_
    · rw [← he]
      rfl
    · refine Keeps.modifyGet fun e' he' => ⟨hl, he'.record hl.symm fun issued hknown => ?_⟩
      rw [he.2 t issued hknown] at hnone
      simp at hnone

mutual

theorem keeps_query : ∀ t : InterfaceType,
    Keeps (Retains w known) (query t) (·.map (·.layout) = t.layoutOf w)
  | .primitive _ _ _ => keeps_cached (Keeps.pure rfl)
  | .pointer _ _ _ _ => keeps_cached (Keeps.getBind fun _ he => Keeps.pure (he.1.1 ▸ rfl))
  | .buffer _ _ => keeps_cached (Keeps.getBind fun _ he => Keeps.pure (he.1.1 ▸ rfl))
  | .array e _ n => by
    refine keeps_cached ((keeps_query e).bind (fun r hr => ?_) fun l hl => Keeps.pure ?_)
    · rw [InterfaceType.layoutOf, ← hr]
      rfl
    · rw [InterfaceType.layoutOf, ← hl]
      rfl
  | .text _ _ => keeps_cached (Keeps.getBind fun _ he => Keeps.pure (he.1.1 ▸ rfl))
  | .record _ fs => by
    refine keeps_cached ((keeps_queryFields fs).bind (fun r hr => ?_) fun parts hp => Keeps.pure ?_)
    · rw [InterfaceType.layoutOf, ← hr]
      rfl
    · rw [InterfaceType.layoutOf, ← hp]
      rfl
  | .taggedUnion _ vs => by
    refine keeps_cached ((Keeps.liftExcept rfl).bind (fun r hr => ?_) fun tag ht => ?_)
    · rw [InterfaceType.layoutOf, hr]
      rfl
    · refine (keeps_queryVariants vs).bind (fun r hr => ?_) fun parts hp => Keeps.pure ?_
      · rw [InterfaceType.layoutOf, ht, ← hr]
        rfl
      · rw [InterfaceType.layoutOf, ht, ← hp]
        rfl
  | .function _ _ _ _ => keeps_cached (Keeps.getBind fun _ he => Keeps.pure (he.1.1 ▸ rfl))
  | .handle _ _ => keeps_cached (Keeps.getBind fun _ he => Keeps.pure (he.1.1 ▸ rfl))

theorem keeps_queryFields : ∀ fs : List (Field InterfaceType),
    Keeps (Retains w known) (queryFields fs) (· = InterfaceType.layoutOfFields w fs)
  | [] => Keeps.pure rfl
  | ⟨_, t⟩ :: fs => by
    refine (keeps_query t).bind (fun r hr => ?_) fun l hl => ?_
    · rw [InterfaceType.layoutOfFields, ← hr]
      rfl
    · refine (keeps_queryFields fs).bind (fun r hr => ?_) fun rest hrest => Keeps.pure ?_
      · rw [InterfaceType.layoutOfFields, ← hl, ← hr]
        rfl
      · rw [InterfaceType.layoutOfFields, ← hl, ← hrest]
        rfl

theorem keeps_queryVariants : ∀ vs : List (Variant InterfaceType),
    Keeps (Retains w known) (queryVariants vs) (· = InterfaceType.layoutOfVariants w vs)
  | [] => Keeps.pure rfl
  | ⟨_, _, fs⟩ :: vs => by
    refine (keeps_queryFields fs).bind (fun r hr => ?_) fun parts hp => ?_
    · rw [InterfaceType.layoutOfVariants, ← hr]
      rfl
    · refine (keeps_queryVariants vs).bind (fun r hr => ?_) fun rest hrest => Keeps.pure ?_
      · rw [InterfaceType.layoutOfVariants, ← hp, ← hr]
        rfl
      · rw [InterfaceType.layoutOfVariants, ← hp, ← hrest]
        rfl

end

/-- An engine is faithful, and what it has on record it keeps there. -/
def recording (w : WordSize) : Discipline LayoutEngine where
  Inv := Faithful w
  Grows e e' := ∀ t issued, e.cache.lookup t = some issued → e'.cache.lookup t = some issued
  refl _ _ _ h := h
  trans h h' t issued ht := h' t issued (h t issued ht)

section Answer

variable {e : LayoutEngine} (he : e.Faithful w) (t : InterfaceType)
include he

/-- An engine answers with the layout of the rule, or fails as the rule does. -/
theorem answer_layoutOf : (e.layoutOf t).1.map (·.layout) = t.layoutOf w := by
  have hkeeps : Keeps (Retains w fun _ _ => False) (query t) (·.map (·.layout) = t.layoutOf w) :=
    keeps_query t
  exact (hkeeps.run ⟨he, nofun⟩).1

theorem later_layoutOf : (recording w).Later e (e.layoutOf t).2 := by
  have hkeeps : Keeps (Retains w fun u issued => e.cache.lookup u = some issued) (query t)
      (·.map (·.layout) = t.layoutOf w) := keeps_query t
  exact (hkeeps.run ⟨he, fun _ _ h => h⟩).2

end Answer

theorem lookup_cached {t : InterfaceType} {compute : Query Layout} {e : LayoutEngine}
    {issued : IssuedLayout} (h : ((cached t compute).run.run e).1 = .ok issued) :
    ((cached t compute).run.run e).2.cache.lookup t = some issued := by
  unfold cached at h ⊢
  rw [run_getBind] at h ⊢
  split at h
  · rename_i hlookup
    rwa [← Except.ok.inj h]
  · obtain ⟨l, e', -, hrun⟩ := run_bind_of_ok h
    rw [hrun] at h ⊢
    obtain rfl := Except.ok.inj h
    exact List.lookup_cons_self

/-- What an engine answers for a type is on record for it from then on. -/
theorem lookup_layoutOf {t : InterfaceType} {e : LayoutEngine} {issued : IssuedLayout}
    (h : (e.layoutOf t).1 = .ok issued) : (e.layoutOf t).2.cache.lookup t = some issued := by
  cases t <;> exact lookup_cached h

theorem answer_cached {t : InterfaceType} {compute : Query Layout} {e : LayoutEngine}
    {issued : IssuedLayout} (h : e.cache.lookup t = some issued) :
    ((cached t compute).run.run e).1 = .ok issued := by
  unfold cached
  rw [run_getBind, h]
  rfl

/-- An engine answers with what it has on record. -/
theorem layoutOf_of_lookup {t : InterfaceType} {e : LayoutEngine} {issued : IssuedLayout}
    (h : e.cache.lookup t = some issued) : (e.layoutOf t).1 = .ok issued := by
  cases t <;> exact answer_cached h

/-- The engine for a word size behind some queries, whatever their answers were. -/
def after (w : WordSize) (queries : List InterfaceType) : LayoutEngine :=
  queries.foldl (fun e t => (e.layoutOf t).2) { word := w }

theorem faithful_after (w : WordSize) (queries : List InterfaceType) :
    (after w queries).Faithful w := by
  have step : ∀ (ts : List InterfaceType) (e : LayoutEngine), e.Faithful w →
      (ts.foldl (fun e t => (e.layoutOf t).2) e).Faithful w := by
    intro ts
    induction ts with
    | nil => exact fun e he => he
    | cons t ts ih => exact fun e he => ih _ (later_layoutOf he t).1
  exact step queries _ ⟨rfl, fun t issued h => by simp at h⟩

/-- Whatever an engine was asked before, its answer is that of the rule. -/
theorem layoutOf_after (w : WordSize) (queries : List InterfaceType) (t : InterfaceType) :
    ((after w queries).layoutOf t).1.map (·.layout) = t.layoutOf w :=
  answer_layoutOf (faithful_after w queries) t

theorem layoutOf_of_issued {queries : List InterfaceType} {t : InterfaceType}
    {issued : IssuedLayout} (h : ((after w queries).layoutOf t).1 = .ok issued) :
    t.layoutOf w = .ok issued.layout := by
  rw [← layoutOf_after w queries t, h]
  rfl

/-- The engine answers with a layout, whatever it was asked before. -/
def Gives (w : WordSize) (t : InterfaceType) (l : Layout) : Prop :=
  ∀ queries, ((after w queries).layoutOf t).1.map (·.layout) = .ok l

theorem gives_iff {t : InterfaceType} {l : Layout} : Gives w t l ↔ t.layoutOf w = .ok l := by
  simp only [Gives, layoutOf_after, forall_const]

theorem exists_issued_iff {queries : List InterfaceType} {t : InterfaceType} :
    (∃ issued, ((after w queries).layoutOf t).1 = .ok issued) ↔ ∃ l, t.layoutOf w = .ok l := by
  refine ⟨fun ⟨_, h⟩ => ⟨_, layoutOf_of_issued h⟩, fun ⟨l, hl⟩ => ?_⟩
  rw [← layoutOf_after w queries t] at hl
  rcases hr : ((after w queries).layoutOf t).1 with e | issued <;> rw [hr] at hl
  · simp [Except.map] at hl
  · exact ⟨issued, rfl⟩

end Crossing.LayoutEngine
