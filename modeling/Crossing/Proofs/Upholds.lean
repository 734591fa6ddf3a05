import Crossing.Steps
import Mathlib.Data.List.Forall2

/-!
# What computations uphold beside others

A discipline is an invariant of a shared state together with an order in which the state only grows.
A computation upholds a discipline when each of its steps does, at whatever state the others may
have led to by then, as long as they uphold it too (`Steps.Upholds`). What it is then known to have
done lasts. So a single computation may be run to its end (`Upholds.run`), and several may be
interleaved by any schedule (`forall₂_interleave`).
-/

namespace Crossing

/-- What every step has to respect: an invariant, and the direction in which a state may go. -/
structure Discipline (σ : Type) where
  Inv : σ → Prop
  Grows : σ → σ → Prop
  refl : ∀ s, Grows s s
  trans : ∀ {s t u}, Grows s t → Grows t u → Grows s u

namespace Discipline

variable {σ : Type} {D : Discipline σ} {s t u : σ}

/-- The state `t` may come of `s` by steps that respect the discipline. -/
def Later (D : Discipline σ) (s t : σ) : Prop := D.Inv t ∧ D.Grows s t

theorem Later.self (h : D.Inv s) : D.Later s s := ⟨h, D.refl s⟩

theorem Later.trans (h : D.Later s t) (h' : D.Later t u) : D.Later s u :=
  ⟨h'.1, D.trans h.2 h'.2⟩

/-- Nothing but an invariant. -/
def ofInv (I : σ → Prop) : Discipline σ := ⟨I, fun _ _ => True, fun _ => trivial, fun _ _ => trivial⟩

/-- Both disciplines at once. -/
def and (D E : Discipline σ) : Discipline σ where
  Inv s := D.Inv s ∧ E.Inv s
  Grows s t := D.Grows s t ∧ E.Grows s t
  refl s := ⟨D.refl s, E.refl s⟩
  trans h h' := ⟨D.trans h.1 h'.1, E.trans h.2 h'.2⟩

theorem later_and {E : Discipline σ} : (D.and E).Later s t ↔ D.Later s t ∧ E.Later s t :=
  and_and_and_comm

end Discipline

namespace Steps

variable {σ τ α β ι : Type} {D : Discipline σ} {Q R : α → σ → Prop} {x : Steps σ α} {s t : σ}

/-- Every step from `s` on respects the discipline if it begins later than the one before it ended,
and the answer is as `Q` says from then on. -/
def Upholds (D : Discipline σ) (Q : α → σ → Prop) : Steps σ α → σ → Prop
  | done a, s => ∀ t, D.Later s t → Q a t
  | step change next, s =>
    ∀ t, D.Later s t → D.Later t (change t) ∧ Upholds D Q (next t) (change t)

namespace Upholds

theorem later (h : Upholds D Q x s) (hst : D.Later s t) : Upholds D Q x t := by
  cases x with
  | done a => exact fun u hu => h u (hst.trans hu)
  | step change next => exact fun u hu => h u (hst.trans hu)

theorem of_later (h : ∀ t, D.Later s t → Upholds D Q x t) : Upholds D Q x s := by
  cases x with
  | done a => exact fun t ht => h t ht t (.self ht.1)
  | step change next => exact fun t ht => h t ht t (.self ht.1)

theorem mono (h : Upholds D Q x s) (hQ : ∀ a t, D.Later s t → Q a t → R a t) :
    Upholds D R x s := by
  induction x generalizing s with
  | done a => exact fun t ht => hQ a t ht (h t ht)
  | step change next ih =>
    intro t ht
    obtain ⟨hstep, hnext⟩ := h t ht
    exact ⟨hstep, ih t hnext fun a u hu => hQ a u (ht.trans (hstep.trans hu))⟩

/-- What an answer is known to be when it comes, it stays. -/
theorem lasting (h : Upholds D Q x s) :
    Upholds D (fun a t => ∀ u, D.Later t u → Q a u) x s := by
  induction x generalizing s with
  | done a => exact fun t ht u hu => h u (ht.trans hu)
  | step change next ih => exact fun t ht => ⟨(h t ht).1, ih t (h t ht).2⟩

/-- Two disciplines that are upheld together make a third. -/
theorem both {E F : Discipline σ} (hD : ∀ s t, F.Later s t → D.Later s t)
    (hE : ∀ s t, F.Later s t → E.Later s t)
    (hF : ∀ s t, D.Later s t → E.Later s t → F.Later s t) (h : Upholds D Q x s)
    (h' : Upholds E R x s) : Upholds F (fun a t => Q a t ∧ R a t) x s := by
  induction x generalizing s with
  | done a => exact fun t ht => ⟨h t (hD s t ht), h' t (hE s t ht)⟩
  | step change next ih =>
    intro t ht
    obtain ⟨hstep, hnext⟩ := h t (hD s t ht)
    obtain ⟨hstep', hnext'⟩ := h' t (hE s t ht)
    exact ⟨hF t _ hstep hstep', ih t hnext hnext'⟩

theorem bind {f : α → Steps σ β} {R : β → σ → Prop} (hx : Upholds D Q x s)
    (hf : ∀ a t, D.Later s t → Q a t → Upholds D R (f a) t) : Upholds D R (x >>= f) s := by
  induction x generalizing s with
  | done a => exact of_later (x := f a) fun t ht => hf a t ht (hx t ht)
  | step change next ih =>
    intro t ht
    obtain ⟨hstep, hnext⟩ := hx t ht
    exact ⟨hstep, ih t hnext fun a u hu => hf a u (ht.trans (hstep.trans hu))⟩

/-- A computation on a part of the state upholds what the part asks for. -/
theorem within {E : Discipline τ} {part : σ → τ} {replace : σ → τ → σ} {Q : α → τ → Prop}
    {x : Steps τ α} (hpart : ∀ s t, D.Later s t → E.Later (part s) (part t))
    (hreplace : ∀ s t, D.Inv s → E.Later (part s) t → D.Later s (replace s t))
    (hget : ∀ s t, part (replace s t) = t) (h : Upholds E Q x (part s)) :
    Upholds D (fun a s => Q a (part s)) (x.within part replace) s := by
  induction x generalizing s with
  | done a => exact fun t ht => h (part t) (hpart s t ht)
  | step change next ih =>
    intro t ht
    obtain ⟨hstep, hnext⟩ := h (part t) (hpart s t ht)
    refine ⟨hreplace t _ ht.1 hstep, ih (part t) ?_⟩
    rwa [hget]

theorem answered {a : α} (h : Upholds D Q x s) (hs : D.Inv s) (ha : x.answer? = some a) :
    Q a s := by
  cases x with
  | step change next => cases ha
  | done b => exact Option.some.inj ha ▸ h s (.self hs)

/-- A computation that nobody disturbs. -/
theorem run (h : Upholds D Q x s) (hs : D.Inv s) :
    D.Later s (x.run s).2 ∧ Q (x.run s).1 (x.run s).2 := by
  induction x generalizing s with
  | done a => exact ⟨.self hs, h s (.self hs)⟩
  | step change next ih =>
    obtain ⟨hstep, hnext⟩ := h s (.self hs)
    obtain ⟨hlater, hanswer⟩ := ih s hnext hstep.1
    exact ⟨hstep.trans hlater, hanswer⟩

end Upholds

section Pool

variable {Q : ι → α → σ → Prop} {jobs : List ι} {xs : List (Steps σ α)}

/-- A step of one computation is later for all of them. -/
theorem forall₂_advance (hs : D.Inv s)
    (h : List.Forall₂ (fun i x => Upholds D (Q i) x s) jobs xs) (place : Nat) :
    D.Later s (advance place xs s).2 ∧
      List.Forall₂ (fun i x => Upholds D (Q i) x (advance place xs s).2) jobs
        (advance place xs s).1 := by
  induction h generalizing place with
  | nil => exact ⟨.self hs, .nil⟩
  | @cons i x jobs xs hx hxs ih =>
    cases x with
    | done a =>
      obtain ⟨hlater, hrest⟩ := ih place
      exact ⟨hlater, .cons (hx.later hlater) hrest⟩
    | step change next =>
      cases place with
      | zero =>
        obtain ⟨hlater, hnext⟩ := hx s (.self hs)
        exact ⟨hlater, .cons hnext (hxs.imp fun _ _ hx => hx.later hlater)⟩
      | succ place =>
        obtain ⟨hlater, hrest⟩ := ih place
        exact ⟨hlater, .cons (hx.later hlater) hrest⟩

/-- Whatever the schedule is, computations that uphold a discipline each do so beside the others. -/
theorem forall₂_interleave (workers : Nat) (schedule : List Nat) (hs : D.Inv s)
    (h : List.Forall₂ (fun i x => Upholds D (Q i) x s) jobs xs) :
    D.Later s (interleave workers schedule xs s).2 ∧
      List.Forall₂ (fun i x => Upholds D (Q i) x (interleave workers schedule xs s).2) jobs
        (interleave workers schedule xs s).1 := by
  induction schedule generalizing xs s with
  | nil => exact ⟨.self hs, h⟩
  | cons choice schedule ih =>
    obtain ⟨hstep, hxs⟩ := forall₂_advance hs h (choice % min workers (pending xs))
    obtain ⟨hrest, hall⟩ := ih hstep.1 hxs
    exact ⟨hstep.trans hrest, hall⟩

/-- The answers of computations that have all ended. -/
theorem forall₂_answers (hs : D.Inv s)
    (h : List.Forall₂ (fun i x => Upholds D (Q i) x s) jobs xs) {answers : List α}
    (hanswers : xs.mapM answer? = some answers) :
    List.Forall₂ (fun i a => Q i a s) jobs answers := by
  induction h generalizing answers with
  | nil =>
    obtain rfl : [] = answers := by simpa using hanswers
    exact .nil
  | @cons i x jobs xs hx _ ih =>
    rw [List.mapM_cons] at hanswers
    obtain ⟨a, ha, hanswers⟩ := Option.bind_eq_some_iff.1 hanswers
    obtain ⟨rest, hrest, hanswers⟩ := Option.bind_eq_some_iff.1 hanswers
    obtain rfl : a :: rest = answers := Option.some.inj hanswers
    exact .cons (hx.answered hs ha) (ih hrest)

end Pool

end Steps

end Crossing
