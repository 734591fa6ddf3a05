import Crossing.Proofs.Keeps

/-!
# Computations that part when one of them is lost

A computation is lost when it can only answer badly any more. Another one may take the same steps
until then and go any way from there on (`Steps.Follows`). So an answer of the first that is not bad
is that of both, whether each runs by itself (`Steps.Follows.run_eq`) or several are interleaved by
one schedule (`Steps.interleave_eq`). The other lemmas go along the ways a computation is put
together.
-/

namespace Crossing

variable {ε σ τ α β : Type} {Bad : α → Prop} {Bad' : β → Prop}

namespace Steps

/-- Whatever happens to the state meanwhile, the answer is a bad one. -/
def Lost (Bad : α → Prop) (x : Steps σ α) : Prop :=
  ∀ s, x.Upholds (.ofInv fun _ => True) (fun a _ => Bad a) s

/-- The second computation takes the steps of the first, until that is lost. -/
inductive Follows (Bad : α → Prop) : Steps σ α → Steps σ α → Prop where
  | done (answer : α) : Follows Bad (done answer) (done answer)
  | step {change : σ → σ} {next next' : σ → Steps σ α}
      (follows : ∀ s, Follows Bad (next s) (next' s)) :
      Follows Bad (step change next) (step change next')
  | lost {x y : Steps σ α} (lost : x.Lost Bad) : Follows Bad x y

theorem Lost.run {x : Steps σ α} (h : x.Lost Bad) (s : σ) : Bad (x.run s).1 :=
  ((h s).run trivial).2

theorem Lost.bind {x : Steps σ α} {f : α → Steps σ β} (h : x.Lost Bad)
    (hf : ∀ a, Bad a → (f a).Lost Bad') : (x >>= f).Lost Bad' :=
  fun s => (h s).bind fun a t _ ha => hf a ha t

/-- Nothing is asked of a computation that may do as it likes. -/
theorem upholds_anyway (x : Steps σ α) (s : σ) :
    x.Upholds (.ofInv fun _ => True) (fun _ _ => True) s := by
  induction x generalizing s with
  | done a => exact fun _ _ => trivial
  | step change next ih => exact fun t _ => ⟨⟨trivial, trivial⟩, ih t _⟩

namespace Follows

variable {x y : Steps σ α}

theorem refl (x : Steps σ α) : Follows Bad x x := by
  induction x with
  | done a => exact .done a
  | step change next ih => exact .step ih

theorem bind {f g : α → Steps σ β} (h : Follows Bad x y) (hbad : ∀ a, Bad a → (f a).Lost Bad')
    (hfg : ∀ a, Follows Bad' (f a) (g a)) : Follows Bad' (x >>= f) (y >>= g) := by
  induction h with
  | done a => exact hfg a
  | step _ ih => exact .step ih
  | lost lost => exact .lost (lost.bind hbad)

theorem within {part : σ → τ} {replace : σ → τ → σ} {x y : Steps τ α} (h : Follows Bad x y)
    (hget : ∀ s t, part (replace s t) = t) :
    Follows Bad (x.within part replace) (y.within part replace) := by
  induction h with
  | done a => exact .done a
  | step _ ih => exact .step fun s => ih _
  | lost lost =>
    exact .lost fun s => Upholds.within (fun _ _ _ => ⟨trivial, trivial⟩)
      (fun _ _ _ _ => ⟨trivial, trivial⟩) hget (lost (part s))

/-- An answer that is not bad is that of both, as is what both leave behind. -/
theorem run_eq (h : Follows Bad x y) {s : σ} (hgood : ¬ Bad (x.run s).1) : y.run s = x.run s := by
  induction h generalizing s with
  | done a => rfl
  | step _ ih => exact ih s hgood
  | lost lost => exact absurd (lost.run s) hgood

end Follows

section Pool

variable {xs ys : List (Steps σ α)} {answers : List α} {s : σ}

/-- Of several computations none is lost that all end well. -/
theorem not_lost_of_answers {workers : Nat} {schedule : List Nat}
    (hanswers : (interleave workers schedule xs s).1.mapM answer? = some answers)
    (hgood : ∀ a ∈ answers, ¬ Bad a) : ∀ x ∈ xs, ¬ x.Lost Bad := by
  intro x hx hlost
  have hpool : List.Forall₂ (fun x' x => x.Upholds (.ofInv fun _ => True)
      (fun a _ => x'.Lost Bad → Bad a) s) xs xs := by
    refine List.forall₂_same.2 fun x _ => ?_
    by_cases h : x.Lost Bad
    · exact (h s).mono fun _ _ _ ha _ => ha
    · exact (upholds_anyway x s).mono fun _ _ _ _ h' => absurd h' h
  have hended := forall₂_answers trivial
    (forall₂_interleave workers schedule trivial hpool).2 hanswers
  obtain ⟨made, rfl, rfl, hmade⟩ := exists_of_forall₂ hended
  obtain ⟨p, hp, rfl⟩ := List.mem_map.1 hx
  exact hgood p.2 (List.mem_map_of_mem hp) (hmade p hp hlost)

/-- While none is lost, computations and those that follow them are equally far. -/
theorem pending_eq (h : List.Forall₂ (Follows Bad) xs ys) (hgood : ∀ x ∈ xs, ¬ x.Lost Bad) :
    pending ys = pending xs := by
  induction h with
  | nil => rfl
  | @cons x y xs ys hxy _ ih =>
    have hrest := ih fun z hz => hgood z (.tail _ hz)
    unfold pending at hrest ⊢
    rw [List.countP_cons, List.countP_cons, hrest]
    cases hxy with
    | done | step => rfl
    | lost lost => exact absurd lost (hgood x List.mem_cons_self)

/-- While none is lost, a step of one of them is a step of the one that follows it. -/
theorem follows_advance (h : List.Forall₂ (Follows Bad) xs ys) (hgood : ∀ x ∈ xs, ¬ x.Lost Bad)
    (place : Nat) (s : σ) : (advance place ys s).2 = (advance place xs s).2 ∧
      List.Forall₂ (Follows Bad) (advance place xs s).1 (advance place ys s).1 := by
  induction h generalizing place with
  | nil => exact ⟨rfl, .nil⟩
  | @cons x y xs ys hxy hxys ih =>
    have hrest := ih fun z hz => hgood z (.tail _ hz)
    cases hxy with
    | done a => exact ⟨(hrest place).1, .cons (.done a) (hrest place).2⟩
    | step follows =>
      cases place with
      | zero => exact ⟨rfl, .cons (follows s) hxys⟩
      | succ place => exact ⟨(hrest place).1, .cons (.step follows) (hrest place).2⟩
    | lost lost => exact absurd lost (hgood x List.mem_cons_self)

/-- What follows computations that have ended is those computations. -/
theorem eq_of_answers (h : List.Forall₂ (Follows Bad) xs ys)
    (hanswers : xs.mapM answer? = some answers) (hgood : ∀ x ∈ xs, ¬ x.Lost Bad) : ys = xs := by
  induction h generalizing answers with
  | nil => rfl
  | @cons x y xs ys hxy _ ih =>
    rw [List.mapM_cons] at hanswers
    obtain ⟨a, ha, hanswers⟩ := Option.bind_eq_some_iff.1 hanswers
    obtain ⟨rest, hrest, -⟩ := Option.bind_eq_some_iff.1 hanswers
    rw [ih hrest fun z hz => hgood z (.tail _ hz)]
    cases hxy with
    | done => rfl
    | step => cases ha
    | lost lost => exact absurd lost (hgood x List.mem_cons_self)

/-- Interleaved by one schedule, computations that all end well and those that follow them come to
the same. -/
theorem interleave_eq (workers : Nat) (schedule : List Nat) (h : List.Forall₂ (Follows Bad) xs ys)
    (hanswers : (interleave workers schedule xs s).1.mapM answer? = some answers)
    (hgood : ∀ a ∈ answers, ¬ Bad a) :
    interleave workers schedule ys s = interleave workers schedule xs s := by
  have hlost := not_lost_of_answers hanswers hgood
  induction schedule generalizing xs ys s with
  | nil =>
    rw [interleave] at hanswers ⊢
    rw [interleave, eq_of_answers h hanswers hlost]
  | cons choice schedule ih =>
    have hcons : ∀ zs : List (Steps σ α), interleave workers (choice :: schedule) zs s =
        interleave workers schedule (advance (choice % min workers (pending zs)) zs s).1
          (advance (choice % min workers (pending zs)) zs s).2 := fun _ => rfl
    obtain ⟨hstate, hfollows⟩ :=
      follows_advance h hlost (choice % min workers (pending xs)) s
    rw [hcons] at hanswers
    rw [hcons, hcons, pending_eq h hlost, hstate]
    exact ih hfollows hanswers (not_lost_of_answers hanswers hgood)

end Pool

end Steps

/-- As `Steps.Follows`, for computations that may fail. -/
def Follows (Bad : Except ε α → Prop) (x y : ExceptT ε (Steps σ) α) : Prop :=
  Steps.Follows Bad x.run y.run

namespace Follows

variable {Bad : Except ε α → Prop} {Bad' : Except ε β → Prop} {x y : ExceptT ε (Steps σ) α}

theorem refl (x : ExceptT ε (Steps σ) α) : Follows Bad x x := Steps.Follows.refl _

theorem lost (h : Keeps (fun _ => True) x Bad) : Follows Bad x y := Steps.Follows.lost h

theorem bind {f g : α → ExceptT ε (Steps σ) β} (h : Follows Bad x y) (he : ∀ e, Bad' (.error e))
    (hbad : ∀ a, Bad (.ok a) → Keeps (fun _ => True) (f a) Bad')
    (hfg : ∀ a, Follows Bad' (f a) (g a)) : Follows Bad' (x >>= f) (y >>= g) := by
  refine Steps.Follows.bind h (fun r hr => ?_) fun r => ?_
  · cases r with
    | error e => exact fun _ => Ensures.throw fun _ _ => he e
    | ok a => exact hbad a hr
  · cases r with
    | error e => exact .refl _
    | ok a => exact hfg a

/-- What begins alike and goes on alike. -/
theorem bindSame {f g : α → ExceptT ε (Steps σ) β} (hfg : ∀ a, Follows Bad' (f a) (g a)) :
    Follows Bad' (x >>= f) (x >>= g) := by
  have hx : Steps.Follows (fun _ => False) x.run x.run := .refl _
  refine Steps.Follows.bind hx (fun _ => False.elim) fun r => ?_
  cases r with
  | error e => exact .refl _
  | ok a => exact hfg a

/-- A loop is lost with any round of it. -/
theorem mapM {f g : α → ExceptT ε (Steps σ) β} {xs : List α}
    (h : ∀ x ∈ xs, Follows Bad' (f x) (g x)) :
    Follows (fun r => ∀ ys, r = .ok ys → ∃ y ∈ ys, Bad' (.ok y)) (xs.mapM f) (xs.mapM g) := by
  induction xs with
  | nil => exact refl _
  | cons x xs ih =>
    have hrest := ih fun z hz => h z (.tail _ hz)
    rw [List.mapM_cons, List.mapM_cons]
    refine (h x List.mem_cons_self).bind (by simp) (fun y hy s => ?_) fun y => ?_
    · refine (Keeps.anyway (xs.mapM f) s).bindPure fun r _ _ _ zs hzs => ?_
      cases r with
      | error e => cases hzs
      | ok ys => exact ⟨y, Except.ok.inj hzs ▸ List.mem_cons_self, hy⟩
    · refine hrest.bind (by simp) (fun ys hys => Keeps.pure ?_) fun ys => refl _
      rintro _ ⟨⟩
      obtain ⟨z, hz, hbad⟩ := hys ys rfl
      exact ⟨z, .tail _ hz, hbad⟩

/-- A loop over the elements of a list together with the proofs that they are in it. -/
theorem attachMapM {xs : List α} {f g : {x // x ∈ xs} → ExceptT ε (Steps σ) β}
    (h : ∀ x (hx : x ∈ xs), Follows Bad' (f ⟨x, hx⟩) (g ⟨x, hx⟩)) :
    Follows (fun r => ∀ ys, r = .ok ys → ∃ y ∈ ys, Bad' (.ok y)) (xs.attach.mapM f)
      (xs.attach.mapM g) :=
  mapM fun x _ => h x.1 x.2

end Follows

end Crossing
