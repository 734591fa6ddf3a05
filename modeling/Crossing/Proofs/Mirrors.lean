import Crossing.Proofs.Keeps

/-!
# Computations that do the same until a state is off

Two computations may take the same steps as long as none of them leads to a state that is off, and
have nothing to do with each other from there on (`Steps.Mirrors`). If such a state is never left,
a run that ends in another one is a run of both (`Steps.Mirrors.run_eq`). The other lemmas go along
the ways a computation is put together, so that only the places are looked at where the two differ.
-/

namespace Crossing

variable {ε σ α β : Type} {Off : σ → Prop}

namespace Steps

/-- The second computation takes the steps of the first, up to one that leads to a state that is
off. -/
inductive Mirrors (Off : σ → Prop) : Steps σ α → Steps σ α → Prop where
  | done (answer : α) : Mirrors Off (done answer) (done answer)
  | step {change : σ → σ} {next next' : σ → Steps σ α}
      (mirrors : ∀ s, Mirrors Off (next s) (next' s)) :
      Mirrors Off (step change next) (step change next')
  | off {change : σ → σ} {next : σ → Steps σ α} {y : Steps σ α} (leads : ∀ s, Off (change s)) :
      Mirrors Off (step change next) y

namespace Mirrors

variable {x y : Steps σ α}

theorem refl (x : Steps σ α) : Mirrors Off x x := by
  induction x with
  | done a => exact .done a
  | step change next ih => exact .step ih

theorem bind {f g : α → Steps σ β} (h : Mirrors Off x y) (hfg : ∀ a, Mirrors Off (f a) (g a)) :
    Mirrors Off (x >>= f) (y >>= g) := by
  induction h with
  | done a => exact hfg a
  | step _ ih => exact .step ih
  | off leads => exact .off leads

theorem mapM {f g : α → Steps σ β} {xs : List α} (h : ∀ x ∈ xs, Mirrors Off (f x) (g x)) :
    Mirrors Off (xs.mapM f) (xs.mapM g) := by
  induction xs with
  | nil => exact refl _
  | cons x xs ih =>
    rw [List.mapM_cons, List.mapM_cons]
    refine (h x List.mem_cons_self).bind fun y => ?_
    exact (ih fun z hz => h z (.tail _ hz)).bind fun ys => refl _

/-- Where a state that is off is never left, a run that does not end in one is that of both. -/
theorem run_eq {D : Discipline σ} {Q : α → σ → Prop} {s : σ} (h : Mirrors Off x y)
    (hx : Upholds D Q x s) (hs : D.Inv s) (hoff : ∀ s t, D.Later s t → Off s → Off t)
    (hend : ¬ Off (x.run s).2) : y.run s = x.run s := by
  induction h generalizing s with
  | done a => rfl
  | step _ ih =>
    obtain ⟨hstep, hnext⟩ := hx s (.self hs)
    exact ih s hnext hstep.1 hend
  | off leads =>
    obtain ⟨hstep, hnext⟩ := hx s (.self hs)
    exact absurd (hoff _ _ (hnext.run hstep.1).1 (leads s)) hend

end Mirrors

end Steps

/-- As `Steps.Mirrors`, for computations that may fail. -/
def Mirrors (Off : σ → Prop) (x y : ExceptT ε (Steps σ) α) : Prop := Steps.Mirrors Off x.run y.run

namespace Mirrors

theorem refl (x : ExceptT ε (Steps σ) α) : Mirrors Off x x := Steps.Mirrors.refl _

theorem bind {x y : ExceptT ε (Steps σ) α} {f g : α → ExceptT ε (Steps σ) β} (h : Mirrors Off x y)
    (hfg : ∀ a, Mirrors Off (f a) (g a)) : Mirrors Off (x >>= f) (y >>= g) := by
  refine Steps.Mirrors.bind h fun r => ?_
  cases r with
  | error e => exact .refl _
  | ok a => exact hfg a

theorem mapM {f g : α → ExceptT ε (Steps σ) β} {xs : List α}
    (h : ∀ x ∈ xs, Mirrors Off (f x) (g x)) : Mirrors Off (xs.mapM f) (xs.mapM g) := by
  induction xs with
  | nil => exact refl _
  | cons x xs ih =>
    rw [List.mapM_cons, List.mapM_cons]
    refine (h x List.mem_cons_self).bind fun y => ?_
    exact (ih fun z hz => h z (.tail _ hz)).bind fun ys => refl _

end Mirrors

end Crossing
