import Crossing.Proofs.Upholds

/-!
# Schedules come to an end

A computation takes only so many steps, whatever it finds on its way, and so do several together
(`acc_moved`). As long as there is a worker, every choice of a schedule takes one of these steps. So
every endless schedule brings all computations to their ends at some point (`exists_ended`), and if
they uphold a discipline, to the answers that this gives them (`settles_of_upholds`).
-/

namespace Crossing.Steps

variable {σ α ι : Type}

/-- What is left of a computation when it has taken a step. -/
inductive Child : Steps σ α → Steps σ α → Prop where
  | next (change : σ → σ) (next : σ → Steps σ α) (s : σ) : Child (next s) (step change next)

theorem acc_child (x : Steps σ α) : Acc Child x := by
  induction x with
  | done a => exact ⟨_, fun _ h => by cases h⟩
  | step change next ih =>
    refine ⟨_, fun _ h => ?_⟩
    cases h with
    | next _ _ s => exact ih s

/-- What is left of several computations when one of them has taken a step. -/
inductive Moved : List (Steps σ α) → List (Steps σ α) → Prop where
  | here {y x : Steps σ α} {xs : List (Steps σ α)} (child : Child y x) : Moved (y :: xs) (x :: xs)
  | there {x : Steps σ α} {ys xs : List (Steps σ α)} (moved : Moved ys xs) :
      Moved (x :: ys) (x :: xs)

/-- There is no end of steps to several computations only if there is none to one of them. -/
theorem acc_moved (xs : List (Steps σ α)) : Acc Moved xs := by
  induction xs with
  | nil => exact ⟨_, fun _ h => by cases h⟩
  | cons x xs ih =>
    -- A step of the others leaves the first as it is, and a step of the first leaves the others: the
    -- induction on the others stands inside the one on the first.
    induction acc_child x generalizing xs with
    | intro x _ ihx =>
      induction ih with
      | intro xs hxs ihxs =>
        refine ⟨_, fun _ h => ?_⟩
        cases h with
        | here child => exact ihx _ child xs ⟨xs, hxs⟩
        | there moved => exact ihxs _ moved

theorem pending_cons_done (a : α) (xs : List (Steps σ α)) :
    pending (done a :: xs) = pending xs := by
  simp [pending, answer?]

theorem pending_cons_step (change : σ → σ) (next : σ → Steps σ α) (xs : List (Steps σ α)) :
    pending (step change next :: xs) = pending xs + 1 := by
  simp [pending, answer?]

/-- A step is taken wherever there is a computation to take it. -/
theorem moved_advance {xs : List (Steps σ α)} {place : Nat} (h : place < pending xs) (s : σ) :
    Moved (advance place xs s).1 xs := by
  induction xs generalizing place with
  | nil => simp [pending] at h
  | cons x xs ih =>
    cases x with
    | done a =>
      rw [pending_cons_done] at h
      exact .there (ih h)
    | step change next =>
      rw [pending_cons_step] at h
      cases place with
      | zero => exact .here (.next change next s)
      | succ place => exact .there (ih (Nat.lt_of_succ_lt_succ h))

/-- Computations of which none is pending have answers. -/
theorem exists_answers {xs : List (Steps σ α)} (h : pending xs = 0) :
    ∃ answers, xs.mapM answer? = some answers := by
  induction xs with
  | nil => exact ⟨[], rfl⟩
  | cons x xs ih =>
    cases x with
    | done a =>
      obtain ⟨answers, hanswers⟩ := ih (pending_cons_done a xs ▸ h)
      exact ⟨a :: answers, by rw [List.mapM_cons, hanswers]; rfl⟩
    | step change next =>
      rw [pending_cons_step] at h
      exact absurd h (Nat.succ_ne_zero _)

/-- With a worker, an endless schedule brings all computations to their ends. -/
theorem exists_ended {workers : Nat} (hworkers : 0 < workers) (choices : Nat → Nat)
    (xs : List (Steps σ α)) (s : σ) : ∃ n answers,
      (interleave workers ((List.range n).map choices) xs s).1.mapM answer? = some answers := by
  induction acc_moved xs generalizing choices s with
  | intro xs _ ih =>
    by_cases hpending : pending xs = 0
    · exact ⟨0, exists_answers hpending⟩
    · -- Whatever the first choice is, it takes a step; the others are a schedule for what is left.
      have hplace : choices 0 % min workers (pending xs) < pending xs :=
        Nat.lt_of_lt_of_le (Nat.mod_lt _ (by omega)) (Nat.min_le_right _ _)
      obtain ⟨n, hn⟩ := ih _ (moved_advance hplace s) (fun i => choices (i + 1))
        (advance (choices 0 % min workers (pending xs)) xs s).2
      refine ⟨n + 1, ?_⟩
      rw [List.range_succ_eq_map, List.map_cons, List.map_map]
      exact hn

/-- However some computations are interleaved, what ends answers as `Q` says; and with a worker
every endless schedule brings all of them to their ends. -/
def Settles (s : σ) (jobs : List ι) (program : ι → Steps σ α) (Q : ι → α → Prop) : Prop :=
  (∀ workers schedule, List.Forall₂ (fun i x => ∀ a, x.answer? = some a → Q i a) jobs
      (interleave workers schedule (jobs.map program) s).1) ∧
    ∀ workers, 0 < workers → ∀ choices : Nat → Nat, ∃ n answers,
      (interleave workers ((List.range n).map choices) (jobs.map program) s).1.mapM answer?
        = some answers

theorem settles_of_upholds {D : Discipline σ} {s : σ} {jobs : List ι} {program : ι → Steps σ α}
    {R : ι → α → σ → Prop} {Q : ι → α → Prop} (hs : D.Inv s)
    (h : ∀ i ∈ jobs, Upholds D (R i) (program i) s) (hQ : ∀ i ∈ jobs, ∀ a t, R i a t → Q i a) :
    Settles s jobs program Q := by
  refine ⟨fun workers schedule => ?_, fun workers hworkers choices =>
    exists_ended hworkers choices _ _⟩
  have hjobs : List.Forall₂ (fun i x => Upholds D (fun a _ => Q i a) x s) jobs
      (jobs.map program) := by
    rw [List.forall₂_map_right_iff, List.forall₂_same]
    exact fun i hi => (h i hi).mono fun a t _ hr => hQ i hi a t hr
  obtain ⟨hlater, hpool⟩ := forall₂_interleave workers schedule hs hjobs
  refine hpool.imp fun i x hx a ha => ?_
  exact hx.answered (Q := fun a _ => Q i a) hlater.1 ha

end Crossing.Steps
