/-!
# Computations in steps

A computation on a state that others use too: it ends with an answer, or it changes the state in one
step and goes on by what it found there. What happens in one step is not disturbed; between two
steps anything may happen to the state. A single computation is run to its end; several are
interleaved, step by step, as a schedule says.
-/

namespace Crossing

/-- A computation on a state. What comes after a step depends on the state before it. -/
inductive Steps (σ α : Type) where
  | done (answer : α)
  | step (change : σ → σ) (next : σ → Steps σ α)

namespace Steps

variable {σ τ α β : Type}

/-- Runs a computation to its end. -/
def run : Steps σ α → σ → α × σ
  | done a, s => (a, s)
  | step change next, s => run (next s) (change s)

protected def bind : Steps σ α → (α → Steps σ β) → Steps σ β
  | done a, f => f a
  | step change next, f => step change fun s => (next s).bind f

instance : Monad (Steps σ) where
  pure := done
  bind := Steps.bind

instance : LawfulMonad (Steps σ) :=
  LawfulMonad.mk' (Steps σ)
    (fun x => by
      induction x with
      | done a => rfl
      | step change next ih => exact congrArg (step change) (funext ih))
    (fun _ _ => rfl)
    (fun x f g => by
      induction x with
      | done a => rfl
      | step change next ih => exact congrArg (step change) (funext ih))

instance : MonadStateOf σ (Steps σ) where
  get := step id done
  set s := step (fun _ => s) fun _ => done ()
  modifyGet f := step (fun s => (f s).2) fun s => done (f s).1

/-- A computation on a part of a state. -/
def within (part : σ → τ) (replace : σ → τ → σ) : Steps τ α → Steps σ α
  | done a => done a
  | step change next =>
    step (fun s => replace s (change (part s))) fun s => within part replace (next (part s))

/-- The answer of a computation that has ended. -/
def answer? : Steps σ α → Option α
  | done a => some a
  | step .. => none

/-- Takes a step of the computation at a place among those that have not ended. -/
def advance : Nat → List (Steps σ α) → σ → List (Steps σ α) × σ
  | _, [], s => ([], s)
  | place, done a :: xs, s => let (xs, s) := advance place xs s; (done a :: xs, s)
  | 0, step change next :: xs, s => (next s :: xs, change s)
  | place + 1, x :: xs, s => let (xs, s) := advance place xs s; (x :: xs, s)

/-- How many computations have not ended. -/
def pending (xs : List (Steps σ α)) : Nat := xs.countP fun x => x.answer?.isNone

/-- Interleaves computations. The first of them that have not ended, as many as there are workers,
are under way; each choice of the schedule takes a step of one of these. -/
def interleave (workers : Nat) : List Nat → List (Steps σ α) → σ → List (Steps σ α) × σ
  | [], xs, s => (xs, s)
  | choice :: schedule, xs, s =>
    let (xs, s) := advance (choice % min workers (pending xs)) xs s
    interleave workers schedule xs s

end Steps

end Crossing
