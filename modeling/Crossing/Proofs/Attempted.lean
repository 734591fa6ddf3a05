import Crossing.Proofs.Keeps

/-!
# How far a loop comes

A loop that stops at the first failure comes to an element when all the elements before it were
answered (`attempted_iff`). What happens in such a loop happens at the elements it comes to, and
each of them begins behind the answers of those before it (`Ensures.mapM_attempted`).
-/

namespace Crossing

variable {ε σ α β : Type}

/-- A loop that goes on from an element only where `P` holds of it comes to `x`. -/
inductive Attempted (P : α → Prop) : List α → α → Prop where
  | head {x : α} {xs : List α} : Attempted P (x :: xs) x
  | tail {x y : α} {xs : List α} (earlier : P y) (rest : Attempted P xs x) : Attempted P (y :: xs) x

namespace Attempted

variable {P : α → Prop} {x y : α} {xs ys : List α}

theorem mem (h : Attempted P xs x) : x ∈ xs := by
  induction h with
  | head => exact List.mem_cons_self
  | tail _ _ ih => exact List.mem_cons_of_mem _ ih

@[simp]
theorem not_nil : ¬ Attempted P [] x := nofun

@[simp]
theorem cons_iff : Attempted P (y :: ys) x ↔ x = y ∨ P y ∧ Attempted P ys x := by
  refine ⟨?_, ?_⟩
  · rintro (_ | ⟨hy, h⟩)
    · exact .inl rfl
    · exact .inr ⟨hy, h⟩
  · rintro (rfl | ⟨hy, h⟩)
    · exact .head
    · exact .tail hy h

theorem append_iff : Attempted P (xs ++ ys) x ↔
    Attempted P xs x ∨ (∀ y ∈ xs, P y) ∧ Attempted P ys x := by
  induction xs with
  | nil => simp
  | cons y xs ih =>
    rw [List.cons_append, cons_iff, cons_iff, ih, List.forall_mem_cons]
    tauto

/-- A loop that never stops comes to every element. -/
theorem of_mem (h : ∀ y ∈ xs, P y) (hx : x ∈ xs) : Attempted P xs x := by
  induction xs with
  | nil => simp at hx
  | cons y xs ih =>
    rcases List.mem_cons.1 hx with rfl | hx
    · exact .head
    · exact .tail (h y List.mem_cons_self) (ih (fun z hz => h z (.tail _ hz)) hx)

end Attempted

/-- The elements that a loop comes to are those behind nothing but answers. -/
theorem attempted_iff {P : α → Prop} {xs : List α} {x : α} :
    Attempted P xs x ↔ ∃ before after, xs = before ++ x :: after ∧ ∀ y ∈ before, P y := by
  refine ⟨fun h => ?_, ?_⟩
  · induction h with
    | @head x xs => exact ⟨[], xs, rfl, List.forall_mem_nil _⟩
    | @tail x y xs hy _ ih =>
      obtain ⟨before, after, rfl, hbefore⟩ := ih
      exact ⟨y :: before, after, rfl, List.forall_mem_cons.2 ⟨hy, hbefore⟩⟩
  · rintro ⟨before, after, rfl, hbefore⟩
    exact Attempted.append_iff.2 (.inr ⟨hbefore, .head⟩)

/-- What holds from each element on that a loop comes to holds when the loop ends, also where it
fails. -/
theorem Ensures.mapM_attempted {D : Discipline σ} {s : σ} {f : α → ExceptT ε (Steps σ) β}
    {P : α → Prop} {T : α → σ → Prop} {xs : List α}
    (h : ∀ x, Attempted P xs x → ∀ t, D.Later s t →
      Ensures D t (f x) fun r u => ((∃ y, r = .ok y) ↔ P x) ∧ T x u) :
    Ensures D s (xs.mapM f) fun _ u => ∀ x, Attempted P xs x → T x u := by
  induction xs generalizing s with
  | nil =>
    rw [List.mapM_nil]
    exact pure fun _ _ _ hx => absurd hx Attempted.not_nil
  | cons x xs ih =>
    rw [List.mapM_cons]
    refine bind (Steps.Upholds.lasting (of_later (h x .head))) (fun e t ht he => ?_)
      fun y t ht hy => ?_
    · obtain ⟨hanswered, hdone⟩ := he t (.self ht.1)
      have hfailed : ¬ P x := fun hx => by simpa using hanswered.2 hx
      intro z hz
      rcases Attempted.cons_iff.1 hz with rfl | ⟨hx, -⟩
      · exact hdone
      · exact absurd hx hfailed
    · have hx : P x := (hy t (.self ht.1)).1.1 ⟨y, rfl⟩
      have hrest := ih (s := t) fun z hz u hu => h z (.tail hx hz) u (ht.trans hu)
      have hall : ∀ u, D.Later t u → (∀ z, Attempted P xs z → T z u) →
          ∀ z, Attempted P (x :: xs) z → T z u := by
        intro u hu hdone z hz
        rcases Attempted.cons_iff.1 hz with rfl | ⟨-, hz⟩
        · exact (hy u hu).2
        · exact hdone z hz
      refine bind (Steps.Upholds.lasting hrest) (fun e u hu he => hall u hu (he u (.self hu.1)))
        fun ys u hu hys => pure fun v hv => hall v (hu.trans hv) (hys v hv)

end Crossing
