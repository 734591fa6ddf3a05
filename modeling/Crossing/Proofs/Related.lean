import Mathlib.Data.List.Forall2

/-!
# Related options and lists

Options are related when both hold nothing or both hold something and these are related
(`Option.Rel`), and lists are related member by member (`List.Forall₂`). What is looked up in
related lists alike is related.
-/

namespace Crossing.Related

variable {α α' β β' : Type} {R : α → α' → Prop} {S : β → β' → Prop}

section Options

variable {a : Option α} {a' : Option α'}

theorem isSome_eq (h : Option.Rel R a a') : a.isSome = a'.isSome := by
  cases h <;> rfl

theorem refl (a : Option α) : Option.Rel Eq a a := by
  cases a with
  | none => exact .none
  | some x => exact .some rfl

theorem getD (h : Option.Rel R a a') {x : α} {x' : α'} (hx : R x x') :
    R (a.getD x) (a'.getD x') := by
  cases h with
  | none => exact hx
  | some hy => exact hy

theorem map {f : α → β} {f' : α' → β'} (hf : ∀ x x', R x x' → S (f x) (f' x'))
    (h : Option.Rel R a a') : Option.Rel S (a.map f) (a'.map f') := by
  cases h with
  | none => exact .none
  | some hx => exact .some (hf _ _ hx)

theorem bind {f : α → Option β} {f' : α' → Option β'}
    (hf : ∀ x x', R x x' → Option.Rel S (f x) (f' x')) (h : Option.Rel R a a') :
    Option.Rel S (a.bind f) (a'.bind f') := by
  cases h with
  | none => exact .none
  | some hx => exact hf _ _ hx

/-- What is related and has equal images is both at once. -/
theorem and_eq {γ : Type} {f : α → γ} {f' : α' → γ} (h : Option.Rel R a a')
    (hf : a.map f = a'.map f') : Option.Rel (fun x x' => R x x' ∧ f x = f' x') a a' := by
  cases h with
  | none => exact .none
  | some hx => exact .some ⟨hx, Option.some.inj hf⟩

theorem or {b : Option α} {b' : Option α'} (ha : Option.Rel R a a') (hb : Option.Rel R b b') :
    Option.Rel R (a.or b) (a'.or b') := by
  cases ha with
  | none => exact hb
  | some hx => exact .some hx

theorem ite {c c' : Prop} [Decidable c] [Decidable c'] (hc : c ↔ c') {x : α} {x' : α'}
    (hx : R x x') :
    Option.Rel R (if c then some x else none) (if c' then some x' else none) := by
  simp only [hc]
  split
  · exact .some hx
  · exact .none

end Options

section Lists

variable {xs : List α} {xs' : List α'}

theorem isEmpty_eq (h : List.Forall₂ R xs xs') : xs.isEmpty = xs'.isEmpty := by
  cases h <;> rfl

theorem find? {p : α → Bool} {p' : α' → Bool} (hp : ∀ x x', R x x' → p x = p' x')
    (h : List.Forall₂ R xs xs') : Option.Rel R (xs.find? p) (xs'.find? p') := by
  induction h with
  | nil => exact .none
  | cons hx _ ih =>
    rw [List.find?_cons, List.find?_cons, hp _ _ hx]
    split
    · exact .some hx
    · exact ih

theorem findSome? {γ : Type} {l : List γ} {f : γ → Option α} {f' : γ → Option α'}
    (h : ∀ x ∈ l, Option.Rel R (f x) (f' x)) : Option.Rel R (l.findSome? f) (l.findSome? f') := by
  induction l with
  | nil => exact .none
  | cons x l ih =>
    have hx := h x List.mem_cons_self
    rw [List.findSome?_cons, List.findSome?_cons]
    generalize f x = y, f' x = y' at hx
    cases hx with
    | none => exact ih fun z hz => h z (.tail _ hz)
    | some hy => exact .some hy

theorem head? (h : List.Forall₂ R xs xs') : Option.Rel R xs.head? xs'.head? := by
  cases h with
  | nil => exact .none
  | cons hx _ => exact .some hx

theorem getLast? (h : List.Forall₂ R xs xs') : Option.Rel R xs.getLast? xs'.getLast? := by
  rw [List.getLast?_eq_head?_reverse, List.getLast?_eq_head?_reverse]
  exact head? (List.rel_reverse h)

theorem filter_list (p : α → Bool) (p' : α' → Bool) (hp : ∀ x x', R x x' → p x = p' x')
    (h : List.Forall₂ R xs xs') : List.Forall₂ R (xs.filter p) (xs'.filter p') := by
  induction h with
  | nil => exact .nil
  | cons hx _ ih =>
    rw [List.filter_cons, List.filter_cons, hp _ _ hx]
    split
    · exact .cons hx ih
    · exact ih

theorem map_eq {f : α → β} {f' : α' → β} (hf : ∀ x x', R x x' → f x = f' x')
    (h : List.Forall₂ R xs xs') : xs.map f = xs'.map f' := by
  induction h with
  | nil => rfl
  | cons hx _ ih => rw [List.map_cons, List.map_cons, hf _ _ hx, ih]

theorem map_list {f : α → β} {f' : α' → β'} (hf : ∀ x x', R x x' → S (f x) (f' x'))
    (h : List.Forall₂ R xs xs') : List.Forall₂ S (xs.map f) (xs'.map f') :=
  List.forall₂_map_left_iff.2 (List.forall₂_map_right_iff.2 (h.imp hf))

theorem any_eq {p : α → Bool} {p' : α' → Bool} (hp : ∀ x x', R x x' → p x = p' x')
    (h : List.Forall₂ R xs xs') : xs.any p = xs'.any p' := by
  induction h with
  | nil => rfl
  | cons hx _ ih => rw [List.any_cons, List.any_cons, hp _ _ hx, ih]

theorem flatMap_eq {f : α → List β} {f' : α' → List β} (hf : ∀ x x', R x x' → f x = f' x')
    (h : List.Forall₂ R xs xs') : xs.flatMap f = xs'.flatMap f' := by
  induction h with
  | nil => rfl
  | cons hx _ ih => rw [List.flatMap_cons, List.flatMap_cons, hf _ _ hx, ih]

theorem flatMap {f : α → List β} {f' : α' → List β'}
    (hf : ∀ x x', R x x' → List.Forall₂ S (f x) (f' x')) (h : List.Forall₂ R xs xs') :
    List.Forall₂ S (xs.flatMap f) (xs'.flatMap f') :=
  List.rel_flatMap h fun _ _ hx => hf _ _ hx

theorem compose {γ : Type} {zs : List γ} {S : α → γ → Prop} {T : α' → γ → Prop}
    (hcompose : ∀ x x' z, R x x' → S x z → T x' z) (hR : List.Forall₂ R xs xs')
    (hS : List.Forall₂ S xs zs) : List.Forall₂ T xs' zs := by
  induction hR generalizing zs with
  | nil =>
    cases hS
    exact .nil
  | cons hx _ ih =>
    cases hS with
    | cons hz hzs => exact .cons (hcompose _ _ _ hx hz) (ih hzs)

theorem exists_of_mem (h : List.Forall₂ R xs xs') {x : α} (hx : x ∈ xs) : ∃ x' ∈ xs', R x x' := by
  induction h with
  | nil => simp at hx
  | cons hy _ ih =>
    rcases List.mem_cons.1 hx with rfl | hx
    · exact ⟨_, List.mem_cons_self, hy⟩
    · obtain ⟨x', hx', hxx'⟩ := ih hx
      exact ⟨x', .tail _ hx', hxx'⟩

end Lists

end Crossing.Related
