import Crossing.Proofs.Upholds

/-!
# Computations that keep an invariant

The stages of a run are computations with a state and a failure. `Ensures D s x Q` says that `x`,
begun at `s`, respects the discipline `D` in every step, whether it fails or not, and that its
answer is as `Q` says from then on, whatever else is done to the state in the same discipline.
`Keeps I x Q` is the case of a mere invariant `I` and an answer that is good by itself. The lemmas go
along the ways a computation is put together, so that nobody runs one by hand; for a loop over a
list (`Ensures.mapM`, `Keeps.mapM`) every answer is kept beside the element that it belongs to.
-/

namespace Crossing

variable {ε σ α β : Type}

/-- From `s` on, `x` respects `D` and answers as `Q` says. -/
def Ensures (D : Discipline σ) (s : σ) (x : ExceptT ε (Steps σ) α) (Q : Except ε α → σ → Prop) :
    Prop :=
  Steps.Upholds D Q x.run s

/-- Wherever `I` holds, `x` answers as `Q` says, and every step of it leaves `I` intact. -/
def Keeps (I : σ → Prop) (x : ExceptT ε (Steps σ) α) (Q : Except ε α → Prop) : Prop :=
  ∀ s, Ensures (.ofInv I) s x fun r _ => Q r

/-- Says something about the value of an answer, and nothing about a failure. -/
def OnValue (P : α → Prop) : Except ε α → Prop
  | .ok a => P a
  | .error _ => True

theorem onValue_self (r : Except ε α) : OnValue (fun a => r = .ok a) r := by
  cases r <;> trivial

/-- Says what a failure goes to show, and nothing about a value. -/
def OnFailure (P : ε → Prop) : Except ε α → Prop
  | .ok _ => True
  | .error e => P e

/-- Says of a loop what its body says of every element, as far as it came. -/
inductive OnEach (R : α → Except ε β → σ → Prop) : List α → Except ε (List β) → σ → Prop where
  | nil {s : σ} : OnEach R [] (.ok []) s
  | cons {x : α} {xs : List α} {y : β} {ys : List β} {s : σ} (head : R x (.ok y) s)
      (tail : OnEach R xs (.ok ys) s) : OnEach R (x :: xs) (.ok (y :: ys)) s
  | failed {x : α} {xs : List α} {e : ε} {s : σ} (head : R x (.error e) s) :
      OnEach R (x :: xs) (.error e) s
  | later {x : α} {xs : List α} {y : β} {e : ε} {s : σ} (head : R x (.ok y) s)
      (tail : OnEach R xs (.error e) s) : OnEach R (x :: xs) (.error e) s

namespace OnEach

variable {R R' : α → Except ε β → σ → Prop} {xs : List α} {r : Except ε (List β)} {s : σ}

theorem imp (h : OnEach R xs r s) (hR : ∀ x ∈ xs, ∀ r, R x r s → R' x r s) : OnEach R' xs r s := by
  induction h with
  | nil => exact .nil
  | cons head tail ih =>
    exact .cons (hR _ List.mem_cons_self _ head) (ih fun x hx => hR x (.tail _ hx))
  | failed head => exact .failed (hR _ List.mem_cons_self _ head)
  | later head tail ih =>
    exact .later (hR _ List.mem_cons_self _ head) (ih fun x hx => hR x (.tail _ hx))

theorem forall₂ {ys : List β} (h : OnEach R xs (.ok ys) s) :
    List.Forall₂ (fun x y => R x (.ok y) s) xs ys := by
  generalize hr : Except.ok ys = r at h
  induction h generalizing ys with
  | nil => exact Except.ok.inj hr ▸ .nil
  | cons head tail ih => exact Except.ok.inj hr ▸ .cons head (ih rfl)
  | failed | later => cases hr

theorem exists_failed {e : ε} (h : OnEach R xs (.error e) s) : ∃ x ∈ xs, R x (.error e) s := by
  generalize hr : Except.error e = r at h
  induction h with
  | nil | cons => cases hr
  | failed head => exact ⟨_, List.mem_cons_self, Except.error.inj hr ▸ head⟩
  | later head tail ih =>
    obtain ⟨x, hx, hfailed⟩ := ih hr
    exact ⟨x, .tail _ hx, hfailed⟩

theorem map {γ : Type} {f : γ → α} {zs : List γ} (h : OnEach (fun z => R (f z)) zs r s) :
    OnEach R (zs.map f) r s := by
  induction h with
  | nil => exact .nil
  | cons head tail ih => exact .cons head ih
  | failed head => exact .failed head
  | later head tail ih => exact .later head ih

/-- A loop without a state. -/
theorem of_mapM (f : α → Except ε β) (xs : List α) (s : σ) :
    OnEach (fun x r _ => f x = r) xs (xs.mapM f) s := by
  induction xs with
  | nil => exact .nil
  | cons x xs ih =>
    rw [List.mapM_cons]
    cases hx : f x with
    | error e => exact .failed hx
    | ok y =>
      cases hxs : xs.mapM f with
      | error e => exact .later hx (hxs ▸ ih)
      | ok ys => exact .cons hx (hxs ▸ ih)

/-- A loop comes to what its body comes to for the elements one by one. -/
theorem eq_mapM {γ : Type} {g : β → γ} {f : α → Except ε γ}
    (h : OnEach (fun x r _ => r.map g = f x) xs r s) : r.map (List.map g) = xs.mapM f := by
  induction h with
  | nil => rfl
  | cons head tail ih =>
    rw [List.mapM_cons, ← head, ← ih]
    rfl
  | failed head =>
    rw [List.mapM_cons, ← head]
    rfl
  | later head tail ih =>
    rw [List.mapM_cons, ← head, ← ih]
    rfl

end OnEach

section Run

variable {s : σ}

theorem Steps.run_bind (x : Steps σ α) (f : α → Steps σ β) (s : σ) :
    (x >>= f).run s = (f (x.run s).1).run (x.run s).2 := by
  induction x generalizing s with
  | done a => rfl
  | step change next ih => exact ih s (change s)

theorem run_getBind (f : σ → ExceptT ε (Steps σ) α) (s : σ) :
    (get >>= f).run.run s = (f s).run.run s := rfl

/-- Behind an answer the rest runs, and behind a failure nothing does. -/
theorem run_bind (x : ExceptT ε (Steps σ) α) (f : α → ExceptT ε (Steps σ) β) (s : σ) :
    (x >>= f).run.run s =
      (ExceptT.bindCont f (x.run.run s).1 : Steps σ (Except ε β)).run (x.run.run s).2 :=
  Steps.run_bind ..

theorem run_bind_of_run {x : ExceptT ε (Steps σ) α} {f : α → ExceptT ε (Steps σ) β} {a : α} {t : σ}
    (h : x.run.run s = (.ok a, t)) : (x >>= f).run.run s = (f a).run.run t := by
  rw [run_bind, h]
  rfl

/-- What is made of an answer at the end is made of it alone. -/
theorem run_bindPure (x : ExceptT ε (Steps σ) α) (f : α → β) (s : σ) :
    ((x >>= fun a => pure (f a)).run.run s).1 = (x.run.run s).1.map f := by
  rw [run_bind]
  cases (x.run.run s).1 <;> rfl

/-- What two computations answer one after the other, the second answers behind the first. -/
theorem run_bind_of_ok {x : ExceptT ε (Steps σ) α} {f : α → ExceptT ε (Steps σ) β} {b : β}
    (h : ((x >>= f).run.run s).1 = .ok b) :
    ∃ a t, x.run.run s = (.ok a, t) ∧ (x >>= f).run.run s = (f a).run.run t := by
  rcases hx : x.run.run s with ⟨e | a, t⟩
  · rw [run_bind, hx] at h
    cases h
  · exact ⟨a, t, rfl, run_bind_of_run hx⟩

end Run

namespace Ensures

variable {D : Discipline σ} {s : σ} {x : ExceptT ε (Steps σ) α} {Q : Except ε α → σ → Prop}

theorem mono {R : Except ε α → σ → Prop} (h : Ensures D s x Q)
    (hQ : ∀ r t, D.Later s t → Q r t → R r t) : Ensures D s x R :=
  Steps.Upholds.mono h hQ

theorem of_later (h : ∀ t, D.Later s t → Ensures D t x Q) : Ensures D s x Q :=
  Steps.Upholds.of_later h

theorem pure {a : α} (h : ∀ t, D.Later s t → Q (.ok a) t) :
    Ensures D s (pure a : ExceptT ε (Steps σ) α) Q := h

theorem throw {e : ε} (h : ∀ t, D.Later s t → Q (.error e) t) :
    Ensures D s (throw e : ExceptT ε (Steps σ) α) Q := h

theorem liftExcept {r : Except ε α} (h : ∀ t, D.Later s t → Q r t) :
    Ensures D s (liftExcept r : ExceptT ε (Steps σ) α) Q := by
  cases r with
  | ok a => exact pure h
  | error e => exact throw h

theorem modifyGetBind {f : σ → α × σ} {g : α → ExceptT ε (Steps σ) β} {R : Except ε β → σ → Prop}
    (h : ∀ t, D.Later s t → D.Later t (f t).2 ∧ Ensures D (f t).2 (g (f t).1) R) :
    Ensures D s (modifyGet f >>= g) R := h

theorem modifyBind {f : σ → σ} {g : PUnit → ExceptT ε (Steps σ) β} {R : Except ε β → σ → Prop}
    (h : ∀ t, D.Later s t → D.Later t (f t) ∧ Ensures D (f t) (g ()) R) :
    Ensures D s (modify f >>= g) R := h

theorem modifyGet {f : σ → α × σ} (hf : ∀ t, D.Later s t → D.Later t (f t).2
    ∧ ∀ u, D.Later (f t).2 u → Q (.ok (f t).1) u) :
    Ensures D s (modifyGet f : ExceptT ε (Steps σ) α) Q := hf

theorem modify {f : σ → σ} {Q : Except ε PUnit → σ → Prop} (hf : ∀ t, D.Later s t →
    D.Later t (f t) ∧ ∀ u, D.Later (f t) u → Q (.ok ()) u) :
    Ensures D s (modify f : ExceptT ε (Steps σ) PUnit) Q := hf

theorem bind {f : α → ExceptT ε (Steps σ) β} {R : Except ε β → σ → Prop} (hx : Ensures D s x Q)
    (he : ∀ e t, D.Later s t → Q (.error e) t → R (.error e) t)
    (hf : ∀ a t, D.Later s t → Q (.ok a) t → Ensures D t (f a) R) : Ensures D s (x >>= f) R := by
  refine Steps.Upholds.bind (Steps.Upholds.lasting hx) fun r t ht hr => ?_
  cases r with
  | error e => exact fun u hu => he e u (ht.trans hu) (hr u hu)
  | ok a => exact hf a t ht (hr t (.self ht.1))

theorem getBind {f : σ → ExceptT ε (Steps σ) α} (hf : ∀ t, D.Later s t → Ensures D t (f t) Q) :
    Ensures D s (get >>= f) Q :=
  fun t ht => ⟨.self ht.1, hf t ht⟩

/-- A loop says of each element what its body says of it, and fails where its body does. -/
theorem mapM {f : α → ExceptT ε (Steps σ) β} {R : α → Except ε β → σ → Prop} {xs : List α}
    (h : ∀ x ∈ xs, ∀ t, D.Later s t → Ensures D t (f x) (R x)) :
    Ensures D s (xs.mapM f) (OnEach R xs) := by
  induction xs generalizing s with
  | nil =>
    rw [List.mapM_nil]
    exact pure fun _ _ => .nil
  | cons x xs ih =>
    have hx := of_later (h x List.mem_cons_self)
    rw [List.mapM_cons]
    refine bind (Steps.Upholds.lasting hx) (fun e t ht he => .failed (he t (.self ht.1)))
      fun y t ht hy => ?_
    have hrest := ih fun z hz u hu => h z (List.mem_cons_of_mem _ hz) u (ht.trans hu)
    refine bind (Steps.Upholds.lasting hrest) (fun e u hu he => ?_) fun ys u hu hys => pure fun v hv =>
      .cons (hy v (hu.trans hv)) (hys v hv)
    exact .later (hy u hu) (he u (.self hu.1))

/-- A loop over the elements of a list together with the proofs that they are in it. -/
theorem attachMapM {xs : List α} {f : {x // x ∈ xs} → ExceptT ε (Steps σ) β}
    {R : α → Except ε β → σ → Prop}
    (h : ∀ x (hx : x ∈ xs) t, D.Later s t → Ensures D t (f ⟨x, hx⟩) (R x)) :
    Ensures D s (xs.attach.mapM f) (OnEach R xs) := by
  refine (mapM (R := fun x => R x.1) fun x _ => h x.1 x.2).mono fun r t _ hr => ?_
  have := OnEach.map (f := Subtype.val) hr
  rwa [List.attach_map_subtype_val] at this

theorem and {E : Discipline σ} {R : Except ε α → σ → Prop} (h : Ensures D s x Q)
    (h' : Ensures E s x R) : Ensures (D.and E) s x fun r t => Q r t ∧ R r t :=
  Steps.Upholds.both (fun _ _ ht => (Discipline.later_and.1 ht).1)
    (fun _ _ ht => (Discipline.later_and.1 ht).2)
    (fun _ _ ht ht' => Discipline.later_and.2 ⟨ht, ht'⟩) h h'

theorem forM {f : α → ExceptT ε (Steps σ) PUnit} {xs : List α}
    (h : ∀ x ∈ xs, ∀ t, D.Later s t → Ensures D t (f x) fun _ _ => True) :
    Ensures D s (xs.forM f) fun _ _ => True := by
  induction xs generalizing s with
  | nil => exact pure fun _ _ => trivial
  | cons x xs ih =>
    refine bind (of_later (h x List.mem_cons_self)) (fun _ _ _ _ => trivial) fun _ t ht _ => ?_
    exact ih fun y hy u hu => h y (.tail _ hy) u (ht.trans hu)

theorem map {f : α → β} {R : Except ε β → σ → Prop} (hx : Ensures D s x Q)
    (he : ∀ e t, D.Later s t → Q (.error e) t → R (.error e) t)
    (hf : ∀ a t, D.Later s t → Q (.ok a) t → R (.ok (f a)) t) : Ensures D s (f <$> x) R := by
  rw [map_eq_pure_bind]
  refine bind (Steps.Upholds.lasting hx) (fun e t ht hq => he e t ht (hq t (.self ht.1)))
    fun a t ht hq => pure fun u hu => hf a u (ht.trans hu) (hq u hu)

/-- What is made of an answer at the end is said of its failure too. -/
theorem bindPure {f : α → β} {R : Except ε β → σ → Prop} (hx : Ensures D s x Q)
    (h : ∀ r t, D.Later s t → Q r t → R (r.map f) t) :
    Ensures D s (x >>= fun a => Pure.pure (f a)) R :=
  bind (Steps.Upholds.lasting hx) (fun _ t ht hq => h _ t ht (hq t (.self ht.1)))
    fun _ _ ht hq => pure fun u hu => h _ u (ht.trans hu) (hq u hu)

/-- Run by itself, a computation does what it ensures. -/
theorem run (h : Ensures D s x Q) (hs : D.Inv s) :
    D.Later s (x.run.run s).2 ∧ Q (x.run.run s).1 (x.run.run s).2 :=
  Steps.Upholds.run h hs

end Ensures

theorem attach_mapM {α β : Type} {m : Type → Type} [Monad m] [LawfulMonad m] (xs : List α)
    (f : α → m β) : (xs.attach.mapM fun x => f x.1) = xs.mapM f :=
  calc (xs.attach.mapM fun x => f x.1) = (xs.attach.map Subtype.val).mapM f := List.mapM_map.symm
    _ = xs.mapM f := by rw [List.attach_map_subtype_val]

/-- Two lists that go together are those of one list of pairs. -/
theorem exists_of_forall₂ {R : α → β → Prop} {xs : List α} {ys : List β} (h : List.Forall₂ R xs ys) :
    ∃ made : List (α × β), made.map (·.1) = xs ∧ made.map (·.2) = ys ∧ ∀ p ∈ made, R p.1 p.2 := by
  have hlength := h.length_eq
  refine ⟨xs.zip ys, List.map_fst_zip ?_, List.map_snd_zip ?_, fun p hp => ?_⟩
  · exact Nat.le_of_eq hlength
  · exact Nat.le_of_eq hlength.symm
  · exact (List.forall₂_iff_zip.1 h).2 hp

namespace Keeps

variable {I : σ → Prop} {x : ExceptT ε (Steps σ) α} {Q : Except ε α → Prop} {P : α → Prop}

theorem mono {R : Except ε α → Prop} (h : Keeps I x Q) (hQ : ∀ r, Q r → R r) : Keeps I x R :=
  fun s => (h s).mono fun r _ _ => hQ r

theorem and {R : Except ε α → Prop} (h : Keeps I x Q) (h' : Keeps I x R) :
    Keeps I x fun r => Q r ∧ R r :=
  fun s => Steps.Upholds.both (fun _ _ ht => ht) (fun _ _ ht => ht) (fun _ _ ht _ => ht) (h s) (h' s)

theorem of_eq {a : α} (h : Keeps I x (· = .ok a)) (ha : P a) : Keeps I x (OnValue P) :=
  h.mono fun _ hr => hr ▸ ha

theorem unfailing {a : α} (h : Keeps I x (· = .ok a)) {P : ε → Prop} : Keeps I x (OnFailure P) :=
  h.mono fun _ hr => hr ▸ trivial

/-- Nothing needs to be kept of a computation that nothing is asked of. -/
theorem anyway (x : ExceptT ε (Steps σ) α) :
    Keeps (fun _ => True) x (OnValue fun _ => True) := by
  suffices h : ∀ (x : Steps σ (Except ε α)) s,
      x.Upholds (.ofInv fun _ => True) (fun r _ => OnValue (fun _ => True) r) s from h x.run
  intro x
  induction x with
  | done r => exact fun _ _ _ => r.casesOn (fun _ => trivial) fun _ => trivial
  | step change next ih => exact fun s t _ => ⟨⟨trivial, trivial⟩, ih t _⟩

theorem pure {a : α} (h : Q (.ok a)) : Keeps I (pure a : ExceptT ε (Steps σ) α) Q :=
  fun _ => Ensures.pure fun _ _ => h

theorem throw {e : ε} (h : Q (.error e)) : Keeps I (throw e : ExceptT ε (Steps σ) α) Q :=
  fun _ => Ensures.throw fun _ _ => h

theorem liftExcept {r : Except ε α} (h : Q r) :
    Keeps I (liftExcept r : ExceptT ε (Steps σ) α) Q :=
  fun _ => Ensures.liftExcept fun _ _ => h

theorem getBind {f : σ → ExceptT ε (Steps σ) α} (hf : ∀ s, I s → Keeps I (f s) Q) :
    Keeps I (get >>= f) Q :=
  fun _ => Ensures.getBind fun t ht => hf t ht.1 t

theorem modify {f : σ → σ} (hf : ∀ s, I s → I (f s)) {Q : Except ε PUnit → Prop} (h : Q (.ok ())) :
    Keeps I (modify f : ExceptT ε (Steps σ) PUnit) Q :=
  fun _ => Ensures.modify fun t ht => ⟨⟨hf t ht.1, trivial⟩, fun _ _ => h⟩

theorem modifyGet {f : σ → α × σ} (hf : ∀ s, I s → Q (.ok (f s).1) ∧ I (f s).2) :
    Keeps I (modifyGet f : ExceptT ε (Steps σ) α) Q :=
  fun _ => Ensures.modifyGet fun t ht => ⟨⟨(hf t ht.1).2, trivial⟩, fun _ _ => (hf t ht.1).1⟩

theorem bind {f : α → ExceptT ε (Steps σ) β} {R : Except ε β → Prop} (hx : Keeps I x Q)
    (he : ∀ e, Q (.error e) → R (.error e)) (hf : ∀ a, Q (.ok a) → Keeps I (f a) R) :
    Keeps I (x >>= f) R :=
  fun s => (hx s).bind (fun e _ _ => he e) fun a t _ ha => hf a ha t

/-- A computation behind another, where nothing is said about failures. -/
theorem bindValue {f : α → ExceptT ε (Steps σ) β} {R : β → Prop} (hx : Keeps I x (OnValue P))
    (hf : ∀ a, P a → Keeps I (f a) (OnValue R)) : Keeps I (x >>= f) (OnValue R) :=
  bind hx (fun _ _ => trivial) hf

theorem map {f : α → β} {a : α} (h : Keeps I x (· = .ok a)) : Keeps I (f <$> x) (· = .ok (f a)) := by
  rw [map_eq_pure_bind]
  exact bind h nofun fun b hb => pure (by rw [Except.ok.inj hb])

theorem imp_failure {P P' : ε → Prop} (h : Keeps I x (OnFailure P)) (hP : ∀ e, P e → P' e) :
    Keeps I x (OnFailure P') := by
  refine h.mono ?_
  rintro (e | a) hr
  · exact hP e hr
  · trivial

theorem bindFailure {f : α → ExceptT ε (Steps σ) β} {P : ε → Prop} (hx : Keeps I x (OnFailure P))
    (hf : ∀ a, Keeps I (f a) (OnFailure P)) : Keeps I (x >>= f) (OnFailure P) :=
  bind hx (fun _ h => h) fun a _ => hf a

/-- A loop gives one answer for each element, each as its own computation says. -/
theorem mapM {f : α → ExceptT ε (Steps σ) β} {R : α → β → Prop} {xs : List α}
    (h : ∀ x ∈ xs, Keeps I (f x) (OnValue (R x))) :
    Keeps I (xs.mapM f) (OnValue fun ys => ∃ made : List (α × β),
      made.map (·.1) = xs ∧ made.map (·.2) = ys ∧ ∀ p ∈ made, R p.1 p.2) := by
  intro s
  refine (Ensures.mapM (R := fun x r _ => OnValue (R x) r) fun x hx t _ => h x hx t).mono ?_
  rintro (_ | ys) t - hys
  · trivial
  · exact exists_of_forall₂ hys.forall₂

/-- A loop over the elements of a list together with the proofs that they are in it. -/
theorem attachMapM {xs : List α} {f : {x // x ∈ xs} → ExceptT ε (Steps σ) β} {R : α → β → Prop}
    (h : ∀ x (hx : x ∈ xs), Keeps I (f ⟨x, hx⟩) (OnValue (R x))) :
    Keeps I (xs.attach.mapM f) (OnValue fun ys => ∃ made : List (α × β),
      made.map (·.1) = xs ∧ made.map (·.2) = ys ∧ ∀ p ∈ made, R p.1 p.2) := by
  intro s
  refine (Ensures.attachMapM (R := fun x r _ => OnValue (R x) r) fun x hx t _ => h x hx t).mono ?_
  rintro (_ | ys) t - hys
  · trivial
  · exact exists_of_forall₂ hys.forall₂

theorem mapMFailure {f : α → ExceptT ε (Steps σ) β} {P : ε → Prop} {xs : List α}
    (h : ∀ x ∈ xs, Keeps I (f x) (OnFailure P)) : Keeps I (xs.mapM f) (OnFailure P) := by
  intro s
  refine (Ensures.mapM (R := fun _ r _ => OnFailure P r) fun x hx t _ => h x hx t).mono ?_
  rintro (e | ys) t - hr
  · obtain ⟨_, -, he⟩ := hr.exists_failed
    exact he
  · trivial

theorem forMFailure {f : α → ExceptT ε (Steps σ) PUnit} {P : ε → Prop} {xs : List α}
    (h : ∀ x, Keeps I (f x) (OnFailure P)) : Keeps I (xs.forM f) (OnFailure P) := by
  induction xs with
  | nil => exact pure trivial
  | cons x xs ih => exact bindFailure (h x) fun _ => ih

theorem forM {f : α → ExceptT ε (Steps σ) PUnit} {xs : List α}
    (h : ∀ x ∈ xs, Keeps I (f x) (OnValue fun _ => True)) :
    Keeps I (xs.forM f) (OnValue fun _ => True) := by
  intro s
  refine (Ensures.forM fun x hx t _ => (h x hx t).mono fun _ _ _ _ => trivial).mono ?_
  rintro (_ | _) t - - <;> trivial

/-- Run by itself, a computation keeps what it keeps. -/
theorem run (h : Keeps I x Q) {s : σ} (hs : I s) : Q (x.run.run s).1 ∧ I (x.run.run s).2 := by
  obtain ⟨hlater, hq⟩ := Ensures.run (h s) hs
  exact ⟨hq, hlater.1⟩

end Keeps

/-- Where all that was made of some elements is there, it goes with the elements one by one. -/
theorem forall₂_of_made {P : α → Except ε β → Prop} {made : List (α × Except ε β)} {ys : List β}
    (hmade : ∀ p ∈ made, P p.1 p.2) (hys : made.map (·.2) = ys.map .ok) :
    List.Forall₂ (fun a y => P a (.ok y)) (made.map (·.1)) ys := by
  induction made generalizing ys with
  | nil =>
    obtain rfl : ys = [] := by simpa using hys.symm
    exact .nil
  | cons p made ih =>
    cases ys with
    | nil => simp at hys
    | cons y ys =>
      obtain ⟨hp, hrest⟩ := List.cons.inj hys
      exact .cons (hp ▸ hmade p List.mem_cons_self) (ih (fun q hq => hmade q (.tail _ hq)) hrest)

/-- Elements whose answers come of something each have a list of what they come of. -/
theorem exists_made {γ : Type} {g : α → γ → β} {R : α → γ → Prop} :
    ∀ {made : List (α × β)}, (∀ p ∈ made, ∃ c, p.2 = g p.1 c ∧ R p.1 c) →
      ∃ sources : List (α × γ), sources.map (·.1) = made.map (·.1)
        ∧ sources.map (fun p => g p.1 p.2) = made.map (·.2) ∧ ∀ p ∈ sources, R p.1 p.2
  | [], _ => ⟨[], rfl, rfl, by simp⟩
  | (a, b) :: made, h => by
    obtain ⟨c, hc, hr⟩ := h (a, b) List.mem_cons_self
    obtain ⟨rest, hfst, hsnd, hall⟩ := exists_made fun p hp => h p (List.mem_cons_of_mem _ hp)
    refine ⟨(a, c) :: rest, by rw [List.map_cons, hfst, List.map_cons], ?_, fun p hp => ?_⟩
    · rw [List.map_cons, hsnd, List.map_cons, ← hc]
    rcases List.mem_cons.1 hp with rfl | hp
    · exact hr
    · exact hall p hp

end Crossing
