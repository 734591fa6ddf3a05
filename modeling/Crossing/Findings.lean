/-!
# Results that report everything in their way

A stage that looks at many parts reports what is wrong with each of them, in the order of the
parts, and not only the first thing it meets. A value comes out only when nothing is wrong
anywhere.
-/

namespace Crossing

/-- A value, or all that stands in its way. -/
abbrev Findings (ε α : Type) := Except (List ε) α

namespace Findings

variable {ε α β γ : Type}

/-- Two results in one, with what stands in the way of either. -/
def combine (f : α → β → γ) : Findings ε α → Findings ε β → Findings ε γ
  | .ok a, .ok b => .ok (f a b)
  | .ok _, .error es => .error es
  | .error es, .ok _ => .error es
  | .error es, .error es' => .error (es ++ es')

/-- The values of all parts, or what stands in the way of any of them. -/
def all : List (Findings ε α) → Findings ε (List α)
  | [] => .ok []
  | r :: rs => combine (fun a as => a :: as) r (all rs)

/-- Nothing, unless something was found. -/
def ofProblems : List ε → Findings ε Unit
  | [] => .ok ()
  | es => .error es

/-- What stands in the way; empty when there is a value. -/
def problems : Findings ε α → List ε
  | .ok _ => []
  | .error es => es

def value? : Findings ε α → Option α
  | .ok a => some a
  | .error _ => none

theorem problems_combine (f : α → β → γ) (r : Findings ε α) (s : Findings ε β) :
    (combine f r s).problems = r.problems ++ s.problems := by
  cases r <;> cases s <;> simp [combine, problems]

theorem problems_all : ∀ rs : List (Findings ε α),
    (all rs).problems = rs.flatMap problems
  | [] => rfl
  | r :: rs => by rw [all, problems_combine, problems_all rs, List.flatMap_cons]

theorem problems_ofProblems (es : List ε) : (ofProblems es).problems = es := by
  cases es <;> rfl

/-- A result that depends on another has a value only if the other has. -/
theorem exists_of_bind {x : Except ε α} {f : α → Except ε β} {b : β} (h : x >>= f = .ok b) :
    ∃ a, x = .ok a ∧ f a = .ok b := by
  cases x with
  | error => cases h
  | ok a => exact ⟨a, rfl, h⟩

theorem combine_eq_ok {f : α → β → γ} {r : Findings ε α} {s : Findings ε β} {c : γ} :
    combine f r s = .ok c ↔ ∃ a b, r = .ok a ∧ s = .ok b ∧ f a b = c := by
  cases r <;> cases s <;> simp [combine]

theorem all_eq_ok : ∀ {rs : List (Findings ε α)} {as : List α},
    all rs = .ok as ↔ rs = as.map .ok
  | [], as => by cases as <;> simp [all]
  | r :: rs, as => by
    rw [all, combine_eq_ok]
    constructor
    · rintro ⟨a, bs, rfl, hall, rfl⟩
      rw [all_eq_ok.1 hall, List.map_cons]
    · intro h
      cases as with
      | nil => simp at h
      | cons a bs =>
        rw [List.map_cons, List.cons.injEq] at h
        exact ⟨a, bs, h.1, all_eq_ok.2 h.2, rfl⟩

theorem ofProblems_eq_ok {es : List ε} {u : Unit} : ofProblems es = .ok u ↔ es = [] := by
  cases es <;> simp [ofProblems]

theorem map_eq_ok {f : α → β} {r : Findings ε α} {b : β} :
    r.map f = .ok b ↔ ∃ a, r = .ok a ∧ f a = b := by
  cases r <;> simp [Except.map]

theorem map_combine {δ : Type} (g : γ → δ) (f : α → β → γ) (r : Findings ε α)
    (s : Findings ε β) : (combine f r s).map g = combine (fun a b => g (f a b)) r s := by
  cases r <;> cases s <;> rfl

theorem combine_map {α' β' : Type} (f : α' → β' → γ) (g : α → α') (h : β → β') (r : Findings ε α)
    (s : Findings ε β) :
    combine f (r.map g) (s.map h) = combine (fun a b => f (g a) (h b)) r s := by
  cases r <;> cases s <;> rfl

theorem all_map (f : α → β) (rs : List (Findings ε α)) :
    all (rs.map (Except.map f)) = (all rs).map (List.map f) := by
  induction rs with
  | nil => rfl
  | cons r rs ih => rw [List.map_cons, all, all, ih, combine_map, map_combine]; rfl

/-- When all parts have values, every value is that of a part. -/
theorem exists_of_mem_all {made : List (γ × Findings ε α)} {as : List α}
    (h : all (made.map (·.2)) = .ok as) {a : α} (ha : a ∈ as) : ∃ c, (c, .ok a) ∈ made := by
  have hmem : Except.ok a ∈ made.map (·.2) := by
    rw [all_eq_ok.1 h]
    exact List.mem_map_of_mem ha
  obtain ⟨⟨c, r⟩, hc, rfl⟩ := List.mem_map.1 hmem
  exact ⟨c, hc⟩

end Findings

end Crossing
