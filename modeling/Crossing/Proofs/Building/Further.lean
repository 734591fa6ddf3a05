import Mathlib
import Crossing.Proofs.Building.Covered

/-!
# The ways from an expression to its parts

From the task of an expression there are four ways on (`Task.Step`): inward, to the elements of a
buffer struct, to the target of an alias, and to the contents of a declaration. Going the first three
comes to an end where no buffer struct is entered again inside its own elements (`acc_further`).
-/

namespace Crossing

open Relation (TransGen ReflTransGen)

/-- A relation between the elements of a list is well-founded where it has no cycles. -/
theorem wellFounded_of_acyclic {α : Type} {R : α → α → Prop} (xs : List α)
    (hmem : ∀ a b, R a b → a ∈ xs ∧ b ∈ xs) (hacyclic : ∀ a, ¬ TransGen R a a) :
    WellFounded R := by
  have : IsStrictOrder α (TransGen R) :=
    { irrefl := hacyclic, trans := fun _ _ _ => TransGen.trans }
  have hfinite : {a | a ∈ xs}.WellFoundedOn (TransGen R) := xs.finite_toSet.wellFoundedOn
  refine Subrelation.wf (fun {a b} h => ?_) (Set.wellFoundedOn_iff.1 hfinite)
  exact ⟨.single h, hmem a b h⟩

/-- The element type of a buffer struct mentions another buffer struct, seen through no alias. -/
structure NominalIndex.Enters (index : NominalIndex) (a b : Nominal) : Prop where
  source_mem : a ∈ index.nominals
  target_mem : b ∈ index.nominals
  elements : ∃ element mutable, Building.Rule.elements? a = some (element, mutable)
    ∧ ∃ via, (b.name, via) ∈ index.mentions [] a.scope .sequence element
  target_elements : (Building.Rule.elements? b).isSome

namespace Building

variable {m : TypeModel}

theorem Rule.fields_of_elements {n : Nominal} {element : TypeExpr} {mutable : Bool}
    (h : elements? n = some (element, mutable)) :
    ∃ fields, n.structFields? = some fields ∧ ∃ f ∈ fields, f.type = .pointer mutable element := by
  unfold elements? at h
  split at h
  · rename_i hfields
    split at h
    · obtain ⟨rfl, rfl⟩ := Prod.mk.inj (Option.some.inj h)
      exact ⟨_, hfields, _, List.mem_cons_self, rfl⟩
    · simp at h
  · simp at h

theorem Rule.pointer_mem_of_elements {n : Nominal} {element : TypeExpr} {mutable : Bool}
    (h : elements? n = some (element, mutable)) : .pointer mutable element ∈ n.types := by
  obtain ⟨fields, hfields, f, hf, htype⟩ := fields_of_elements h
  exact htype ▸ Nominal.type_mem_of_field hfields hf

theorem Rule.aliasTarget?_of_elements {n : Nominal} {element : TypeExpr} {mutable : Bool}
    (h : elements? n = some (element, mutable)) : n.aliasTarget? = none := by
  obtain ⟨fields, hfields, -⟩ := fields_of_elements h
  unfold Nominal.structFields? at hfields
  split at hfields
  · rename_i hbody
    rw [Nominal.aliasTarget?, hbody]
  · simp at hfields

/-- What the expression `u`, held behind `via`, mentions is mentioned by `e`, and where it is held by
value behind the same indirection. -/
def TypeModel.Inward (m : TypeModel) (scope : List String) (e : TypeExpr) (via : Via)
    (u : TypeExpr) : Prop :=
  ∀ unopened v, ∃ v', m.index.mentions unopened scope v' u ⊆ m.index.mentions unopened scope v e
    ∧ (via = .value → v' = v)

/-- What is known of a mention that is taken by its contents. -/
structure TypeModel.TakenWhole (m : TypeModel) (s : Site) (n : Nominal) : Prop where
  isType : n.isAlias = false
  finite : n.name ∉ m.graph.valueCyclic
  recurs : ∀ owner, s.owner = some owner → m.graph.sameRecursive owner n.name = true →
    s.via = .value

namespace Task

/-- The ways from the task of an expression to its parts. -/
inductive Step (m : TypeModel) (s : Site) (e : TypeExpr) : Task → Prop where
  | inward {via : Via} {u : TypeExpr} (smaller : sizeOf u < sizeOf e)
      (inward : m.Inward s.scope e via u) :
      Step m s e (.follow (s.inside via) (m.recipe s.scope u))
  | enter {n : Nominal} {element : TypeExpr} {mutable : Bool}
      (meaning : (m.index.resolve e.names s.scope).nominal? = some n)
      (elements : Rule.elements? n = some (element, mutable)) :
      Step m s e (.follow (TypeModel.enter s n) (m.recipe n.scope element))
  | opened {n : Nominal} {target : TypeExpr}
      (meaning : (m.index.resolve e.names s.scope).nominal? = some n)
      (aliased : n.aliasTarget? = some target) (isUnopened : n.name ∈ s.unopened) :
      Step m s e (.follow (m.openAlias s n) (m.recipe n.scope target))
  | expanded {n : Nominal} (meaning : (m.index.resolve e.names s.scope).nominal? = some n)
      (taken : m.TakenWhole s n) : Step m s e (.contents n)

section Step

variable {s : Site} {e u : TypeExpr} {n : Nominal}

theorem inward_of_holds {via : Via}
    (h : ∀ v, ∃ v', e.Holds v u v' ∧ (via = .value → v' = v)) : m.Inward s.scope e via u := by
  intro unopened v
  obtain ⟨v', hholds, hvalue⟩ := h v
  exact ⟨v', fun x hx => hholds.mentions hx, hvalue⟩

theorem mentions_unit (index : NominalIndex) (unopened scope : List String) (via : Via) :
    index.mentions unopened scope via .unit = [] := by
  rw [NominalIndex.mentions]
  rfl

theorem inward_of_isInside (h : ∀ v, IsInside e u v) : m.Inward s.scope e .function u := by
  intro unopened v
  rcases h v with rfl | ⟨v', hholds⟩
  · exact ⟨v, by simp [mentions_unit], nofun⟩
  · exact ⟨v', fun x hx => hholds.mentions hx, nofun⟩

theorem sizeOf_le_of_mem_types {ret : Return} (h : u ∈ ret.types) : sizeOf u ≤ ret.weight := by
  cases ret with
  | value t => exact Nat.le_of_eq (congrArg sizeOf (List.mem_singleton.1 h))
  | fallible t error =>
    simp only [Return.weight]
    rcases List.mem_pair.1 h with rfl | rfl <;> omega
  | malformed problem => simp [Return.types] at h

theorem takenWhole_of_content {whole : Reference} (halias : n.isAlias = false)
    (hwhole : ∀ problem, whole ≠ .refuse problem) (hhandle : whole ≠ .handle)
    (h : m.content s n e whole = whole) : m.TakenWhole s n := by
  have hnever : ∀ problem, Reference.refuse problem ≠ whole := fun p hp => hwhole p hp.symm
  simp only [TypeModel.content] at h
  split at h
  · exact absurd h.symm hhandle
  rename_i hpointer
  split at h
  · exact absurd h (hnever _)
  rename_i hsequence
  split at h
  · exact absurd h (hnever _)
  rename_i hfunction
  split at h
  · split at h
    · exact absurd h.symm hhandle
    · exact absurd h (hnever _)
  split at h
  · exact absurd h (hnever _)
  rename_i hfinite
  refine ⟨halias, fun hmem => hfinite (List.contains_iff_mem.2 hmem), fun owner howner hrec => ?_⟩
  simp only [howner, Option.any_some, hrec, Bool.true_and, decide_eq_true_eq]
    at hpointer hsequence hfunction
  cases hvia : s.via with
  | value => rfl
  | pointer => exact absurd hvia hpointer
  | sequence => exact absurd hvia hsequence
  | function => exact absurd hvia hfunction

theorem takenWhole_of_reference {whole : Reference}
    (hwhole : (∃ fields, whole = .record fields) ∨ ∃ variants, whole = .union variants)
    (h : m.reference s n e = whole) : m.TakenWhole s n := by
  have hrefuse : ∀ problem, Reference.refuse problem ≠ whole := by
    rcases hwhole with ⟨_, rfl⟩ | ⟨_, rfl⟩ <;> simp
  have hproper : ∀ {r : Reference}, m.content s n e r = whole →
      (∀ problem, r ≠ .refuse problem) → r ≠ .handle → n.isAlias = false → m.TakenWhole s n := by
    intro r hr hproblem hhandle halias
    rcases TypeModel.content_cases m s n e r with ⟨problem, hcontent⟩ | ⟨hcontent, -⟩ | hcontent
    · exact absurd (hcontent.symm.trans hr) (hrefuse _)
    · rcases hwhole with ⟨_, rfl⟩ | ⟨_, rfl⟩ <;> simp [hcontent] at hr
    · exact takenWhole_of_content halias hproblem hhandle hcontent
  unfold TypeModel.reference at h
  simp only at h
  split at h
  · exact absurd h (hrefuse _)
  split at h
  · exact absurd h (hrefuse _)
  split at h
  · rcases hwhole with ⟨_, rfl⟩ | ⟨_, rfl⟩ <;> split at h <;> simp at h
  · rename_i hbody
    exact hproper h (by simp) (by simp) (by simp [Nominal.isAlias, Nominal.aliasTarget?, hbody])
  · rename_i hbody
    exact hproper h (by simp) (by simp) (by simp [Nominal.isAlias, Nominal.aliasTarget?, hbody])
  · exact absurd h (hrefuse _)
  · exact absurd h (hrefuse _)

/-- The parts of the task of an expression are those that the ways lead to. -/
theorem step_of_below {part : Task} (h : part.Below m (.follow s (m.recipe s.scope e))) :
    Step m s e part := by
  have hcovered := m.covered_recipe s.scope e
  have hweight : (m.recipe s.scope e).weight < sizeOf e := m.weight_recipeBy_lt _ e
  obtain ⟨inPlace, hmem⟩ := h
  revert hcovered hweight hmem
  cases m.recipe s.scope e with
  | exact | refuse | illFormed => simp [parts]
  | wrap via u wrapper =>
    intro hcovered hweight hmem
    simp only [parts, List.mem_singleton, Prod.mk.injEq] at hmem
    obtain ⟨-, rfl⟩ := hmem
    exact .inward hweight (inward_of_holds hcovered)
  | tuple us =>
    intro hcovered hweight hmem
    simp only [parts, List.mem_map, Prod.mk.injEq] at hmem
    obtain ⟨u, hu, -, rfl⟩ := hmem
    have hsmaller : sizeOf u < sizeOf e := (List.sizeOf_lt_of_mem hu).trans hweight
    exact .inward hsmaller (inward_of_holds fun v => ⟨v, .of_mem (hcovered v u hu), fun _ => rfl⟩)
  | function params ret holding =>
    intro hcovered hweight hmem
    simp only [parts, List.mem_map, Prod.mk.injEq] at hmem
    obtain ⟨u, hu, -, rfl⟩ := hmem
    have hsmaller : sizeOf u < sizeOf e := by
      simp only [Recipe.weight] at hweight
      rcases List.mem_append.1 hu with hparam | hret
      · have := List.sizeOf_lt_of_mem hparam
        omega
      · have : sizeOf u ≤ ret.weight := sizeOf_le_of_mem_types hret
        omega
    exact .inward hsmaller (inward_of_isInside fun v => hcovered v u hu)
  | buffer n element holding =>
    rintro ⟨hmeaning, mutable, helements⟩ - hmem
    simp only [parts, List.mem_singleton, Prod.mk.injEq] at hmem
    obtain ⟨-, rfl⟩ := hmem
    exact .enter hmeaning helements
  | named n mention =>
    rintro ⟨rfl, hmeaning⟩ - hmem
    simp only [parts] at hmem
    split at hmem
    · rename_i target href
      obtain ⟨-, rfl⟩ := Prod.mk.inj (List.mem_singleton.1 hmem)
      have htarget : n.aliasTarget? = some target := by
        rw [Nominal.aliasTarget?, TypeModel.target_of_reference href]
      exact .opened hmeaning htarget (TypeModel.mem_unopened href)
    · rename_i fields href
      obtain ⟨-, rfl⟩ := Prod.mk.inj (List.mem_singleton.1 hmem)
      exact .expanded hmeaning (takenWhole_of_reference (.inl ⟨fields, rfl⟩) href)
    · rename_i variants href
      obtain ⟨-, rfl⟩ := Prod.mk.inj (List.mem_singleton.1 hmem)
      exact .expanded hmeaning (takenWhole_of_reference (.inr ⟨variants, rfl⟩) href)
    all_goals simp at hmem

end Step

/-- A part that does not begin a declaration. -/
def Further (m : TypeModel) (part task : Task) : Prop :=
  part.Below m task ∧ ∃ s e, part = .follow s (m.recipe s.scope e)

section Further

variable {k : Nat}

/-- There is an end to an expression where there is one to the targets of the aliases that are still
to open, and to the elements of the buffer structs that the expression mentions. -/
theorem acc_of_entered
    (hopened : ∀ s e, s.unopened.length < k → Acc (Further m) (.follow s (m.recipe s.scope e)))
    {s : Site} (hs : s.unopened.length ≤ k) (e : TypeExpr) (v : Via)
    (hentered : ∀ n ∈ m.index.nominals, ∀ v',
      (n.name, v') ∈ m.index.mentions [] s.scope v e →
        ∀ element mutable, Rule.elements? n = some (element, mutable) →
          ∀ s' : Site, s'.scope = n.scope → s'.unopened.length ≤ k →
            Acc (Further m) (.follow s' (m.recipe n.scope element))) :
    Acc (Further m) (.follow s (m.recipe s.scope e)) := by
  induction hsize : sizeOf e using Nat.strong_induction_on generalizing s e v with
  | _ size ih =>
    subst hsize
    refine .intro _ fun part hpart => ?_
    cases step_of_below hpart.1 with
    | inward smaller inward =>
      obtain ⟨v', hmentions, -⟩ := inward [] v
      exact ih _ smaller (s := s.inside _) hs _ v' (fun n hn x hx => hentered n hn x (hmentions hx)) rfl
    | @enter n element mutable meaning elements =>
      have halias : n.aliasTarget? = none := Rule.aliasTarget?_of_elements elements
      exact hentered n (NominalIndex.resolve_mem meaning) v
        (NominalIndex.mem_mentions_self meaning halias) element mutable elements
        (TypeModel.enter s n) rfl hs
    | @opened n target meaning aliased isUnopened =>
      exact hopened (m.openAlias s n) target
        (Nat.lt_of_lt_of_le (Builder.length_erase_lt isUnopened) hs)
    | expanded =>
      obtain ⟨-, s', e', hfollow⟩ := hpart
      simp at hfollow

/-- Between one declaration and the next there is an end. -/
theorem acc_further (hchain : ∀ n, ¬ TransGen m.index.Enters n n) (s : Site) (e : TypeExpr) :
    Acc (Further m) (.follow s (m.recipe s.scope e)) := by
  have hbuffers : WellFounded fun b a => m.index.Enters a b :=
    wellFounded_of_acyclic m.index.nominals (fun b a h => ⟨h.target_mem, h.source_mem⟩)
      fun n h => hchain n (Relation.transGen_swap.1 h)
  -- By the number of aliases that are still to open, and for each number along the buffer structs.
  induction hk : s.unopened.length using Nat.strong_induction_on generalizing s e with
  | _ k ih =>
    subst hk
    have hopened : ∀ s' e', s'.unopened.length < s.unopened.length →
        Acc (Further m) (.follow s' (m.recipe s'.scope e')) := fun s' e' h => ih _ h s' e' rfl
    have helements : ∀ n ∈ m.index.nominals, ∀ element mutable,
        Rule.elements? n = some (element, mutable) → ∀ s' : Site, s'.scope = n.scope →
          s'.unopened.length ≤ s.unopened.length →
            Acc (Further m) (.follow s' (m.recipe n.scope element)) := by
      intro n
      induction n using hbuffers.induction with
      | _ n ihn =>
        intro hn element mutable helements s' hscope hlength
        rw [← hscope]
        refine acc_of_entered hopened hlength element .sequence fun n' hn' v hmention => ?_
        intro element' mutable' helements'
        rw [hscope] at hmention
        exact ihn n' ⟨hn, hn', ⟨element, mutable, helements, v, hmention⟩,
          Option.isSome_iff_exists.2 ⟨_, helements'⟩⟩ hn' element' mutable' helements'
    exact acc_of_entered hopened (Nat.le_refl _) e .value fun n hn _ _ => helements n hn

end Further

end Task

end Building

end Crossing
