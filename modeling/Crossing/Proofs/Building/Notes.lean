import Crossing.Proofs.Building.Determined

/-!
# Problems without notes

What keeps a type from being built is told without a note, whatever the rules are
(`Yields.unnoted`). So a note always comes from a check that is made of built types.
-/

namespace Crossing.Building

/-- Nothing that stands in the way is told with a note. -/
def Unnoted {α : Type} (r : Findings Problem α) : Prop := ∀ p ∈ r.problems, p.notes = []

namespace Unnoted

variable {α β γ : Type} {r : Findings Problem α} {s : Findings Problem β}

theorem ok (a : α) : Unnoted (.ok a) := List.forall_mem_nil _

theorem single {problem : Problem} (h : problem.notes = []) :
    Unnoted (.error [problem] : Findings Problem α) := List.forall_mem_singleton.2 h

theorem map (f : α → β) (h : Unnoted r) : Unnoted (r.map f) := by
  cases r with
  | ok a => exact ok _
  | error ps => exact h

theorem combine (f : α → β → γ) (hr : Unnoted r) (hs : Unnoted s) :
    Unnoted (Findings.combine f r s) := by
  rw [Unnoted, Findings.problems_combine]
  exact List.forall_mem_append.2 ⟨hr, hs⟩

theorem all {rs : List (Findings Problem α)} (h : ∀ r ∈ rs, Unnoted r) :
    Unnoted (Findings.all rs) := by
  rw [Unnoted, Findings.problems_all]
  exact List.forall_mem_flatMap.2 h

theorem ofProblems {ps : List Problem} (h : ∀ p ∈ ps, p.notes = []) :
    Unnoted (Findings.ofProblems ps) := by
  rwa [Unnoted, Findings.problems_ofProblems]

end Unnoted

/-- What is wrong with a recipe from the start is told without a note. -/
def Recipe.Unnoted : Recipe → Prop
  | .refuse problem => problem.notes = []
  | .wrap _ _ w => ∀ raw, w = .optional raw → raw.notes = []
  | .function _ ret _ => ∀ problem, ret = .malformed problem → problem.notes = []
  | .exact _ | .illFormed .. | .tuple _ | .buffer .. | .named .. => True

theorem Return.unnoted_ofExpr {ret : Option TypeExpr} {problem : Problem}
    (h : Return.ofExpr ret = .malformed problem) : problem.notes = [] := by
  simp only [Return.ofExpr] at h
  split at h
  · split at h
    · cases h
    · exact Return.malformed.inj h ▸ rfl
  · cases h

/-- No rule has a note for an expression. -/
theorem Rule.Answers.unnoted {o : Outlook} {e : TypeExpr} {r : Recipe} {rule : Rule}
    (h : rule.Answers o e r) : r.Unnoted := by
  cases h with
  | refuse => rfl
  | unit | primitive | text | tuple | structural | nominal => trivial
  | array | slice | vector | boxedSlice | reference | pointer | box | counted => exact nofun
  | callable => exact fun _ => Return.unnoted_ofExpr
  | optional => exact fun raw hraw => Wrapper.optional.inj hraw ▸ rfl
  | @fixed _ name answer => cases answer <;> trivial

theorem TypeModel.unnoted_recipe (m : TypeModel) (scope : List String) (e : TypeExpr) :
    (m.recipe scope e).Unnoted := by
  obtain ⟨rule, hanswers, -⟩ := m.recognizers.exists_answers
    ⟨m.wordBits, m.index.resolve e.names scope⟩ e
  exact hanswers.unnoted

theorem TypeModel.unnoted_reference {m : TypeModel} {s : Site} {n : Nominal} {mention : TypeExpr}
    {problem : Problem} (h : m.reference s n mention = .refuse problem) : problem.notes = [] := by
  grind [TypeModel.reference, TypeModel.content, Problem.about]

theorem Wrapper.unnoted_around {w : Wrapper} {t : InterfaceType} {o : Outcome}
    (hw : ∀ raw, w = .optional raw → raw.notes = []) (h : w.around t = .ok o) : Unnoted o := by
  cases w with
  | array length =>
    simp only [around] at h
    split at h
    · exact Except.ok.inj h ▸ .ok _
    · cases h
  | optional raw =>
    obtain rfl := Except.ok.inj h
    unfold optionalOf
    split
    · split
      · exact .single (hw raw rfl)
      · split <;> exact .ok _
    · exact .ok _
  | buffer | pointer => exact Except.ok.inj h ▸ .ok _

/-- What is wrong with the recipe of a task from the start is told without a note. -/
def Task.Unnoted : Task → Prop
  | .follow _ r => r.Unnoted
  | .contents _ => True

variable {m : TypeModel}

/-- What comes of a task is told without a note if its recipe is. -/
theorem Yields.unnoted {task : Task} {o : Outcome} (h : Yields m task o) (htask : task.Unnoted) :
    Unnoted o := by
  have hmade : ∀ {α : Type} {made : List (α × Outcome)}, (∀ p ∈ made, Building.Unnoted p.2) →
      Building.Unnoted (Findings.all (made.map (·.2))) :=
    fun h => .all (List.forall_mem_map.2 h)
  have hfields : ∀ {made : MadeFields}, (∀ p ∈ made, Building.Unnoted p.2) →
      Building.Unnoted made.fields :=
    fun h => .all (List.forall_mem_map.2 fun p hp => (h p hp).map _)
  have hrecipe := m.unnoted_recipe
  induction h with
  | exact | handle => exact .ok _
  | refuse problem => exact .single htask
  | refused reference => exact .single (TypeModel.unnoted_reference reference)
  | emptyEnumeration => exact .single rfl
  | wrap part around ih => exact Wrapper.unnoted_around htask around
  | wrapFailed part ih => exact ih (hrecipe _ _)
  | tuple parts ih => exact (hmade fun p hp => ih p hp (hrecipe _ _)).map _
  | function params result ihs ih =>
    exact (hmade fun p hp => ihs p hp (hrecipe _ _)).combine _ ((ih (hrecipe _ _)).map _)
  | fallible params result failure ihs ih ihe =>
    exact (hmade fun p hp => ihs p hp (hrecipe _ _)).combine _
      ((ih (hrecipe _ _)).combine _ (ihe (hrecipe _ _)))
  | malformed params ih =>
    exact (hmade fun p hp => ih p hp (hrecipe _ _)).combine _ (.single (htask _ rfl))
  | buffer part ih => exact (ih (hrecipe _ _)).map _
  | opened reference part ih => exact ih (hrecipe _ _)
  | struct reference whole ih | enumeration reference whole ih => exact ih trivial
  | record body labels parts ih => exact (hfields fun p hp => ih p hp (hrecipe _ _)).map _
  | union body tags labels parts ih =>
    refine Building.Unnoted.combine _ (.all (List.forall_mem_map.2 fun v hv => ?_))
      (.ofProblems ?_)
    · refine Building.Unnoted.combine _ (.ofProblems ?_)
        (hfields fun p hp => ih v hv p hp (hrecipe _ _))
      grind [TaggedVariant.problems]
    · grind [rangeProblems]

end Crossing.Building
