import Crossing.Proofs.Building.Handle

/-!
# What a task yields is determined

A task yields at most one outcome (`Yields.unique`), and whatever yields something has parts that
yield something, at every depth and without end nowhere (`Yields.exists_of_part`, `Yields.acc`). An
outcome that is no type tells what is wrong (`Yields.ne_silent`).
-/

namespace Crossing

namespace Findings

variable {ε α β γ : Type} {r : Findings ε α} {s : Findings ε β}

theorem map_ne_silent {f : α → β} (h : r ≠ .error []) : r.map f ≠ .error [] := by
  rcases r with es | a
  · exact fun hmap => h (congrArg Except.error (Except.error.inj hmap))
  · exact nofun

theorem combine_ne_silent {f : α → β → γ} (hr : r ≠ .error []) (hs : s ≠ .error []) :
    combine f r s ≠ .error [] := by
  rcases r with es | a <;> rcases s with es' | b <;> simp_all [combine]

theorem all_ne_silent {rs : List (Findings ε α)} (h : ∀ r ∈ rs, r ≠ .error []) :
    all rs ≠ .error [] := by
  induction rs with
  | nil => exact nofun
  | cons r rs ih =>
    exact combine_ne_silent (h r List.mem_cons_self) (ih fun s hs => h s (List.mem_cons_of_mem _ hs))

theorem ofProblems_ne_silent (es : List ε) : ofProblems es ≠ .error [] := by
  cases es <;> simp [ofProblems]

end Findings

namespace Building

variable {m : TypeModel}

/-- Lists of pairs with the same first parts are the same where the first part determines the
second. -/
theorem eq_of_map_fst_eq {α β : Type} {made made' : List (α × β)}
    (hfst : made'.map (·.1) = made.map (·.1))
    (h : ∀ p ∈ made, ∀ q ∈ made', q.1 = p.1 → q.2 = p.2) : made' = made := by
  induction made generalizing made' with
  | nil => simpa using hfst
  | cons p made ih =>
    cases made' with
    | nil => simp at hfst
    | cons q made' =>
      obtain ⟨hhead, htail⟩ := List.cons.inj hfst
      have hq := h p List.mem_cons_self q List.mem_cons_self hhead
      rw [ih htail fun p hp q hq => h p (.tail _ hp) q (.tail _ hq), Prod.ext hhead hq]

section Inversion

variable {s : Site} {n : Nominal} {o : Outcome} {holding : Holding}

theorem Yields.of_tuple {es : List TypeExpr} (h : Yields m (.follow s (.tuple es)) o) :
    ∃ made : List (TypeExpr × Outcome), made.map (·.1) = es
      ∧ (∀ p ∈ made, Yields m (.follow (s.inside .value) (m.recipe s.scope p.1)) p.2)
      ∧ o = (Findings.all (made.map (·.2))).map Builder.tupleOf := by
  generalize htask : Task.follow s (.tuple es) = task at h
  cases h <;> cases htask
  case tuple made parts => exact ⟨made, rfl, parts, rfl⟩

theorem Yields.of_function {params : List TypeExpr} {t : TypeExpr}
    (h : Yields m (.follow s (.function params (.value t) holding)) o) :
    ∃ made : List (TypeExpr × Outcome), ∃ r, made.map (·.1) = params
      ∧ (∀ p ∈ made, Yields m (.follow (s.inside .function) (m.recipe s.scope p.1)) p.2)
      ∧ Yields m (.follow (s.inside .function) (m.recipe s.scope t)) r
      ∧ o = Builder.signatureOf holding (made.map (·.2)) (r.map (·, .never)) := by
  generalize htask : Task.follow s (.function params (.value t) holding) = task at h
  cases h <;> cases htask
  case function made r parts result => exact ⟨made, r, rfl, parts, result, rfl⟩

theorem Yields.of_fallible {params : List TypeExpr} {t e : TypeExpr}
    (h : Yields m (.follow s (.function params (.fallible t e) holding)) o) :
    ∃ made : List (TypeExpr × Outcome), ∃ r re, made.map (·.1) = params
      ∧ (∀ p ∈ made, Yields m (.follow (s.inside .function) (m.recipe s.scope p.1)) p.2)
      ∧ Yields m (.follow (s.inside .function) (m.recipe s.scope t)) r
      ∧ Yields m (.follow (s.inside .function) (m.recipe s.scope e)) re
      ∧ o = Builder.signatureOf holding (made.map (·.2))
        (Findings.combine (fun t e => (t, .typed e)) r re) := by
  generalize htask : Task.follow s (.function params (.fallible t e) holding) = task at h
  cases h <;> cases htask
  case fallible made r re parts result failure =>
    exact ⟨made, r, re, rfl, parts, result, failure, rfl⟩

theorem Yields.of_malformed {params : List TypeExpr} {problem : Problem}
    (h : Yields m (.follow s (.function params (.malformed problem) holding)) o) :
    ∃ made : List (TypeExpr × Outcome), made.map (·.1) = params
      ∧ (∀ p ∈ made, Yields m (.follow (s.inside .function) (m.recipe s.scope p.1)) p.2)
      ∧ o = Builder.signatureOf holding (made.map (·.2)) (.error [problem]) := by
  generalize htask : Task.follow s (.function params (.malformed problem) holding) = task at h
  cases h <;> cases htask
  case malformed made parts => exact ⟨made, rfl, parts, rfl⟩

theorem Yields.of_record {fields : List NativeField} (hbody : n.structFields? = some fields)
    (h : Yields m (.contents n) o) :
    ∃ made : MadeFields, made.map (·.1) = labelledFields 0 fields
      ∧ (∀ p ∈ made, Yields m (.follow (m.inner n) (m.recipe n.scope p.1.2.type)) p.2)
      ∧ o = made.fields.map (.record n.name) := by
  cases h with
  | @record _ fields' made body labels parts =>
    rw [hbody] at body
    obtain rfl := Option.some.inj body
    exact ⟨made, labels, parts, rfl⟩
  | union body =>
    simp [Nominal.structFields?, body] at hbody

theorem Yields.of_union {variants : List NativeVariant}
    (hbody : n.declaration.body = .enumeration variants) (h : Yields m (.contents n) o) :
    ∃ made : List (TaggedVariant × MadeFields), made.map (·.1) = tagVariants 0 [] variants
      ∧ (∀ v ∈ made, v.2.map (·.1) = labelledFields 0 v.1.variant.fields)
      ∧ (∀ v ∈ made, ∀ p ∈ v.2,
        Yields m (.follow (m.inner n) (m.recipe n.scope p.1.2.type)) p.2)
      ∧ o = unionOf n.name made := by
  cases h with
  | record body => simp [Nominal.structFields?, hbody] at body
  | @union _ variants' made body tags labels parts =>
    rw [hbody] at body
    obtain rfl := DeclarationBody.enumeration.inj body
    exact ⟨made, tags, labels, parts, rfl⟩

end Inversion

/-- A task yields one outcome at most. -/
theorem Yields.unique {task : Task} {o o' : Outcome} (h : Yields m task o) (h' : Yields m task o') :
    o' = o := by
  induction h generalizing o' with
  | exact | refuse =>
    cases h'
    rfl
  | wrap part around ih =>
    cases h' with
    | wrap part' around' =>
      rw [Except.ok.inj (ih part'), around] at around'
      exact (Except.ok.inj around').symm
    | wrapFailed part' => exact absurd (ih part') nofun
  | wrapFailed part ih =>
    cases h' with
    | wrap part' around' => exact absurd (ih part') nofun
    | wrapFailed part' => exact ih part'
  | tuple parts ih =>
    obtain ⟨made', hfst, parts', rfl⟩ := h'.of_tuple
    rw [eq_of_map_fst_eq hfst fun p hp q hq heq => ih p hp (heq ▸ parts' q hq)]
  | function params result ihs ih =>
    obtain ⟨made', r, hfst, params', result', rfl⟩ := h'.of_function
    rw [eq_of_map_fst_eq hfst fun p hp q hq heq => ihs p hp (heq ▸ params' q hq), ih result']
  | fallible params result failure ihs ih ihe =>
    obtain ⟨made', r, re, hfst, params', result', failure', rfl⟩ := h'.of_fallible
    rw [eq_of_map_fst_eq hfst fun p hp q hq heq => ihs p hp (heq ▸ params' q hq), ih result',
      ihe failure']
  | malformed params ih =>
    obtain ⟨made', hfst, params', rfl⟩ := h'.of_malformed
    rw [eq_of_map_fst_eq hfst fun p hp q hq heq => ih p hp (heq ▸ params' q hq)]
  | buffer part ih =>
    cases h' with
    | buffer part' => rw [ih part']
  | refused reference | emptyEnumeration reference =>
    cases h' <;> simp_all
  | handle reference reserved =>
    cases h' <;> simp_all
  | opened reference part ih =>
    cases h' <;> simp_all
  | struct reference whole ih | enumeration reference whole ih =>
    cases h' <;> simp_all
  | record body labels parts ih =>
    obtain ⟨made', labels', parts', rfl⟩ := h'.of_record body
    rw [eq_of_map_fst_eq (labels'.trans labels.symm) fun p hp q hq heq =>
      ih p hp (heq ▸ parts' q hq)]
  | union body tags labels parts ih =>
    obtain ⟨made', tags', labels', parts', rfl⟩ := h'.of_union body
    rw [eq_of_map_fst_eq (tags'.trans tags.symm) fun v hv w hw heq => ?_]
    refine eq_of_map_fst_eq ?_ fun p hp q hq hpq => ih v hv p hp (hpq ▸ parts' w hw q hq)
    rw [labels v hv, labels' w hw, heq]

namespace Task

/-- The task `part` is a part of `task`. -/
def Below (m : TypeModel) (part task : Task) : Prop := ∃ inPlace, (inPlace, part) ∈ task.parts m

variable {s : Site} {part : Task}

theorem below_tuple {es : List TypeExpr} : part.Below m (.follow s (.tuple es)) ↔
    ∃ e ∈ es, .follow (s.inside .value) (m.recipe s.scope e) = part := by
  simp [Below, parts]

theorem below_function {params : List TypeExpr} {ret : Return} {holding : Holding} :
    part.Below m (.follow s (.function params ret holding)) ↔
      ∃ e ∈ params ++ ret.types, .follow (s.inside .function) (m.recipe s.scope e) = part := by
  simp only [Below, parts, List.mem_map, Prod.mk.injEq]
  grind

theorem below_contents {n : Nominal} : part.Below m (.contents n) ↔
    ∃ e ∈ n.types, .follow (m.inner n) (m.recipe n.scope e) = part := by
  simp [Below, parts]

end Task

/-- What holds of a task that yields something when it holds of its parts, which all yield something,
holds of every task that yields something. -/
theorem Yields.parts_induction {P : Task → Prop}
    (h : ∀ task o, Yields m task o →
      (∀ part, Task.Below m part task → (∃ o', Yields m part o') ∧ P part) → P task)
    {task : Task} {o : Outcome} (hyields : Yields m task o) : P task := by
  induction hyields with
  | exact t => exact h _ _ (.exact t) (by simp [Task.Below, Task.parts])
  | refuse problem => exact h _ _ (.refuse problem) (by simp [Task.Below, Task.parts])
  | wrap part around ih =>
    refine h _ _ (.wrap part around) ?_
    simpa [Task.Below, Task.parts] using ⟨⟨_, part⟩, ih⟩
  | wrapFailed part ih =>
    refine h _ _ (.wrapFailed part) ?_
    simpa [Task.Below, Task.parts] using ⟨⟨_, part⟩, ih⟩
  | tuple parts ih =>
    refine h _ _ (.tuple parts) fun part hpart => ?_
    obtain ⟨e, he, rfl⟩ := Task.below_tuple.1 hpart
    obtain ⟨p, hp, rfl⟩ := List.mem_map.1 he
    exact ⟨⟨_, parts p hp⟩, ih p hp⟩
  | function params result ihs ih =>
    refine h _ _ (.function params result) fun part hpart => ?_
    obtain ⟨e, he, rfl⟩ := Task.below_function.1 hpart
    rcases List.mem_append.1 he with he | he
    · obtain ⟨p, hp, rfl⟩ := List.mem_map.1 he
      exact ⟨⟨_, params p hp⟩, ihs p hp⟩
    · obtain rfl := List.mem_singleton.1 he
      exact ⟨⟨_, result⟩, ih⟩
  | fallible params result failure ihs ih ihe =>
    refine h _ _ (.fallible params result failure) fun part hpart => ?_
    obtain ⟨e, he, rfl⟩ := Task.below_function.1 hpart
    rcases List.mem_append.1 he with he | he
    · obtain ⟨p, hp, rfl⟩ := List.mem_map.1 he
      exact ⟨⟨_, params p hp⟩, ihs p hp⟩
    · rcases List.mem_pair.1 he with rfl | rfl
      · exact ⟨⟨_, result⟩, ih⟩
      · exact ⟨⟨_, failure⟩, ihe⟩
  | malformed params ih =>
    refine h _ _ (.malformed params) fun part hpart => ?_
    obtain ⟨e, he, rfl⟩ := Task.below_function.1 hpart
    simp only [Return.types, List.append_nil] at he
    obtain ⟨p, hp, rfl⟩ := List.mem_map.1 he
    exact ⟨⟨_, params p hp⟩, ih p hp⟩
  | buffer part ih =>
    refine h _ _ (.buffer part) ?_
    simpa [Task.Below, Task.parts] using ⟨⟨_, part⟩, ih⟩
  | refused reference =>
    exact h _ _ (.refused reference) (by simp [Task.Below, Task.parts, reference])
  | handle reference reserved =>
    exact h _ _ (.handle reference reserved) (by simp [Task.Below, Task.parts, reference])
  | opened reference part ih =>
    refine h _ _ (.opened reference part) ?_
    simpa [Task.Below, Task.parts, reference] using ⟨⟨_, part⟩, ih⟩
  | struct reference whole ih =>
    refine h _ _ (.struct reference whole) ?_
    simpa [Task.Below, Task.parts, reference] using ⟨⟨_, whole⟩, ih⟩
  | @emptyEnumeration s n mention reference =>
    have hbody := TypeModel.variants_of_reference reference
    have hwhole : Yields m (.contents n) (unionOf n.name []) :=
      .union hbody rfl (by simp) (by simp)
    refine h _ _ (.emptyEnumeration reference) ?_
    simp only [Task.Below, Task.parts, reference, List.mem_singleton, Prod.mk.injEq,
      exists_eq_left, forall_eq]
    refine ⟨⟨_, hwhole⟩, h _ _ hwhole fun part hpart => ?_⟩
    obtain ⟨e, he, rfl⟩ := Task.below_contents.1 hpart
    simp [Nominal.types, hbody] at he
  | enumeration reference whole ih =>
    refine h _ _ (.enumeration reference whole) ?_
    simpa [Task.Below, Task.parts, reference] using ⟨⟨_, whole⟩, ih⟩
  | record body labels parts ih =>
    refine h _ _ (.record body labels parts) fun part hpart => ?_
    obtain ⟨e, he, rfl⟩ := Task.below_contents.1 hpart
    rw [types_of_structFields body labels] at he
    obtain ⟨p, hp, rfl⟩ := List.mem_map.1 he
    exact ⟨⟨_, parts p hp⟩, ih p hp⟩
  | union body tags labels parts ih =>
    refine h _ _ (.union body tags labels parts) fun part hpart => ?_
    obtain ⟨e, he, rfl⟩ := Task.below_contents.1 hpart
    rw [types_of_enumeration body tags labels] at he
    obtain ⟨v, hv, he⟩ := List.mem_flatMap.1 he
    obtain ⟨p, hp, rfl⟩ := List.mem_map.1 he
    exact ⟨⟨_, parts v hv p hp⟩, ih v hv p hp⟩

section Parts

variable {task part : Task} {o : Outcome}

theorem Yields.exists_of_part (h : Yields m task o) (hpart : part.Below m task) :
    ∃ o', Yields m part o' :=
  h.parts_induction (P := fun task => ∀ part, Task.Below m part task → ∃ o', Yields m part o')
    (fun _ _ _ hparts part hpart => (hparts part hpart).1) part hpart

/-- There is no end to the parts of no task that yields something. -/
theorem Yields.acc (h : Yields m task o) : Acc (Task.Below m) task :=
  h.parts_induction fun _ _ _ hparts => ⟨_, fun part hpart => (hparts part hpart).2⟩

end Parts

theorem Wrapper.around_ne_silent {w : Wrapper} {t : InterfaceType} {o : Outcome}
    (h : w.around t = .ok o) : o ≠ .error [] := by
  unfold Wrapper.around at h
  split at h
  · split at h
    · exact Except.ok.inj h ▸ nofun
    · simp at h
  · exact Except.ok.inj h ▸ nofun
  · rw [← Except.ok.inj h]
    unfold Wrapper.optionalOf
    split
    · split
      · simp
      · split <;> simp
    · simp
  · exact Except.ok.inj h ▸ nofun

/-- What yields no type yields what is wrong. -/
theorem Yields.ne_silent {task : Task} {o : Outcome} (h : Yields m task o) : o ≠ .error [] := by
  have hmap : ∀ {α : Type} {made : List (α × Outcome)}, (∀ p ∈ made, p.2 ≠ .error []) →
      Findings.all (made.map (·.2)) ≠ .error [] := by
    intro α made hmade
    exact Findings.all_ne_silent (List.forall_mem_map.2 hmade)
  have hfields : ∀ {made : MadeFields}, (∀ p ∈ made, p.2 ≠ .error []) →
      made.fields ≠ .error [] := by
    intro made hmade
    exact Findings.all_ne_silent (List.forall_mem_map.2 fun p hp =>
      Findings.map_ne_silent (hmade p hp))
  induction h with
  | exact | handle => exact nofun
  | refuse | refused | emptyEnumeration => simp
  | wrap part around ih => exact Wrapper.around_ne_silent around
  | wrapFailed part ih => exact ih
  | tuple parts ih => exact Findings.map_ne_silent (hmap ih)
  | function params result ihs ih =>
    exact Findings.combine_ne_silent (hmap ihs) (Findings.map_ne_silent ih)
  | fallible params result failure ihs ih ihe =>
    exact Findings.combine_ne_silent (hmap ihs) (Findings.combine_ne_silent ih ihe)
  | malformed params ih => exact Findings.combine_ne_silent (hmap ih) (by simp)
  | buffer part ih => exact Findings.map_ne_silent ih
  | opened reference part ih => exact ih
  | struct reference whole ih | enumeration reference whole ih => exact ih
  | record body labels parts ih => exact Findings.map_ne_silent (hfields ih)
  | union body tags labels parts ih =>
    refine Findings.combine_ne_silent (Findings.all_ne_silent ?_) (Findings.ofProblems_ne_silent _)
    exact List.forall_mem_map.2 fun v hv =>
      Findings.combine_ne_silent (Findings.ofProblems_ne_silent _) (hfields (ih v hv))

end Building

end Crossing
