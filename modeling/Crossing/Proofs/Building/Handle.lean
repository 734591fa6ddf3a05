import Crossing.Proofs.Building.Faithful

/-!
# Handles in built types

A handle has the size of a pointer, so a value may hold one only where it holds a pointer to the
nominal type. A built type is such (`HandlesPointed`) exactly when no part that its task holds in
place is taken as a handle (`Task.Exposes`). How a mention is taken follows the innermost
indirection around it, and what stands between that indirection and the mention does not count: in
`&(Handle, u8)` the mention stands behind a pointer, and the tuple holds the handle in place.
-/

namespace Crossing

namespace InterfaceType

/-- Whatever has a handle for a part is a pointer. -/
def HandlesPointed (t : InterfaceType) : Prop :=
  ∀ u, t.Contains u → ∀ v ∈ u.parts, v.kind = .handle → u.kind = .pointer

theorem handlesPointed_iff {t : InterfaceType} : t.HandlesPointed ↔
    ∀ u ∈ t.parts, (u.kind = .handle → t.kind = .pointer) ∧ u.HandlesPointed := by
  constructor
  · exact fun h u hu => ⟨h t .refl u hu, fun v hv => h v (.head hu hv)⟩
  · intro h u hu v hv hhandle
    rcases hu.cases_head with rfl | ⟨w, hw, hwu⟩
    · exact (h v hv).1 hhandle
    · exact (h w hw).2 u hwu v hv hhandle

theorem handlesPointed_of_parts_eq_nil {t : InterfaceType} (h : t.parts = []) :
    t.HandlesPointed := by
  rw [handlesPointed_iff, h]
  exact List.forall_mem_nil _

@[simp]
theorem handlesPointed_pointer {t : InterfaceType} {nullable : Bool} {h : Holding}
    {mutable : Bool} : (pointer t nullable h mutable).HandlesPointed ↔ t.HandlesPointed := by
  rw [handlesPointed_iff]
  simp [kind]

theorem handlesPointed_iff_of_ne {t : InterfaceType} (h : t.kind ≠ .pointer) :
    t.HandlesPointed ↔ ∀ u ∈ t.parts, u.kind ≠ .handle ∧ u.HandlesPointed := by
  rw [handlesPointed_iff]
  simp [h]

theorem kind_eq_handle {t : InterfaceType} :
    t.kind = .handle ↔ ∃ name number, t = .handle number name := by
  cases t <;> simp [kind]

end InterfaceType

namespace Building

variable {m : TypeModel}

/-- Whether what stands around a part holds it in place. -/
def Wrapper.isInPlace : Wrapper → Bool
  | .array _ | .buffer _ => true
  | .optional _ | .pointer .. => false

theorem Wrapper.kind_optionalOf {raw : Problem} {t u : InterfaceType}
    (h : optionalOf raw t = .ok u) :
    u.kind = .pointer ∧ (u.HandlesPointed ↔ t.HandlesPointed) := by
  unfold optionalOf at h
  split at h
  · split at h
    · simp at h
    split at h
    all_goals
      obtain rfl := Except.ok.inj h
      exact ⟨rfl, by simp⟩
  · obtain rfl := Except.ok.inj h
    exact ⟨rfl, by simp⟩

/-- What is wrapped around a type has that type for its part, or else the parts of that. -/
theorem Wrapper.part_of_around {w : Wrapper} {t u v : InterfaceType} (h : w.around t = .ok (.ok u))
    (hv : v ∈ u.parts) : v = t ∨ v ∈ t.parts := by
  cases w with
  | array length =>
    simp only [around] at h
    split at h
    · obtain rfl := Except.ok.inj (Except.ok.inj h)
      exact .inl (by simpa using hv)
    · simp at h
  | buffer holding =>
    obtain rfl := Except.ok.inj (Except.ok.inj h)
    exact .inl (by simpa using hv)
  | pointer nullable holding mutable =>
    obtain rfl := Except.ok.inj (Except.ok.inj h)
    exact .inl (by simpa using hv)
  | optional raw =>
    have h := Except.ok.inj h
    unfold optionalOf at h
    split at h
    · split at h
      · simp at h
      · split at h
        · obtain rfl := Except.ok.inj h
          exact .inr (by simpa using hv)
        · obtain rfl := Except.ok.inj h
          exact .inl (by simpa using hv)
    · obtain rfl := Except.ok.inj h
      exact .inl (by simpa using hv)

/-- What stands around a part is no handle, and points at it unless it holds it in place. -/
theorem Wrapper.handlesPointed_around {w : Wrapper} {t u : InterfaceType}
    (h : w.around t = .ok (.ok u)) : u.kind ≠ .handle ∧
      (u.HandlesPointed ↔ (w.isInPlace = true → t.kind ≠ .handle) ∧ t.HandlesPointed) := by
  cases w with
  | array length =>
    unfold around at h
    simp only at h
    split at h
    · obtain rfl := Except.ok.inj (Except.ok.inj h)
      refine ⟨by simp [InterfaceType.kind], ?_⟩
      rw [InterfaceType.handlesPointed_iff_of_ne (by simp [InterfaceType.kind])]
      simp [isInPlace]
    · simp at h
  | buffer holding =>
    obtain rfl := Except.ok.inj (Except.ok.inj h)
    refine ⟨by simp [InterfaceType.kind], ?_⟩
    rw [InterfaceType.handlesPointed_iff_of_ne (by simp [InterfaceType.kind])]
    simp [isInPlace]
  | optional raw =>
    obtain ⟨hkind, hpointed⟩ := kind_optionalOf (Except.ok.inj h)
    exact ⟨by simp [hkind], by simp [hpointed, isInPlace]⟩
  | pointer nullable holding mutable =>
    obtain rfl := Except.ok.inj (Except.ok.inj h)
    exact ⟨by simp [InterfaceType.kind], by simp [isInPlace]⟩

namespace Task

/-- The parts of a task, each with whether it is held in place. What a mention of a nominal type
stands for is a part of it that is not. -/
def parts (m : TypeModel) : Task → List (Bool × Task)
  | .follow s (.wrap via e w) => [(w.isInPlace, .follow (s.inside via) (m.recipe s.scope e))]
  | .follow s (.tuple es) => es.map fun e => (true, .follow (s.inside .value) (m.recipe s.scope e))
  | .follow s (.function params ret _) =>
    (params ++ ret.types).map fun e => (true, .follow (s.inside .function) (m.recipe s.scope e))
  | .follow s (.buffer n e _) => [(true, .follow (TypeModel.enter s n) (m.recipe n.scope e))]
  | .follow s (.named n mention) =>
    match m.reference s n mention with
    | .alias target => [(false, .follow (m.openAlias s n) (m.recipe n.scope target))]
    | .record _ | .union _ => [(false, .contents n)]
    | .refuse _ | .handle => []
  | .follow _ (.exact _) | .follow _ (.refuse _) | .follow _ (.illFormed ..) => []
  | .contents n => n.types.map fun e => (true, .follow (m.inner n) (m.recipe n.scope e))

/-- `IsHandle m task name`: the task is a mention of `name`, by itself or by an alias, and the
mention is taken as a handle. -/
inductive IsHandle (m : TypeModel) : Task → String → Prop where
  | handle {s : Site} {n : Nominal} {mention : TypeExpr}
      (reference : m.reference s n mention = .handle) :
      IsHandle m (.follow s (.named n mention)) n.name
  | opened {s : Site} {n : Nominal} {mention target : TypeExpr} {name : String}
      (reference : m.reference s n mention = .alias target)
      (part : IsHandle m (.follow (m.openAlias s n) (m.recipe n.scope target)) name) :
      IsHandle m (.follow s (.named n mention)) name

/-- Some part of the task, at any depth, is taken as a handle although it is held in place. -/
inductive Exposes (m : TypeModel) : Task → Prop where
  | here {task part : Task} {name : String} (mem : (true, part) ∈ task.parts m)
      (taken : IsHandle m part name) : Exposes m task
  | deeper {task part : Task} {inPlace : Bool} (mem : (inPlace, part) ∈ task.parts m)
      (exposes : Exposes m part) : Exposes m task

/-- Away from a declaration itself, a mention that is taken as a handle stands behind a pointer. -/
theorem via_of_isHandle {task : Task} {name : String} (h : task.IsHandle m name) :
    ∀ s r, task = .follow s r → s.isDeclaration = false → s.via = .pointer := by
  induction h with
  | @handle s n mention reference =>
    rintro _ _ ⟨⟩ hdeclaration
    rcases (TypeModel.cut_of_reference reference).2 with ⟨hvia, -⟩ | ⟨-, hdecl | hvia⟩
    · exact hvia
    · simp [hdeclaration] at hdecl
    · exact hvia
  | opened reference part ih =>
    rintro _ _ ⟨⟩ hdeclaration
    exact ih (m.openAlias _ _) _ rfl hdeclaration

theorem not_exposes_iff {task : Task} : ¬ task.Exposes m ↔
    ∀ p ∈ task.parts m, (p.1 = true → ∀ name, ¬ p.2.IsHandle m name) ∧ ¬ p.2.Exposes m := by
  constructor
  · rintro h ⟨inPlace, part⟩ hp
    refine ⟨?_, fun hpart => h (.deeper hp hpart)⟩
    rintro rfl name htaken
    exact h (.here hp htaken)
  · rintro h (⟨hmem, htaken⟩ | ⟨hmem, hexposes⟩)
    · exact (h _ hmem).1 rfl _ htaken
    · exact (h _ hmem).2 hexposes

theorem not_exposes_of_parts_eq {task part : Task} {inPlace : Bool}
    (h : task.parts m = [(inPlace, part)]) : ¬ task.Exposes m ↔
      (inPlace = true → ∀ name, ¬ part.IsHandle m name) ∧ ¬ part.Exposes m := by
  rw [not_exposes_iff, h, List.forall_mem_singleton]

end Task

/-- The type has its handles where the task says. -/
structure Built (m : TypeModel) (task : Task) (t : InterfaceType) : Prop where
  handle : ∀ name, (∃ number, t = .handle number name) ↔ task.IsHandle m name
  pointed : t.HandlesPointed ↔ ¬ task.Exposes m

namespace Built

variable {task : Task} {t : InterfaceType}

theorem kind_eq_handle (h : Built m task t) : t.kind = .handle ↔ ∃ name, task.IsHandle m name := by
  rw [InterfaceType.kind_eq_handle]
  exact exists_congr h.handle

theorem kind_ne_handle (h : Built m task t) :
    t.kind ≠ .handle ↔ ∀ name, ¬ task.IsHandle m name := by
  rw [Ne, h.kind_eq_handle, not_exists]

theorem of_pointed (hkind : t.kind ≠ .handle) (htask : ∀ name, ¬ task.IsHandle m name)
    (h : t.HandlesPointed ↔ ¬ task.Exposes m) : Built m task t := by
  refine ⟨fun name => iff_of_false ?_ (htask name), h⟩
  rintro ⟨number, rfl⟩
  exact hkind rfl

/-- A type that holds its parts in place, as its task does. -/
theorem of_parts (made : List (TypeExpr × Outcome)) (place : Site) (scope : List String)
    (hhandle : t.kind ≠ .handle) (hpointer : t.kind ≠ .pointer)
    (htask : ∀ name, ¬ task.IsHandle m name)
    (hparts : task.parts m = made.map fun p => (true, .follow place (m.recipe scope p.1)))
    (hmade : made.map (·.2) = t.parts.map .ok)
    (h : ∀ p ∈ made, ∀ u, p.2 = .ok u → Built m (.follow place (m.recipe scope p.1)) u) :
    Built m task t := by
  refine of_pointed hhandle htask ?_
  rw [InterfaceType.handlesPointed_iff_of_ne hpointer, Task.not_exposes_iff, hparts]
  constructor
  · intro hpointed q hq
    obtain ⟨p, hp, rfl⟩ := List.mem_map.1 hq
    obtain ⟨u, hu, hok⟩ := List.mem_map.1 (hmade ▸ List.mem_map_of_mem hp)
    have hbuilt := h p hp u hok.symm
    exact ⟨fun _ => hbuilt.kind_ne_handle.1 (hpointed u hu).1,
      hbuilt.pointed.1 (hpointed u hu).2⟩
  · intro hexposes u hu
    obtain ⟨p, hp, hok⟩ := List.mem_map.1 (hmade.symm ▸ List.mem_map_of_mem hu)
    have hbuilt := h p hp u hok
    obtain ⟨hnone, hdeep⟩ := hexposes _ (List.mem_map_of_mem hp)
    exact ⟨hbuilt.kind_ne_handle.2 (hnone rfl), hbuilt.pointed.2 hdeep⟩

/-- A function holds its parameters in place, and what it returns. -/
theorem of_function {s : Site} {made : List (TypeExpr × Outcome)} {ret : Return}
    {holding : Holding} {ts : List InterfaceType} {r : InterfaceType}
    {failure : Failure InterfaceType} (hts : made.map (·.2) = ts.map .ok)
    (returned : List (TypeExpr × Outcome)) (hret : ret.types = returned.map (·.1))
    (hreturned : returned.map (·.2)
      = (r :: (InterfaceType.failureParts failure).map (·.2)).map .ok)
    (hparams : ∀ p ∈ made, ∀ u, p.2 = .ok u →
      Built m (.follow (s.inside .function) (m.recipe s.scope p.1)) u)
    (hresult : ∀ p ∈ returned, ∀ u, p.2 = .ok u →
      Built m (.follow (s.inside .function) (m.recipe s.scope p.1)) u) :
    Built m (.follow s (.function (made.map (·.1)) ret holding))
      (.function ts r failure holding) := by
  refine .of_parts (made ++ returned) (s.inside .function) s.scope (by simp [InterfaceType.kind])
    (by simp [InterfaceType.kind]) (by rintro name ⟨⟩) ?_ ?_ (List.forall_mem_append.2 ?_)
  · simp [Task.parts, hret, Function.comp_def]
  · rw [List.map_append, hts, hreturned, InterfaceType.parts_function, ← List.map_append]
  · exact ⟨hparams, hresult⟩

theorem of_part (part : Task) (hparts : task.parts m = [(false, part)])
    (htask : ∀ name, task.IsHandle m name ↔ part.IsHandle m name) (h : Built m part t) :
    Built m task t := by
  refine ⟨fun name => (h.handle name).trans (htask name).symm, ?_⟩
  rw [h.pointed, Task.not_exposes_of_parts_eq hparts]
  simp

end Built

/-- A type that the task gives outright is simple. -/
def Task.Plain (task : Task) : Prop := ∀ s t, task = .follow s (.exact t) → Simple t

theorem plain_recipe (hstandard : m.recognizers = .standard) (s : Site) (scope : List String)
    (e : TypeExpr) : (Task.follow s (m.recipe scope e)).Plain := by
  intro s' t h
  obtain ⟨-, hexact⟩ := Task.follow.inj h
  exact ((m.sane_recipe scope e).exact t hexact).resolve_left (TypeModel.not_hasFixed hstandard)

theorem plain_ofItem (hstandard : m.recognizers = .standard) (item : ExportItem) :
    (Task.ofItem m item).Plain := by
  unfold Task.ofItem
  simp only
  split
  · rintro s t ⟨⟩
  · exact plain_recipe hstandard _ _ _
  · exact plain_recipe hstandard _ _ _

theorem map_snd_labelledFields (first : Nat) (fields : List NativeField) :
    (labelledFields first fields).map (·.2) = fields := by
  induction fields generalizing first with
  | nil => rfl
  | cons f fs ih => rw [labelledFields, List.map_cons, ih]

theorem map_variant_tagVariants (next : Int) (taken : List (Int × String))
    (variants : List NativeVariant) :
    (tagVariants next taken variants).map (·.variant) = variants := by
  induction variants generalizing next taken with
  | nil => rfl
  | cons v vs ih =>
    rw [tagVariants]
    exact congrArg (v :: ·) (ih ..)

theorem MadeFields.outcomes {made : MadeFields} {fs : List (Field InterfaceType)}
    (h : made.fields = .ok fs) : made.map (·.2) = (fs.map (·.type)).map .ok := by
  have htypes := congrArg (List.map (Except.map Field.type)) (Findings.all_eq_ok.1 h)
  rw [List.map_map, List.map_map] at htypes
  rw [List.map_map]
  refine Eq.trans (List.map_congr_left ?_) htypes
  rintro ⟨_, _ | _⟩ - <;> rfl

theorem outcomes_of_variants {name : String} :
    ∀ {made : List (TaggedVariant × MadeFields)} {vs : List (Variant InterfaceType)},
      (made.map fun p => variantOf name p.1 p.2) = vs.map .ok →
        (made.flatMap fun v => v.2.map (·.2))
          = (vs.flatMap fun v => v.fields.map (·.type)).map .ok
  | [], [], _ => rfl
  | v :: made, w :: vs, h => by
    obtain ⟨hv, hrest⟩ := List.cons.inj h
    obtain ⟨-, fs, -, hfields, rfl⟩ := Findings.combine_eq_ok.1 hv
    rw [List.flatMap_cons, List.flatMap_cons, List.map_append, outcomes_of_variants hrest,
      MadeFields.outcomes hfields]

theorem types_of_structFields {n : Nominal} {fields : List NativeField} {made : MadeFields}
    (body : n.structFields? = some fields) (labels : made.map (·.1) = labelledFields 0 fields) :
    n.types = made.map (·.1.2.type) := by
  have hfields : made.map (·.1.2) = fields := by
    rw [← map_snd_labelledFields 0 fields, ← labels, List.map_map]
    rfl
  unfold Nominal.structFields? at body
  split at body
  · rename_i fs style hbody
    obtain rfl := Option.some.inj body
    rw [Nominal.types, hbody, ← hfields]
    simp
  · simp at body

theorem types_of_enumeration {n : Nominal} {variants : List NativeVariant}
    {made : List (TaggedVariant × MadeFields)} (body : n.declaration.body = .enumeration variants)
    (tags : made.map (·.1) = tagVariants 0 [] variants)
    (labels : ∀ v ∈ made, v.2.map (·.1) = labelledFields 0 v.1.variant.fields) :
    n.types = made.flatMap fun v => v.2.map (·.1.2.type) := by
  have hvariants : variants = made.map (·.1.variant) := by
    rw [← map_variant_tagVariants 0 [] variants, ← tags, List.map_map]
    rfl
  have hfields : ∀ v ∈ made, v.1.variant.fields = v.2.map (·.1.2) := by
    intro v hv
    rw [← map_snd_labelledFields 0 v.1.variant.fields, ← labels v hv, List.map_map]
    rfl
  rw [Nominal.types, body, hvariants]
  simp only [List.flatMap_map]
  exact List.flatMap_congr fun v hv => by simp [hfields v hv]

@[simp]
theorem parts_tupleOf (ts : List InterfaceType) : (Builder.tupleOf ts).parts = ts := by
  simp [Builder.tupleOf, Function.comp_def]

theorem Built.of_contents {s : Site} {n : Nominal} {mention : TypeExpr} {t : InterfaceType}
    (hparts : (Task.follow s (.named n mention)).parts m = [(false, .contents n)])
    (h : Built m (.contents n) t) : Built m (.follow s (.named n mention)) t := by
  refine .of_part _ hparts (fun name => ?_) h
  constructor
  · rintro (hhandle | ⟨halias, -⟩)
    · simp [Task.parts, hhandle] at hparts
    · simp [Task.parts, halias] at hparts
  · rintro ⟨⟩

/-- What a task yields has its handles where the task says. -/
theorem built_of_yields (hstandard : m.recognizers = .standard) {task : Task} {o : Outcome}
    (h : Yields m task o) : task.Plain → ∀ t, o = .ok t → Built m task t := by
  have hplain := plain_recipe hstandard
  -- A handle comes out of a mention only, for the types that are known outright are simple. All
  -- other cases compare the parts of the type with those of the task.
  induction h with
  | @exact s t =>
    intro hsimple u hu
    obtain rfl := Except.ok.inj hu
    obtain ⟨hparts, hkind⟩ := hsimple s t rfl
    refine .of_pointed hkind (by rintro name ⟨⟩) (iff_of_true ?_ ?_)
    · exact InterfaceType.handlesPointed_of_parts_eq_nil hparts
    · rw [Task.not_exposes_iff]
      simp [Task.parts]
  | refuse problem => simp
  | @wrap s via e w t o part around ih =>
    rintro - u rfl
    obtain ⟨hkind, hpointed⟩ := Wrapper.handlesPointed_around around
    have hbuilt := ih (hplain _ _ _) t rfl
    have hexposes : ¬ (Task.follow s (.wrap via e w)).Exposes m ↔ _ :=
      Task.not_exposes_of_parts_eq rfl
    refine .of_pointed hkind (by rintro name ⟨⟩) ?_
    rw [hpointed, hbuilt.kind_ne_handle, hbuilt.pointed, hexposes]
  | wrapFailed part ih => simp
  | @tuple s made parts ih =>
    intro _ u hu
    obtain ⟨ts, hts, rfl⟩ := Findings.map_eq_ok.1 hu
    refine .of_parts made (s.inside .value) s.scope (by simp [Builder.tupleOf, InterfaceType.kind])
      (by simp [Builder.tupleOf, InterfaceType.kind]) (by rintro name ⟨⟩) ?_ ?_ ?_
    · simp [Task.parts]
    · rw [Findings.all_eq_ok.1 hts, parts_tupleOf]
    · exact fun p hp u hu => ih p hp (hplain _ _ _) u hu
  | @function s made ret o holding params result ihs ih =>
    intro _ u hu
    obtain ⟨ts, r, hts, rfl, rfl⟩ := Builder.signatureOf_value_eq_ok.1 hu
    refine .of_function hts [(ret, .ok r)] rfl rfl (fun p hp => ihs p hp (hplain _ _ _)) ?_
    exact List.forall_mem_singleton.2 (ih (hplain _ _ _))
  | @fallible s made ret error o oe holding params result failure ihs ih ihe =>
    intro _ u hu
    obtain ⟨ts, r, e, hts, rfl, rfl, rfl⟩ := Builder.signatureOf_fallible_eq_ok.1 hu
    refine .of_function hts [(ret, .ok r), (error, .ok e)] rfl rfl
      (fun p hp => ihs p hp (hplain _ _ _)) ?_
    exact List.forall_mem_cons.2
      ⟨ih (hplain _ _ _), List.forall_mem_singleton.2 (ihe (hplain _ _ _))⟩
  | malformed params ih => exact fun _ u hu => absurd hu Builder.signatureOf_malformed_ne_ok
  | @buffer s n element holding o part ih =>
    intro _ u hu
    obtain ⟨t, rfl, rfl⟩ := Findings.map_eq_ok.1 hu
    refine .of_parts [(element, .ok t)] (TypeModel.enter s n) n.scope
      (by simp [InterfaceType.kind]) (by simp [InterfaceType.kind]) (by rintro name ⟨⟩) rfl rfl ?_
    intro p hp u hu
    obtain rfl := List.mem_singleton.1 hp
    exact ih (hplain _ _ _) u hu
  | refused reference => simp
  | @handle s n mention number reference reserved =>
    intro _ u hu
    obtain rfl := Except.ok.inj hu
    refine ⟨fun name => ?_, iff_of_true ?_ ?_⟩
    · constructor
      · rintro ⟨_, hname⟩
        obtain ⟨-, rfl⟩ := InterfaceType.handle.inj hname
        exact .handle reference
      · rintro (hhandle | ⟨halias, -⟩)
        · exact ⟨number, rfl⟩
        · simp [reference] at halias
    · exact InterfaceType.handlesPointed_of_parts_eq_nil rfl
    · rw [Task.not_exposes_iff]
      simp [Task.parts, reference]
  | @opened s n mention target o reference part ih =>
    intro _ u hu
    refine .of_part (.follow (m.openAlias s n) (m.recipe n.scope target)) ?_
      (fun name => ?_) (ih (hplain _ _ _) u hu)
    · simp [Task.parts, reference]
    · constructor
      · rintro (hhandle | ⟨halias, hpart⟩)
        · simp [reference] at hhandle
        · rw [reference] at halias
          obtain rfl := Reference.alias.inj halias
          exact hpart
      · exact .opened reference
  | struct reference whole ih =>
    intro _ u hu
    exact .of_contents (by simp [Task.parts, reference]) (ih (by rintro _ _ ⟨⟩) u hu)
  | emptyEnumeration reference => simp
  | enumeration reference whole ih =>
    intro _ u hu
    exact .of_contents (by simp [Task.parts, reference]) (ih (by rintro _ _ ⟨⟩) u hu)
  | @record n fields made body labels parts ih =>
    intro _ u hu
    obtain ⟨fs, hfs, rfl⟩ := Findings.map_eq_ok.1 hu
    refine .of_parts (made.map fun p => (p.1.2.type, p.2)) (m.inner n) n.scope
      (by simp [InterfaceType.kind]) (by simp [InterfaceType.kind]) (by rintro name ⟨⟩) ?_ ?_ ?_
    · rw [Task.parts, types_of_structFields body labels, List.map_map, List.map_map]
      rfl
    · rw [InterfaceType.parts_record, ← MadeFields.outcomes hfs, List.map_map]
      rfl
    · intro p hp u hu
      obtain ⟨q, hq, rfl⟩ := List.mem_map.1 hp
      exact ih q hq (hplain _ _ _) u hu
  | @union n variants made body tags labels parts ih =>
    intro _ u hu
    obtain ⟨vs, _, hvs, -, rfl⟩ := Findings.combine_eq_ok.1 hu
    refine .of_parts (made.flatMap fun v => v.2.map fun p => (p.1.2.type, p.2)) (m.inner n) n.scope
      (by simp [InterfaceType.kind]) (by simp [InterfaceType.kind]) (by rintro name ⟨⟩) ?_ ?_ ?_
    · rw [Task.parts, types_of_enumeration body tags labels, List.map_flatMap, List.map_flatMap]
      simp [Function.comp_def]
    · rw [InterfaceType.parts_taggedUnion, ← outcomes_of_variants (Findings.all_eq_ok.1 hvs),
        List.map_flatMap]
      simp [Function.comp_def]
    · intro p hp u hu
      obtain ⟨v, hv, hp⟩ := List.mem_flatMap.1 hp
      obtain ⟨q, hq, rfl⟩ := List.mem_map.1 hp
      exact ih v hv q hq (hplain _ _ _) u hu

end Building

end Crossing
