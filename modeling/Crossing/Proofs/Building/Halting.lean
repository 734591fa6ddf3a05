import Mathlib
import Crossing.Proofs.Building.Faithful
import Crossing.Proofs.Building.Determined

/-!
# When building ends in a fault

A task is doomed when some array in it has no known length, when its parts go on forever, or when a
recognizer asks for a type that breaks a rule (`Task.Doomed`); the standard recognizers never do
(`Task.not_misformed_ofItem`). What is doomed yields nothing, and a builder that fails to build
something shows that it is doomed: a declaration or a buffer struct that is entered inside itself
would be entered there again and again (`Inside`, `keeps_make_failure`).
-/

namespace Crossing.Building

variable {m : TypeModel}

namespace Task

/-- At some depth there is an array whose length is not known and whose elements have a type. -/
inductive Lengthless (m : TypeModel) : Task → Prop where
  | here {s : Site} {via : Via} {e : TypeExpr} {length : ArrayLength} {t : InterfaceType}
      (unknown : length.value? = none)
      (element : Yields m (.follow (s.inside via) (m.recipe s.scope e)) (.ok t)) :
      Lengthless m (.follow s (.wrap via e (.array length)))
  | deeper {task part : Task} (below : part.Below m task) (lengthless : Lengthless m part) :
      Lengthless m task

/-- There are parts of parts without end. -/
def Endless (m : TypeModel) (task : Task) : Prop :=
  ∃ chain : ℕ → Task, chain 0 = task ∧ ∀ i, (chain (i + 1)).Below m (chain i)

theorem endless_iff {task : Task} : task.Endless m ↔ ¬ Acc (Below m) task := by
  rw [acc_iff_isEmpty_descending_chain, not_isEmpty_iff]
  exact ⟨fun ⟨chain, h⟩ => ⟨⟨chain, h⟩⟩, fun ⟨⟨chain, h⟩⟩ => ⟨chain, h⟩⟩

/-- At some depth a type is asked for that breaks a rule of its kind. -/
inductive Misformed (m : TypeModel) : Task → Prop where
  | here {s : Site} {parts : List InterfaceType} {reason : String} :
      Misformed m (.follow s (.illFormed parts reason))
  | deeper {task part : Task} (below : part.Below m task) (misformed : Misformed m part) :
      Misformed m task

/-- The task cannot be carried out. -/
def Doomed (m : TypeModel) (task : Task) : Prop :=
  task.Lengthless m ∨ task.Endless m ∨ task.Misformed m

/-- A fault shows what it is that cannot be carried out. -/
def DoomedBy (m : TypeModel) (task : Task) : Fault → Prop
  | .lengthless => task.Lengthless m
  | .endless _ => task.Endless m
  | .illFormed _ => task.Misformed m

theorem DoomedBy.doomed {task : Task} {fault : Fault} (h : task.DoomedBy m fault) :
    task.Doomed m := by
  cases fault with
  | lengthless => exact .inl h
  | endless name => exact .inr (.inl h)
  | illFormed reason => exact .inr (.inr h)

theorem DoomedBy.of_part {task part : Task} (hpart : part.Below m task) {fault : Fault}
    (h : part.DoomedBy m fault) : task.DoomedBy m fault := by
  cases fault with
  | lengthless => exact .deeper hpart h
  | endless name => exact endless_iff.2 fun hacc => endless_iff.1 h (hacc.inv hpart)
  | illFormed reason => exact .deeper hpart h

/-- A part of a task is the task of an expression, or else the contents of a nominal type. -/
theorem eq_of_below {task part : Task} (h : part.Below m task) :
    (∃ s e, part = .follow s (m.recipe s.scope e)) ∨ ∃ n, part = .contents n := by
  obtain ⟨inPlace, hmem⟩ := h
  unfold parts at hmem
  split at hmem
  case h_5 =>
    split at hmem
    all_goals simp only [List.mem_singleton, List.not_mem_nil, Prod.mk.injEq] at hmem
    · exact .inl ⟨_, _, hmem.2⟩
    all_goals exact .inr ⟨_, hmem.2⟩
  all_goals simp only [List.mem_map, List.mem_singleton, List.not_mem_nil, Prod.mk.injEq] at hmem
  case h_1 | h_4 => exact .inl ⟨_, _, hmem.2⟩
  all_goals
    obtain ⟨e, -, -, rfl⟩ := hmem
    exact .inl ⟨_, _, rfl⟩

/-- The recipe of the task asks for nothing that breaks a rule. -/
def Formed (task : Task) : Prop := ∀ s parts reason, task ≠ .follow s (.illFormed parts reason)

theorem formed_recipe (hstandard : m.recognizers = .standard) (s : Site) (scope : List String)
    (e : TypeExpr) : (Task.follow s (m.recipe scope e)).Formed := by
  rintro _ parts reason h
  exact TypeModel.not_hasFixed hstandard
    ((m.sane_recipe scope e).illFormed parts reason (Task.follow.inj h).2)

theorem Formed.not_misformed (hstandard : m.recognizers = .standard) {task : Task}
    (h : task.Formed) : ¬ task.Misformed m := by
  intro hmisformed
  induction hmisformed with
  | here => exact h _ _ _ rfl
  | deeper below _ ih =>
    refine ih ?_
    obtain ⟨s, e, rfl⟩ | ⟨n, rfl⟩ := eq_of_below below
    · exact formed_recipe hstandard s s.scope e
    · exact nofun

/-- Nothing in an item breaks a rule where the recognizers are the standard ones. -/
theorem not_misformed_ofItem (hstandard : m.recognizers = .standard) (item : ExportItem) :
    ¬ (Task.ofItem m item).Misformed m := by
  refine Formed.not_misformed hstandard ?_
  unfold ofItem
  simp only
  split
  · exact nofun
  · exact formed_recipe hstandard _ _ _
  · exact formed_recipe hstandard _ _ _

end Task

theorem Yields.not_doomed {task : Task} {o : Outcome} (h : Yields m task o) : ¬ task.Doomed m := by
  rintro (hlengthless | hendless | hmisformed)
  · induction hlengthless generalizing o with
    | here unknown element =>
      cases h with
      | wrap part around => simp [Wrapper.around, unknown] at around
      | wrapFailed part => exact absurd (part.unique element) (by simp)
    | deeper below _ ih =>
      obtain ⟨o', ho'⟩ := h.exists_of_part below
      exact ih ho'
  · exact Task.endless_iff.1 hendless h.acc
  · induction hmisformed generalizing o with
    | here => cases h
    | deeper below _ ih =>
      obtain ⟨o', ho'⟩ := h.exists_of_part below
      exact ih ho'

/-- A recipe is regular when it follows nominal types of the index, and enters structs for their own
elements. -/
structure Recipe.Regular (m : TypeModel) (r : Recipe) : Prop where
  known : r.Known m
  buffer : ∀ n e holding, r = .buffer n e holding →
    n ∈ m.index.nominals ∧ ∃ mutable, Rule.elements? n = some (e, mutable)

theorem TypeModel.regular_recipe (scope : List String) (e : TypeExpr) :
    (m.recipe scope e).Regular m := by
  refine ⟨m.known_recipe scope e, fun n e' holding h => ?_⟩
  obtain ⟨hn, helements⟩ := (m.sane_recipe scope e).buffer n e' holding h
  exact ⟨NominalIndex.resolve_mem hn, helements⟩

/-- The place with nothing on record of what has been entered. -/
def Site.free (m : TypeModel) (s : Site) : Site :=
  { s with unexpanded := m.index.names, unentered := m.index.names }

namespace Task

def free (m : TypeModel) : Task → Task
  | .follow s r => .follow (s.free m) r
  | .contents n => .contents n

/-- Up to what has been entered, the task `b` is a part of `a`. -/
def Within (m : TypeModel) (b a : Task) : Prop :=
  ∃ part : Task, part.Below m a ∧ part.free m = b

/-- What has been entered makes no difference to the parts of a task, but for that record. -/
theorem map_parts_free (task : Task) :
    ((task.free m).parts m).map (fun p => p.2.free m) = (task.parts m).map fun p => p.2.free m := by
  rcases task with ⟨s, r⟩ | n
  · cases r with
    | named n mention =>
      have hreference : m.reference (s.free m) n mention = m.reference s n mention := rfl
      simp only [free, parts, hreference]
      cases m.reference s n mention <;> rfl
    | tuple es =>
      simp only [free, parts, List.map_map]
      rfl
    | function params ret holding =>
      simp only [free, parts, List.map_map]
      rfl
    | _ => rfl
  · rfl

theorem within_of_below {task part : Task} (h : part.Below m task) :
    Within m (part.free m) (task.free m) := by
  obtain ⟨inPlace, h⟩ := h
  have hmem := List.mem_map_of_mem (f := fun p : Bool × Task => p.2.free m) h
  rw [← map_parts_free] at hmem
  obtain ⟨p, hp, heq⟩ := List.mem_map.1 hmem
  exact ⟨p.2, ⟨p.1, hp⟩, heq⟩

theorem acc_free {task : Task} (h : Acc (Below m) task) : Acc (Within m) (task.free m) := by
  refine h.of_fibration (free m) fun a b hb => ?_
  obtain ⟨part, ⟨inPlace, hpart⟩, rfl⟩ := hb
  have hmem := List.mem_map_of_mem (f := fun p : Bool × Task => p.2.free m) hpart
  rw [map_parts_free] at hmem
  obtain ⟨p, hp, heq⟩ := List.mem_map.1 hmem
  exact ⟨p.2, ⟨p.1, hp⟩, heq⟩

/-- A task that is somewhere inside itself is endless. -/
theorem endless_of_cycle {task : Task}
    (h : Relation.TransGen (Within m) (task.free m) (task.free m)) : task.Endless m := by
  rw [endless_iff]
  intro hacc
  have hirrefl : ∀ t, Acc (Relation.TransGen (Within m)) t →
      ¬ Relation.TransGen (Within m) t t := by
    intro t ht
    induction ht with
    | intro t _ ih => exact fun hcycle => ih t hcycle hcycle
  exact hirrefl _ (acc_free hacc).transGen h

end Task

/-- What has been entered on the way to a task `now`, which stands in itself at `s`: it is inside the
contents of every declaration that has been entered, and inside the elements of every buffer struct
that has been entered since the innermost of them, or of an alias, was. -/
structure Inside (m : TypeModel) (s : Site) (now : Task) : Prop where
  expanded : ∀ n ∈ m.index.nominals, n.name ∉ s.unexpanded →
    Relation.ReflTransGen (Task.Within m) now (.contents n)
  entered : ∀ n ∈ m.index.nominals, n.name ∉ s.unentered →
    ∀ e mutable, Rule.elements? n = some (e, mutable) →
      Relation.ReflTransGen (Task.Within m) now
        (.follow ((TypeModel.enter s n).free m) (m.recipe n.scope e))

namespace Inside

variable {s : Site} {now next : Task}

theorem name_mem {n : Nominal} (hn : n ∈ m.index.nominals) : n.name ∈ m.index.names :=
  List.mem_map_of_mem hn

/-- Nothing has been entered where building begins. -/
theorem begin (scope : List String) (owner : Option String) (via : Via) (isDeclaration : Bool) :
    Inside m { m.site scope with owner, via, isDeclaration } now :=
  ⟨fun _ hn h => absurd (name_mem hn) h, fun _ hn h => absurd (name_mem hn) h⟩

theorem inside (h : Inside m s now) (via : Via) (hnext : Task.Within m next now) :
    Inside m (s.inside via) next :=
  ⟨fun n hn hname => .head hnext (h.expanded n hn hname),
    fun n hn hname e mutable he => .head hnext (h.entered n hn hname e mutable he)⟩

theorem enter (hnodup : m.index.names.Nodup) {n : Nominal} (hn : n ∈ m.index.nominals)
    {e : TypeExpr} {mutable : Bool} (he : Rule.elements? n = some (e, mutable)) (h : Inside m s now)
    (hnext : Task.Within m (.follow ((TypeModel.enter s n).free m) (m.recipe n.scope e)) now) :
    Inside m (TypeModel.enter s n)
      (.follow ((TypeModel.enter s n).free m) (m.recipe n.scope e)) := by
  refine ⟨fun n' hn' hname => .head hnext (h.expanded n' hn' hname), ?_⟩
  intro n' hn' hname e' mutable' he'
  by_cases heq : n'.name = n.name
  · obtain rfl := NominalIndex.eq_of_name_eq hnodup hn' hn heq
    obtain ⟨rfl, -⟩ := Prod.mk.inj (Option.some.inj (he.symm.trans he'))
    exact .refl
  · refine .head hnext (h.entered n' hn' (fun hmem => hname ?_) e' mutable' he')
    exact (List.mem_erase_of_ne heq).2 hmem

theorem openAlias (h : Inside m s now) (n : Nominal) (hnext : Task.Within m next now) :
    Inside m (m.openAlias s n) next :=
  ⟨fun n' hn' hname => .head hnext (h.expanded n' hn' hname),
    fun _ hn' hname => absurd (name_mem hn') hname⟩

theorem expand (hnodup : m.index.names.Nodup) {n : Nominal} (hn : n ∈ m.index.nominals)
    (h : Inside m s now) (hcontents : Task.Within m (.contents n) now)
    (hnext : Task.Within m next (.contents n)) : Inside m (m.expand s n) next := by
  refine ⟨fun n' hn' hname => ?_, fun _ hn' hname => absurd (name_mem hn') hname⟩
  by_cases heq : n'.name = n.name
  · obtain rfl := NominalIndex.eq_of_name_eq hnodup hn' hn heq
    exact .single hnext
  · refine .head hnext (.head hcontents (h.expanded n' hn' fun hmem => hname ?_))
    exact (List.mem_erase_of_ne heq).2 hmem

end Inside

theorem Wrapper.around_eq_error {w : Wrapper} {t : InterfaceType} {fault : Fault}
    (h : w.around t = .error fault) :
    fault = .lengthless ∧ ∃ length, w = .array length ∧ length.value? = none := by
  cases w with
  | array length =>
    unfold around at h
    cases hvalue : length.value? with
    | none =>
      simp only [hvalue] at h
      exact ⟨(Except.error.inj h).symm, length, rfl, hvalue⟩
    | some n => simp [hvalue] at h
  | buffer | optional | pointer => simp [around] at h

theorem mem_of_mem_labelledFields {fields : List NativeField} {x : String × NativeField}
    (h : x ∈ labelledFields 0 fields) : x.2 ∈ fields := by
  rw [← map_snd_labelledFields 0 fields]
  exact List.mem_map_of_mem h

theorem mem_of_mem_tagVariants {variants : List NativeVariant} {v : TaggedVariant}
    (h : v ∈ tagVariants 0 [] variants) : v.variant ∈ variants := by
  rw [← map_variant_tagVariants 0 [] variants]
  exact List.mem_map_of_mem h

theorem Nominal.type_mem_of_field {n : Nominal} {fields : List NativeField}
    (hbody : n.structFields? = some fields) {f : NativeField} (hf : f ∈ fields) :
    f.type ∈ n.types := by
  unfold Nominal.structFields? at hbody
  split at hbody
  · rename_i fs style hdeclaration
    obtain rfl := Option.some.inj hbody
    rw [Nominal.types, hdeclaration]
    exact List.mem_map_of_mem hf
  · simp at hbody

theorem Nominal.type_mem_of_variant {n : Nominal} {variants : List NativeVariant}
    (hbody : n.declaration.body = .enumeration variants) {v : NativeVariant} (hv : v ∈ variants)
    {f : NativeField} (hf : f ∈ v.fields) : f.type ∈ n.types := by
  rw [Nominal.types, hbody]
  exact List.mem_flatMap.2 ⟨v, hv, List.mem_map_of_mem hf⟩

namespace Builder

/-- Where a part is doomed, the task is. -/
theorem keeps_part_failure {task : Task} {place : Site} {e : TypeExpr}
    (hpart : Task.Below m (.follow (place.whole m) (m.recipe place.scope e)) task)
    (h : Keeps (Faithful m) (make m place (m.recipe place.scope e))
      (OnFailure ((Task.follow (place.whole m) (m.recipe place.scope e)).DoomedBy m))) :
    Keeps (Faithful m) (build m place e) (OnFailure (task.DoomedBy m)) :=
  keeps_build (h.imp_failure fun _ hdoomed => hdoomed.of_part hpart)

section Named

variable {s : Site} {n : Nominal} {P : Fault → Prop}

theorem keeps_makeRecord_failure {fields : List NativeField}
    (h : ∀ f ∈ fields, Keeps (Faithful m) (build m (m.expand s n) f.type) (OnFailure P)) :
    Keeps (Faithful m) (makeRecord m s n fields) (OnFailure P) :=
  Keeps.bindFailure (keeps_makeFields_failure fun x hx => h x.2 (mem_of_mem_labelledFields hx))
    fun _ => (keeps_keepOutcome _).unfailing

theorem keeps_makeUnion_failure {variants : List NativeVariant}
    (h : ∀ v ∈ variants, ∀ f ∈ v.fields,
      Keeps (Faithful m) (build m (m.expand s n) f.type) (OnFailure P)) :
    Keeps (Faithful m) (makeUnion m s n variants) (OnFailure P) := by
  refine Keeps.bindFailure (Keeps.mapMFailure fun v hv => ?_) fun _ =>
    (keeps_keepOutcome _).unfailing
  refine Keeps.bindFailure (keeps_makeFields_failure fun x hx => ?_) fun _ => Keeps.pure trivial
  exact h v.variant (mem_of_mem_tagVariants hv) x.2 (mem_of_mem_labelledFields hx)

variable {mention : TypeExpr}

/-- A declaration that has been entered on the way to a mention of it is inside itself. -/
theorem endless_of_expanded (hn : n ∈ m.index.nominals)
    (hin : Inside m s (.follow (s.free m) (.named n mention)))
    (hwhole : Task.Below m (.contents n) (.follow (s.whole m) (.named n mention)))
    (hname : n.name ∉ s.unexpanded) : (Task.follow (s.whole m) (.named n mention)).Endless m :=
  Task.endless_of_cycle (.tail' (hin.expanded n hn hname) (Task.within_of_below hwhole))

theorem below_of_alias {target : TypeExpr} (href : m.reference s n mention = .alias target) :
    Task.Below m (.follow ((m.openAlias s n).whole m) (m.recipe n.scope target))
      (.follow (s.whole m) (.named n mention)) := by
  have href' : m.reference (s.whole m) n mention = .alias target := href
  exact ⟨false, by simp [Task.parts, href']; rfl⟩

theorem below_of_record {fields : List NativeField}
    (href : m.reference s n mention = .record fields) :
    Task.Below m (.contents n) (.follow (s.whole m) (.named n mention)) := by
  have href' : m.reference (s.whole m) n mention = .record fields := href
  exact ⟨false, by simp [Task.parts, href']⟩

theorem below_of_union {variants : List NativeVariant}
    (href : m.reference s n mention = .union variants) :
    Task.Below m (.contents n) (.follow (s.whole m) (.named n mention)) := by
  have href' : m.reference (s.whole m) n mention = .union variants := href
  exact ⟨false, by simp [Task.parts, href']⟩

theorem keeps_field_failure (hnodup : m.index.names.Nodup) (hn : n ∈ m.index.nominals)
    (hin : Inside m s (.follow (s.free m) (.named n mention)))
    (hwhole : Task.Below m (.contents n) (.follow (s.whole m) (.named n mention))) {e : TypeExpr}
    (he : e ∈ n.types)
    (h : Inside m (m.expand s n) (.follow ((m.expand s n).free m) (m.recipe n.scope e)) →
      Keeps (Faithful m) (make m (m.expand s n) (m.recipe n.scope e))
        (OnFailure ((Task.follow ((m.expand s n).whole m) (m.recipe n.scope e)).DoomedBy m))) :
    Keeps (Faithful m) (build m (m.expand s n) e)
      (OnFailure ((Task.follow (s.whole m) (.named n mention)).DoomedBy m)) := by
  have hpart : Task.Below m (.follow ((m.expand s n).whole m) (m.recipe n.scope e)) (.contents n) :=
    Task.below_contents.2 ⟨e, he, rfl⟩
  have hin' := hin.expand hnodup hn (Task.within_of_below hwhole) (Task.within_of_below hpart)
  exact (keeps_part_failure hpart (h hin')).imp_failure fun _ hdoomed => hdoomed.of_part hwhole

end Named

/-- A builder fails only at what is doomed, and its fault says why it is. -/
theorem keeps_make_failure (hnodup : m.index.names.Nodup) (s : Site) (r : Recipe)
    (hr : r.Regular m) (hin : Inside m s (.follow (s.free m) r)) :
    Keeps (Faithful m) (make m s r) (OnFailure ((Task.follow (s.whole m) r).DoomedBy m)) := by
  have hregular := TypeModel.regular_recipe (m := m)
  have hvalue := fun s scope e => keeps_make hnodup s (m.recipe scope e) (m.known_recipe scope e)
  -- The induction of `make`, with what has been entered. A part that is doomed dooms the task; where
  -- the builder fails because it has been there, the task is inside itself.
  induction s, r using make_induction with
  | exact s t =>
    rw [make_exact]
    exact (keeps_keepAll t).unfailing
  | refuse s problem =>
    rw [make_refuse]
    exact Keeps.pure trivial
  | illFormed s parts reason =>
    rw [make_illFormed]
    exact Keeps.bindFailure (Keeps.forMFailure fun t => (keeps_keepAll t).map.unfailing)
      fun _ => Keeps.throw Task.Misformed.here
  | wrap s via part wrapper ih =>
    have hpart : Task.Below m (.follow ((s.inside via).whole m) (m.recipe s.scope part))
        (.follow (s.whole m) (.wrap via part wrapper)) := ⟨_, List.mem_singleton_self _⟩
    have hih := ih _ (hregular s.scope part) (hin.inside via (Task.within_of_below hpart))
    rw [make_wrap]
    refine Keeps.bind ((keeps_part_failure hpart hih).and (keeps_build (hvalue _ _ _)))
      (fun _ he => he.1) fun o ho => ?_
    cases o with
    | error ps => exact Keeps.pure trivial
    | ok t =>
      refine Keeps.bindFailure (Keeps.liftExcept ?_) fun o => (keeps_keepOutcome o).unfailing
      cases haround : wrapper.around t with
      | ok o => trivial
      | error fault =>
        obtain ⟨rfl, length, rfl, hunknown⟩ := Wrapper.around_eq_error haround
        exact Task.Lengthless.here (s := s.whole m) hunknown ho.2
  | tuple s parts ih =>
    rw [make_tuple]
    refine Keeps.bindFailure (Keeps.mapMFailure fun p hp => ?_) fun _ =>
      (keeps_keepOutcome _).unfailing
    have hpart : Task.Below m (.follow ((s.inside .value).whole m) (m.recipe s.scope p))
        (.follow (s.whole m) (.tuple parts)) := Task.below_tuple.2 ⟨p, hp, rfl⟩
    exact keeps_part_failure hpart
      (ih p hp _ (hregular s.scope p) (hin.inside .value (Task.within_of_below hpart)))
  | function s params ret holding ih =>
    have hparts : ∀ e ∈ params ++ ret.types, Keeps (Faithful m) (build m (s.inside .function) e)
        (OnFailure ((Task.follow (s.whole m) (.function params ret holding)).DoomedBy m)) := by
      intro e he
      have hpart : Task.Below m (.follow ((s.inside .function).whole m) (m.recipe s.scope e))
          (.follow (s.whole m) (.function params ret holding)) :=
        Task.below_function.2 ⟨e, he, rfl⟩
      exact keeps_part_failure hpart
        (ih e he _ (hregular s.scope e) (hin.inside .function (Task.within_of_below hpart)))
    rw [make_function]
    refine Keeps.bindFailure (Keeps.mapMFailure fun p hp => hparts p (List.mem_append_left _ hp))
      fun _ => Keeps.bindFailure ?_ fun _ => (keeps_keepOutcome _).unfailing
    exact keeps_makeReturn_failure fun e he => hparts e (List.mem_append_right _ he)
  | buffer s n element holding ih =>
    obtain ⟨hn, mutable, helements⟩ := hr.buffer n element holding rfl
    have hpart : Task.Below m (.follow ((TypeModel.enter s n).whole m) (m.recipe n.scope element))
        (.follow (s.whole m) (.buffer n element holding)) := ⟨_, List.mem_singleton_self _⟩
    have hwithin := Task.within_of_below hpart
    rw [make_buffer]
    split
    · rename_i hname
      refine Keeps.bindFailure (keeps_part_failure hpart (ih hname _ (hregular n.scope element)
        (hin.enter hnodup hn helements hwithin))) fun o => ?_
      cases o with
      | ok t => exact (keeps_keep _).map.unfailing
      | error ps => exact Keeps.pure trivial
    · rename_i hname
      refine Keeps.throw (Task.endless_of_cycle ?_)
      exact .tail' (hin.entered n hn hname element mutable helements) hwithin
  | refused s n mention problem href =>
    rw [make_refused href]
    exact Keeps.pure trivial
  | handled s n mention href =>
    rw [make_handle href]
    obtain ⟨number, hnumber⟩ := TypeModel.exists_number (hr.known n mention rfl) href
    exact (keeps_handle hnumber).unfailing
  | opened s n mention target href ih =>
    have hpart := below_of_alias href
    rw [make_alias href]
    exact keeps_part_failure hpart
      (ih _ (hregular n.scope target) (hin.openAlias n (Task.within_of_below hpart)))
  | record s n mention fields href ih =>
    have hn := hr.known n mention rfl
    have hbody := TypeModel.fields_of_reference href
    have hwhole := below_of_record href
    rw [make_record href]
    refine (keeps_remembered (Q := fun r => OnValue (Yields m (.contents n)) r ∧ OnFailure _ r)
      hnodup hn ?_ fun _ => and_iff_left trivial).mono fun _ hr => hr.2
    split
    · rename_i hname
      refine (keeps_makeRecord hbody fun f => keeps_build (hvalue _ _ _)).and
        (keeps_makeRecord_failure fun f hf => ?_)
      exact keeps_field_failure hnodup hn hin hwhole (Nominal.type_mem_of_field hbody hf)
        (ih hname f _ (hregular _ _))
    · exact Keeps.throw ⟨trivial, endless_of_expanded hn hin hwhole ‹_›⟩
  | emptyUnion s n mention href =>
    rw [make_emptyUnion href]
    exact Keeps.pure trivial
  | union s n mention variants hne href ih =>
    have hn := hr.known n mention rfl
    have hbody := TypeModel.variants_of_reference href
    have hwhole := below_of_union href
    rw [make_union hne href]
    refine (keeps_remembered (Q := fun r => OnValue (Yields m (.contents n)) r ∧ OnFailure _ r)
      hnodup hn ?_ fun _ => and_iff_left trivial).mono fun _ hr => hr.2
    split
    · rename_i hname
      refine (keeps_makeUnion hbody fun f => keeps_build (hvalue _ _ _)).and
        (keeps_makeUnion_failure fun v hv f hf => ?_)
      exact keeps_field_failure hnodup hn hin hwhole (Nominal.type_mem_of_variant hbody hv hf)
        (ih hname f _ (hregular _ _))
    · exact Keeps.throw ⟨trivial, endless_of_expanded hn hin hwhole ‹_›⟩

end Builder

end Crossing.Building
