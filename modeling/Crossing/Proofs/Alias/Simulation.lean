import Crossing.Proofs.Alias.Recipes
import Crossing.Proofs.Building.Reopened

/-!
# Tasks where an alias is replaced

A task and the same task with mentions of an alias replaced form the same types
(`Inlining.forms_iff_forms`). The two go step by step: their parts are related again, and the types
of the parts are put together alike (`Inlining.parts_follow`, `Inlining.gather_follow`). Only at a
replaced mention the first task takes a step, into the target of the alias, that the second does
not.
-/

namespace Crossing.Building

variable {m m' : TypeModel} {a : Nominal}

/-- Places that stand behind the same indirections in the same declaration. -/
structure Site.Alike (s s' : Site) : Prop where
  owner : s'.owner = s.owner
  via : s'.via = s.via
  isDeclaration : s'.isDeclaration = s.isDeclaration

theorem Site.Alike.inside {s s' : Site} (h : s.Alike s') (via : Via) :
    (s.inside via).Alike (s'.inside via) :=
  ⟨h.owner, by simp only [Site.inside, h.owner, h.via], rfl⟩

/-- `Task.Inlined m m' a task task'`: the second task is the first with mentions of the alias
replaced by its target. -/
inductive Task.Inlined (m m' : TypeModel) (a : Nominal) : Task → Task → Prop where
  | follow {s s' : Site} {r r' : Recipe} (site : s.Alike s')
      (recipe : r.Alike m.index m'.index a
        (TypeExpr.Inlined m.index m'.index a s.scope s'.scope) r') :
      Inlined m m' a (.follow s r) (.follow s' r')
  | contents {n n' : Nominal} (nominal : Nominal.Inlined m.index m'.index a n n') :
      Inlined m m' a (.contents n) (.contents n')
  | opened {s : Site} {mention t : TypeExpr} {task' : Task}
      (reference : m.reference (s.reopened m) a mention = .alias t)
      (part : Inlined m m' a (.follow (m.openAlias (s.reopened m) a) (m.recipe a.scope t)) task') :
      Inlined m m' a (.follow s (.named a mention)) task'

/-- Mentions that are taken alike. -/
inductive Reference.Alike (index index' : NominalIndex) (a n : Nominal) :
    Reference → Reference → Prop where
  | refuse (p p' : Problem) : Alike index index' a n (.refuse p) (.refuse p')
  | handle : Alike index index' a n .handle .handle
  | alias {t t' : TypeExpr} (target : t.Inlined index index' a n.scope n.scope t') :
      Alike index index' a n (.alias t) (.alias t')
  | record (fs fs' : List NativeField) : Alike index index' a n (.record fs) (.record fs')
  | union {vs vs' : List NativeVariant} (isEmpty : vs.isEmpty = vs'.isEmpty) :
      Alike index index' a n (.union vs) (.union vs')

section Contents

variable {R : TypeExpr → TypeExpr → Prop}

theorem Return.Alike.gather_eq {r r' : Return} (h : r.Alike R r') : r.gather = r'.gather := by
  funext ts
  cases h with
  | value => rcases ts with _ | ⟨t, _ | _⟩ <;> rfl
  | fallible => rcases ts with _ | ⟨t, _ | ⟨e, _ | _⟩⟩ <;> rfl
  | malformed => rfl

theorem labels_eq {fs fs' : List NativeField} (h : List.Forall₂ (NativeField.Alike R) fs fs')
    (first : Nat) : (labelledFields first fs).map (·.1) = (labelledFields first fs').map (·.1) := by
  induction h generalizing first with
  | nil => rfl
  | cons hf _ ih =>
    rw [labelledFields, labelledFields, List.map_cons, List.map_cons, ih, NativeField.label,
      NativeField.label, hf.name]

theorem gatherFields_eq {fs fs' : List NativeField}
    (h : List.Forall₂ (NativeField.Alike R) fs fs') (ts : List InterfaceType) :
    gatherFields fs ts = gatherFields fs' ts := by
  have hzip (fs : List NativeField) : gatherFields fs ts
      = List.zipWith (fun l t => ⟨l, t⟩) ((labelledFields 0 fs).map (·.1)) ts := by
    rw [List.zipWith_map_left, gatherFields]
  rw [hzip, hzip, labels_eq h]

/-- Variants that differ in the types of their fields only, with one tag. -/
structure TaggedVariant.Alike (R : TypeExpr → TypeExpr → Prop) (v v' : TaggedVariant) : Prop where
  variant : v.variant.Alike R v'.variant
  tag : v'.tag = v.tag
  clash : v'.clash = v.clash

theorem forall₂_tagVariants {vs vs' : List NativeVariant}
    (h : List.Forall₂ (NativeVariant.Alike R) vs vs') (next : Int) (taken : List (Int × String)) :
    List.Forall₂ (TaggedVariant.Alike R) (tagVariants next taken vs)
      (tagVariants next taken vs') := by
  induction h generalizing next taken with
  | nil => exact .nil
  | cons hv _ ih =>
    rw [tagVariants, tagVariants]
    simp only [hv.discriminant, hv.name]
    exact .cons ⟨hv, rfl, rfl⟩ (ih _ _)

theorem tagProblems_eq (name : String) {vs vs' : List TaggedVariant}
    (h : List.Forall₂ (TaggedVariant.Alike R) vs vs') :
    tagProblems name vs = tagProblems name vs' := by
  unfold tagProblems
  rw [Related.map_eq (fun v v' hv => hv.tag.symm) h, Related.flatMap_eq (fun v v' hv => ?_) h]
  rw [TaggedVariant.problems, TaggedVariant.problems, hv.clash, hv.variant.name, hv.tag]

theorem gatherVariants_eq {vs vs' : List TaggedVariant}
    (h : List.Forall₂ (TaggedVariant.Alike R) vs vs') (ts : List InterfaceType) :
    gatherVariants vs ts = gatherVariants vs' ts := by
  induction h generalizing ts with
  | nil => rfl
  | cons hv _ ih =>
    rw [gatherVariants, gatherVariants, ih, hv.variant.name, hv.tag, hv.variant.fields.length_eq,
      gatherFields_eq hv.variant.fields]

/-- The contents of a nominal type are put together alike. -/
theorem gatherContents_eq {index index' : NominalIndex} {n n' : Nominal}
    (hn : Nominal.Inlined index index' a n n') : gatherContents n = gatherContents n' := by
  funext ts
  have hbody := hn.body
  unfold gatherContents
  rw [hn.name]
  generalize n.declaration.body = body, n'.declaration.body = body' at hbody
  cases hbody with
  | struct fields => simp only [gatherFields_eq fields]
  | enumeration variants =>
    have htagged := forall₂_tagVariants variants 0 []
    simp only [tagProblems_eq _ htagged, gatherVariants_eq htagged]
  | _ => rfl

end Contents

namespace TypeModel.Inlining

variable (h : m.Inlining m' a)
include h

theorem inlined_recipe {scope scope' : List String} {e e' : TypeExpr}
    (he : e.Inlined m.index m'.index a scope scope' e') :
    ∀ s s' : Site, s.scope = scope → s'.scope = scope' → s.Alike s' →
      Task.Inlined m m' a (.follow s (m.recipe s.scope e))
        (.follow s' (m'.recipe s'.scope e')) := by
  induction he with
  | layer inner alike =>
    rintro s s' rfl rfl hs
    exact .follow hs (h.recipe_alike (alike.mono inner))
  | @opened scope scope' e t e' meaning args name target inlined ih =>
    rintro s s' rfl rfl hs
    rw [h.recipe_mention meaning args name target]
    refine .opened (t := t) ?_ (ih _ _ rfl rfl ⟨hs.owner, hs.via, hs.isDeclaration⟩)
    have hname : a.name ∈ m.index.names := List.mem_map_of_mem h.index.mem
    unfold Nominal.aliasTarget? at target
    split at target
    · obtain rfl := Option.some.inj target
      rename_i hbody
      simp [TypeModel.reference, h.index.generics, args, hbody, Site.reopened, hname]
    · simp at target

theorem content_alike {s s' : Site} {n n' : Nominal} {e e' : TypeExpr} {whole whole' : Reference}
    (hs : s.Alike s') (hn : Nominal.Inlined m.index m'.index a n n')
    (hwhole : whole.Alike m.index m'.index a n whole') :
    (m.content s n e whole).Alike m.index m'.index a n (m'.content s' n' e' whole') := by
  unfold TypeModel.content
  simp only [h.graph, hs.owner, hs.via, hs.isDeclaration, hn.name, ← hn.hasPrivateFields]
  split
  · exact .handle
  split
  · exact .refuse _ _
  split
  · exact .refuse _ _
  split
  · split
    · exact .handle
    · exact .refuse _ _
  split
  · exact .refuse _ _
  · exact hwhole

theorem reference_alike {s s' : Site} {n n' : Nominal} {e e' : TypeExpr} (hs : s.Alike s')
    (hn : Nominal.Inlined m.index m'.index a n n') (hargs : e.args.isEmpty = e'.args.isEmpty) :
    (m.reference (s.reopened m) n e).Alike m.index m'.index a n
      (m'.reference (s'.reopened m') n' e') := by
  have hs : (s.reopened m).Alike (s'.reopened m') := ⟨hs.owner, hs.via, hs.isDeclaration⟩
  have hopen : (s'.reopened m').unopened.contains n'.name
      = (s.reopened m).unopened.contains n.name := by
    simp only [Site.reopened, hn.name, h.index.names_eq]
  have hbody := hn.body
  unfold TypeModel.reference
  simp only [hn.generics, hargs, hopen]
  split
  · exact .refuse _ _
  split
  · exact .refuse _ _
  generalize n.declaration.body = body, n'.declaration.body = body' at hbody
  cases hbody with
  | function => exact .refuse _ _
  | struct fields => exact h.content_alike hs hn (.record _ _)
  | enumeration variants => exact h.content_alike hs hn (.union (Related.isEmpty_eq variants))
  | «alias» target =>
    by_cases hc : (s.reopened m).unopened.contains n.name = true
    · simp only [if_pos hc]
      exact .alias target
    · simp only [if_neg hc]
      exact .refuse _ _
  | other kind => exact .refuse _ _

/-- Parts that are the same but for the replaced mentions. -/
abbrev PartsInlined (m m' : TypeModel) (a : Nominal) (task task' : Task) : Prop :=
  List.Forall₂ (fun p p' => Task.Inlined m m' a p.2 p'.2) ((task.reopened m).parts m)
    ((task'.reopened m').parts m')

section Follow

variable {s s' : Site} {r r' : Recipe} (hs : s.Alike s')
include hs

theorem parts_follow (hr : r.Alike m.index m'.index a
      (TypeExpr.Inlined m.index m'.index a s.scope s'.scope) r') :
    PartsInlined m m' a (.follow s r) (.follow s' r') := by
  have hopen : (s.reopened m).Alike (s'.reopened m') := ⟨hs.owner, hs.via, hs.isDeclaration⟩
  cases hr with
  | exact | refuse => exact .nil
  | wrap part => exact .cons (h.inlined_recipe part _ _ rfl rfl (hopen.inside _)) .nil
  | tuple parts =>
    exact Related.map_list (fun e e' he => h.inlined_recipe he _ _ rfl rfl (hopen.inside _)) parts
  | function params ret =>
    refine Related.map_list (fun e e' he => h.inlined_recipe he _ _ rfl rfl (hopen.inside _))
      (List.rel_append params ?_)
    cases ret with
    | value type => exact .cons type .nil
    | fallible type error => exact .cons type (.cons error .nil)
    | malformed => exact .nil
  | buffer nominal element =>
    exact .cons (h.inlined_recipe element _ _ rfl nominal.scope ⟨hs.owner, rfl, rfl⟩) .nil
  | @named n n' e e' nominal args =>
    have href := h.reference_alike hs nominal args
    generalize hx : m.reference (s.reopened m) n e = x,
      hx' : m'.reference (s'.reopened m') n' e' = x' at href
    simp only [PartsInlined, Task.reopened, Task.parts, hx, hx']
    cases href with
    | refuse | handle => exact .nil
    | «alias» target =>
      have hplace : (m.openAlias (s.reopened m) n).Alike (m'.openAlias (s'.reopened m') n') :=
        ⟨hs.owner, hs.via, hs.isDeclaration⟩
      exact .cons (h.inlined_recipe target _ _ rfl nominal.scope hplace) .nil
    | record | union => exact .cons (.contents nominal) .nil

theorem gather_follow (hr : r.Alike m.index m'.index a
      (TypeExpr.Inlined m.index m'.index a s.scope s'.scope) r') :
    ((Task.follow s r).reopened m).gather m = ((Task.follow s' r').reopened m').gather m' := by
  funext ts
  cases hr with
  | exact | refuse | tuple | buffer => rfl
  | wrap part finish => simp only [Task.reopened, Task.gather, finish]
  | function params ret =>
    simp only [Task.reopened, Task.gather, params.length_eq, ret.gather_eq]
  | @named n n' e e' nominal args =>
    have href := h.reference_alike hs nominal args
    generalize hx : m.reference (s.reopened m) n e = x,
      hx' : m'.reference (s'.reopened m') n' e' = x' at href
    simp only [Task.reopened, Task.gather, hx, hx']
    cases href with
    | handle => rw [h.graph, h.index.handled_eq, nominal.name]
    | @union vs vs' isEmpty => cases vs <;> cases vs' <;> simp_all
    | _ => rfl

end Follow

theorem parts_contents {n n' : Nominal} (hn : Nominal.Inlined m.index m'.index a n n') :
    PartsInlined m m' a (.contents n) (.contents n') :=
  Related.map_list (fun _ _ he => h.inlined_recipe he _ _ rfl hn.scope
    ⟨congrArg some hn.name, rfl, rfl⟩) hn.types

omit h in
/-- A step into the target of the alias. -/
theorem forms_opened {s : Site} {mention e : TypeExpr} {t : InterfaceType}
    (href : m.reference (s.reopened m) a mention = .alias e) :
    Forms m (.follow s (.named a mention)) t ↔
      Forms m (.follow (m.openAlias (s.reopened m) a) (m.recipe a.scope e)) t := by
  rw [forms_iff]
  simp only [PartsForm, Task.reopened, Task.parts, Task.gather, href, List.forall₂_cons_left_iff,
    List.forall₂_nil_left_iff]
  constructor
  · rintro ⟨_, ⟨u, _, hu, rfl, rfl⟩, ht⟩
    obtain rfl := Option.some.inj ht
    exact hu
  · exact fun ht => ⟨_, ⟨t, [], ht, rfl, rfl⟩, rfl⟩

/-- Whatever a task forms is formed where mentions are replaced. -/
theorem forms_of_forms {task : Task} {t : InterfaceType} (hforms : Forms m task t) :
    ∀ task', Task.Inlined m m' a task task' → Forms m' task' t := by
  induction hforms with
  | @together task made t parts forms whole ih =>
    intro task' hinlined
    have hparts := partsForm_of_made
      (P := fun part u => ∀ part', Task.Inlined m m' a part part' → Forms m' part' u) parts ih
    have htogether (hrel : PartsInlined m m' a task task')
        (hgather : (task.reopened m).gather m = (task'.reopened m').gather m') : Forms m' task' t :=
      forms_iff.2
        ⟨_, Related.compose (fun p p' u hp hu => hu p'.2 hp) hrel hparts, hgather ▸ whole⟩
    cases hinlined with
    | follow site recipe =>
      exact htogether (h.parts_follow site recipe) (h.gather_follow site recipe)
    | contents nominal => exact htogether (h.parts_contents nominal) (gatherContents_eq nominal)
    | opened reference part =>
      simp only [PartsForm, Task.reopened, Task.parts, reference, List.forall₂_cons_left_iff,
        List.forall₂_nil_left_iff] at hparts
      obtain ⟨u, _, hu, rfl, hts⟩ := hparts
      simp only [Task.reopened, Task.gather, reference, hts, List.head?_cons, Option.some.injEq]
        at whole
      exact whole ▸ hu task' part

/-- Whatever is formed where mentions are replaced is formed without. -/
theorem forms_of_inlined {task' : Task} {t : InterfaceType} (hforms : Forms m' task' t) :
    ∀ task, Task.Inlined m m' a task task' → Forms m task t := by
  induction hforms with
  | @together task' made t parts forms whole ih =>
    intro task hinlined
    have hparts := partsForm_of_made
      (P := fun part' u => ∀ part, Task.Inlined m m' a part part' → Forms m part u) parts ih
    have htogether {task : Task} (hrel : PartsInlined m m' a task task')
        (hgather : (task.reopened m).gather m = (task'.reopened m').gather m') : Forms m task t :=
      forms_iff.2
        ⟨_, Related.compose (fun p' p u hp hu => hu p.2 hp) hrel.flip hparts, hgather ▸ whole⟩
    -- A replaced mention is one step more, into the target, and that is related to the same task.
    induction hinlined with
    | follow site recipe =>
      exact htogether (h.parts_follow site recipe) (h.gather_follow site recipe)
    | contents nominal => exact htogether (h.parts_contents nominal) (gatherContents_eq nominal)
    | opened reference part ih => exact (forms_opened reference).2 (ih parts whole hparts htogether)

theorem forms_iff_forms {task task' : Task} (hinlined : Task.Inlined m m' a task task')
    (t : InterfaceType) : Forms m task t ↔ Forms m' task' t :=
  ⟨fun ht => h.forms_of_forms ht task' hinlined, fun ht => h.forms_of_inlined ht task hinlined⟩

end TypeModel.Inlining

end Crossing.Building
