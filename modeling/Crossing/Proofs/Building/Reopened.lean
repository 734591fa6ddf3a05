import Crossing.Proofs.Building.Halting
import Crossing.Proofs.Building.Made

/-!
# Aliases that stay open

An alias is not opened inside its own target. Only what never ends would be built otherwise: `Forms`
says what a task forms when every alias stays open, and where no alias has been opened yet, that is
what the task yields (`yields_iff_forms`). So nothing that is built depends on which aliases are
open.
-/

namespace Crossing.Building

open Relation (TransGen ReflTransGen)

variable {m : TypeModel}

/-- The place with all aliases open. -/
def Site.reopened (m : TypeModel) (s : Site) : Site := { s with unopened := m.index.names }

/-- The task with all aliases open. -/
def Task.reopened (m : TypeModel) : Task → Task
  | .follow s r => .follow (s.reopened m) r
  | .contents n => .contents n

/-- What a task forms when all aliases are open at every part of it. -/
inductive Forms (m : TypeModel) : Task → InterfaceType → Prop where
  | together {task : Task} {made : List ((Bool × Task) × InterfaceType)} {t : InterfaceType}
      (parts : (task.reopened m).parts m = made.map (·.1))
      (forms : ∀ p ∈ made, Forms m p.1.2 p.2)
      (whole : (task.reopened m).gather m (made.map (·.2)) = some t) : Forms m task t

section Forms

variable {task : Task} {t : InterfaceType}

/-- What the parts of a task form, with all aliases open. -/
def PartsForm (m : TypeModel) (P : Task → InterfaceType → Prop) (task : Task)
    (ts : List InterfaceType) : Prop :=
  List.Forall₂ (fun p u => P p.2 u) ((task.reopened m).parts m) ts

theorem partsForm_of_made {P : Task → InterfaceType → Prop}
    {made : List ((Bool × Task) × InterfaceType)}
    (hparts : (task.reopened m).parts m = made.map (·.1)) (hmade : ∀ p ∈ made, P p.1.2 p.2) :
    PartsForm m P task (made.map (·.2)) := by
  rw [PartsForm, hparts, List.forall₂_map_left_iff, List.forall₂_map_right_iff, List.forall₂_same]
  exact hmade

/-- A task forms a type exactly when its parts do and the types of the parts can be put together. -/
theorem forms_iff : Forms m task t ↔
    ∃ ts, PartsForm m (Forms m) task ts ∧ (task.reopened m).gather m ts = some t := by
  constructor
  · rintro (⟨parts, forms, whole⟩)
    exact ⟨_, partsForm_of_made parts forms, whole⟩
  · rintro ⟨ts, hparts, hwhole⟩
    obtain ⟨hlength, hzip⟩ := List.forall₂_iff_zip.1 hparts
    refine @Forms.together m task (((task.reopened m).parts m).zip ts) t ?_ (fun p hp => hzip hp) ?_
    · rw [List.map_fst_zip (Nat.le_of_eq hlength)]
    · rwa [List.map_snd_zip (Nat.le_of_eq hlength.symm)]

end Forms

theorem reference_reopened {s : Site} {n : Nominal} {mention : TypeExpr}
    (hn : n ∈ m.index.nominals) (hopen : n.isAlias = true → n.name ∈ s.unopened) :
    m.reference (s.reopened m) n mention = m.reference s n mention := by
  have hname : n.name ∈ m.index.names := List.mem_map_of_mem hn
  unfold TypeModel.reference
  cases hbody : n.declaration.body with
  | «alias» target =>
    have hs := hopen (by simp [Nominal.isAlias, Nominal.aliasTarget?, hbody])
    simp [Site.reopened, hname, hs]
  | _ => rfl

/-- To take the mention that the task is makes no difference to whether all aliases are open. -/
def Task.Steady (m : TypeModel) (task : Task) : Prop :=
  ∀ s n mention, task = .follow s (.named n mention) →
    m.reference (s.reopened m) n mention = m.reference s n mention

namespace Task.Steady

variable {task : Task}

/-- The parts of a task are those with all aliases open, as far as they are open. -/
theorem parts (h : task.Steady m) :
    ((task.reopened m).parts m).map (·.2.reopened m) = (task.parts m).map (·.2.reopened m) := by
  rcases task with ⟨s, r⟩ | n
  · cases r with
    | named n mention =>
      simp only [Task.reopened, Task.parts, h s n mention rfl]
      split <;> rfl
    | tuple es =>
      simp only [Task.reopened, Task.parts, List.map_map]
      rfl
    | function params ret holding =>
      simp only [Task.reopened, Task.parts, List.map_map]
      rfl
    | _ => rfl
  · rfl

theorem gather (h : task.Steady m) : (task.reopened m).gather m = task.gather m := by
  funext ts
  rcases task with ⟨s, r⟩ | n
  · cases r with
    | named n mention => simp only [Task.reopened, Task.gather, h s n mention rfl]
    | _ => rfl
  · rfl

/-- A statement about the parts that does not ask which aliases are open. -/
theorem forall₂_parts (h : task.Steady m) {Q : Task → InterfaceType → Prop}
    {ts : List InterfaceType} :
    List.Forall₂ (fun p u => Q (p.2.reopened m) u) ((task.reopened m).parts m) ts ↔
      List.Forall₂ (fun p u => Q (p.2.reopened m) u) (task.parts m) ts := by
  rw [← List.forall₂_map_left_iff (f := fun p : Bool × Task => p.2.reopened m) (R := Q), h.parts,
    List.forall₂_map_left_iff]

end Task.Steady

section Nested

/-- A recipe and the scope that it is followed from. -/
abbrev Spot := List String × Recipe

/-- `Nested m part whole`: whatever follows `whole` follows `part` for a part of it, without
entering a declaration. -/
inductive Nested (m : TypeModel) : Spot → Spot → Prop where
  | wrap {scope : List String} {via : Via} {e : TypeExpr} {w : Wrapper} :
      Nested m (scope, m.recipe scope e) (scope, .wrap via e w)
  | tuple {scope : List String} {e : TypeExpr} {es : List TypeExpr} (mem : e ∈ es) :
      Nested m (scope, m.recipe scope e) (scope, .tuple es)
  | function {scope : List String} {e : TypeExpr} {params : List TypeExpr} {ret : Return}
      {holding : Holding} (mem : e ∈ params ++ ret.types) :
      Nested m (scope, m.recipe scope e) (scope, .function params ret holding)
  | buffer {scope : List String} {n : Nominal} {e : TypeExpr} {holding : Holding} :
      Nested m (n.scope, m.recipe n.scope e) (scope, .buffer n e holding)
  | target {scope : List String} {n : Nominal} {mention target : TypeExpr}
      (body : n.declaration.body = .alias target) :
      Nested m (n.scope, m.recipe n.scope target) (scope, .named n mention)

variable {s : Site} {r : Recipe} {t : InterfaceType} {spot : Spot}

theorem exists_mem_parts {ts : List InterfaceType} (hnested : Nested m spot (s.scope, r))
    (hwhole : ((Task.follow s r).reopened m).gather m ts = some t) :
    ∃ inPlace place, (inPlace, .follow place spot.2) ∈ ((Task.follow s r).reopened m).parts m
      ∧ place.scope = spot.1 := by
  generalize hscope : s.scope = scope at hnested
  cases hnested with
  | @wrap _ via e w =>
    exact ⟨w.isInPlace, (s.reopened m).inside via, List.mem_singleton.2 (by rw [← hscope]; rfl),
      hscope⟩
  | tuple mem =>
    exact ⟨true, (s.reopened m).inside .value,
      List.mem_map.2 ⟨_, mem, by rw [← hscope]; rfl⟩, hscope⟩
  | function mem =>
    exact ⟨true, (s.reopened m).inside .function, List.mem_map.2 ⟨_, mem, by rw [← hscope]; rfl⟩,
      hscope⟩
  | buffer => exact ⟨_, _, List.mem_singleton.2 rfl, rfl⟩
  | @target _ n mention target body =>
    rcases TypeModel.reference_cases m (s.reopened m) n mention with ⟨problem, href⟩ |
      ⟨target', hbody, href⟩ | ⟨-, halias, -⟩ | ⟨fields, hfields, -⟩ | ⟨variants, hbody, -⟩
    · simp [Task.reopened, Task.gather, href] at hwhole
    · obtain rfl := DeclarationBody.alias.inj (body.symm.trans hbody)
      exact ⟨false, m.openAlias (s.reopened m) n, by simp [Task.reopened, Task.parts, href], rfl⟩
    · simp [Nominal.isAlias, Nominal.aliasTarget?, body] at halias
    · simp [Nominal.structFields?, body] at hfields
    · simp [body] at hbody

/-- What is formed has no end to what is within it. -/
theorem Forms.acc {task : Task} (h : Forms m task t) :
    ∀ s r, task = .follow s r → Acc (Nested m) (s.scope, r) := by
  induction h with
  | together parts forms whole ih =>
    rintro s r rfl
    refine ⟨_, fun spot hnested => ?_⟩
    obtain ⟨inPlace, place, hmem, hscope⟩ := exists_mem_parts hnested whole
    rw [parts] at hmem
    obtain ⟨p, hp, hpart⟩ := List.mem_map.1 hmem
    have hacc := ih p hp place spot.2 (by rw [hpart])
    rwa [hscope] at hacc

theorem not_transGen_of_acc (h : Acc (Nested m) spot) : ¬ TransGen (Nested m) spot spot := by
  have hirrefl : ∀ spot, Acc (TransGen (Nested m)) spot → ¬ TransGen (Nested m) spot spot := by
    intro spot hacc
    induction hacc with
    | intro spot _ ih => exact fun hcycle => ih spot hcycle hcycle
  exact hirrefl spot h.transGen

/-- No alias within the task is one that has been opened around it. -/
def Task.Unblocked (m : TypeModel) : Task → Prop
  | .follow s r => r.Known m ∧ ∀ n ∈ m.index.nominals, n.isAlias = true →
      ∀ scope mention, ReflTransGen (Nested m) (scope, .named n mention) (s.scope, r) →
        n.name ∈ s.unopened
  | .contents _ => True

theorem Task.Unblocked.of_inside {via : Via} {e : TypeExpr} (h : (Task.follow s r).Unblocked m)
    (hnested : Nested m (s.scope, m.recipe s.scope e) (s.scope, r)) :
    (Task.follow (s.inside via) (m.recipe s.scope e)).Unblocked m :=
  ⟨m.known_recipe _ _, fun n hn halias scope mention hlead =>
    h.2 n hn halias scope mention (hlead.tail hnested)⟩

theorem Task.Unblocked.of_mem_parts (hnodup : m.index.names.Nodup) {task part : Task}
    {inPlace : Bool} (h : task.Unblocked m) (hmem : (inPlace, part) ∈ task.parts m)
    (hforms : Forms m part t) : part.Unblocked m := by
  rcases task with ⟨s, r⟩ | n
  · cases r with
    | exact u | refuse problem | illFormed parts reason => simp [Task.parts] at hmem
    | wrap via e w =>
      obtain ⟨rfl, rfl⟩ := Prod.mk.inj (List.mem_singleton.1 hmem)
      exact h.of_inside .wrap
    | tuple es =>
      obtain ⟨e, he, heq⟩ := List.mem_map.1 hmem
      obtain ⟨-, rfl⟩ := Prod.mk.inj heq
      exact h.of_inside (.tuple he)
    | function params ret holding =>
      obtain ⟨e, he, heq⟩ := List.mem_map.1 hmem
      obtain ⟨-, rfl⟩ := Prod.mk.inj heq
      exact h.of_inside (.function he)
    | buffer n e holding =>
      obtain ⟨rfl, rfl⟩ := Prod.mk.inj (List.mem_singleton.1 hmem)
      exact ⟨m.known_recipe _ _, fun x hx halias scope mention hlead =>
        h.2 x hx halias scope mention (hlead.tail .buffer)⟩
    | named n mention =>
      simp only [Task.parts] at hmem
      split at hmem
      · rename_i target href
        obtain ⟨rfl, rfl⟩ := Prod.mk.inj (List.mem_singleton.1 hmem)
        have hbody := TypeModel.target_of_reference href
        have hn := h.1 n mention rfl
        refine ⟨m.known_recipe _ _, fun x hx halias scope mention' hlead => ?_⟩
        have hx' := h.2 x hx halias scope mention' (hlead.tail (.target hbody))
        -- The alias is not met again inside its target: its target would be within itself.
        have hne : x.name ≠ n.name := by
          intro hname
          obtain rfl := NominalIndex.eq_of_name_eq hnodup hx hn hname
          exact not_transGen_of_acc (hforms.acc _ _ rfl) (.head' (.target hbody) hlead)
        exact (List.mem_erase_of_ne hne).2 hx'
      · obtain ⟨rfl, rfl⟩ := Prod.mk.inj (List.mem_singleton.1 hmem)
        trivial
      · obtain ⟨rfl, rfl⟩ := Prod.mk.inj (List.mem_singleton.1 hmem)
        trivial
      · simp at hmem
      · simp at hmem
  · obtain ⟨e, -, heq⟩ := List.mem_map.1 hmem
    obtain ⟨-, rfl⟩ := Prod.mk.inj heq
    exact ⟨m.known_recipe _ _, fun x hx _ _ _ _ => List.mem_map_of_mem hx⟩

theorem Task.Unblocked.steady {task : Task} (h : task.Unblocked m) : task.Steady m := by
  rintro s n mention rfl
  have hn := h.1 n mention rfl
  exact reference_reopened hn fun halias => h.2 n hn halias _ _ .refl

end Nested

section Yields

variable {task : Task} {t : InterfaceType}

@[simp]
theorem Task.reopened_reopened (task : Task) :
    (task.reopened m).reopened m = task.reopened m := by
  cases task <;> rfl

theorem Forms.congr {task' : Task} (h : Forms m task t)
    (htask : task'.reopened m = task.reopened m) : Forms m task' t := by
  cases h with
  | together parts forms whole => exact .together (htask ▸ parts) forms (htask ▸ whole)

/-- What is formed is yielded with those aliases open that are met. -/
theorem Forms.yields (hnodup : m.index.names.Nodup) (h : Forms m task t) :
    ∀ task', task'.reopened m = task.reopened m → task'.Unblocked m → Yields m task' (.ok t) := by
  induction h with
  | @together task made t parts forms whole ih =>
    intro task' htask hopen
    rw [← htask, hopen.steady.gather] at whole
    refine yields_iff.2 ⟨_, ?_, whole⟩
    let Q := fun x u => ∀ part, part.reopened m = x →
      Forms m part u ∧ (part.Unblocked m → Yields m part (.ok u))
    have hparts := partsForm_of_made (P := fun x u => Q (x.reopened m) u) parts
      fun p hp part hpart => ⟨(forms p hp).congr hpart, ih p hp part hpart⟩
    rw [PartsForm, ← htask, hopen.steady.forall₂_parts (Q := Q)] at hparts
    have hmem := (List.forall₂_and_left _ _).2 ⟨fun q (hq : q ∈ task'.parts m) => hq, hparts⟩
    refine hmem.imp fun q u hq => ?_
    obtain ⟨hforms, hyields⟩ := hq.2 q.2 rfl
    exact hyields (hopen.of_mem_parts hnodup hq.1 hforms)

/-- A mention that yields a type is not one of an alias that has been opened around it. -/
theorem Yields.mem_unopened {s : Site} {n : Nominal} {mention : TypeExpr}
    (h : Yields m (.follow s (.named n mention)) (.ok t)) (halias : n.isAlias = true) :
    n.name ∈ s.unopened := by
  rcases TypeModel.reference_cases m s n mention with ⟨problem, href⟩ | ⟨target, -, href⟩ |
      ⟨-, hnone, -⟩ | ⟨fields, hfields, -⟩ | ⟨variants, hbody, -⟩
  · cases h <;> simp_all
  · exact TypeModel.mem_unopened href
  · simp [halias] at hnone
  · obtain ⟨target, htarget⟩ := Option.isSome_iff_exists.1 halias
    unfold Nominal.aliasTarget? at htarget
    split at htarget <;> simp_all [Nominal.structFields?]
  · simp [Nominal.isAlias, Nominal.aliasTarget?, hbody] at halias

/-- The mention that the task follows is one of the index. -/
def Task.Known (m : TypeModel) : Task → Prop
  | .follow _ r => r.Known m
  | .contents _ => True

/-- Whatever is yielded is formed. -/
theorem Yields.forms (h : Yields m task (.ok t)) (hknown : task.Known m) : Forms m task t := by
  refine h.parts_induction (P := fun task => task.Known m → ∀ t, Yields m task (.ok t) →
    Forms m task t) ?_ hknown t h
  intro task _ _ ih hknown t h
  have hsteady : task.Steady m := by
    rintro s n mention rfl
    exact reference_reopened (hknown n mention rfl) h.mem_unopened
  obtain ⟨ts, hparts, hgather⟩ := yields_iff.1 h
  have hforms : List.Forall₂ (fun p u => Forms m (p.2.reopened m) u) (task.parts m) ts := by
    refine ((List.forall₂_and_left _ _).2 ⟨fun q (hq : q ∈ task.parts m) => hq, hparts⟩).imp ?_
    rintro ⟨inPlace, part⟩ u ⟨hpart, hyields⟩
    refine ((ih part ⟨inPlace, hpart⟩).2 ?_ u hyields).congr (Task.reopened_reopened part)
    obtain ⟨s, e, rfl⟩ | ⟨n, rfl⟩ := Task.eq_of_below ⟨inPlace, hpart⟩
    · exact m.known_recipe _ _
    · trivial
  rw [← hsteady.forall₂_parts] at hforms
  refine forms_iff.2
    ⟨ts, hforms.imp fun q u hq => hq.congr (Task.reopened_reopened q.2).symm, ?_⟩
  rwa [hsteady.gather]

/-- Where no alias has been opened, what is yielded is what is formed. -/
theorem yields_iff_forms (hnodup : m.index.names.Nodup) {s : Site} {r : Recipe} (hr : r.Known m)
    (hs : s.unopened = m.index.names) :
    Yields m (.follow s r) (.ok t) ↔ Forms m (.follow s r) t :=
  ⟨fun h => h.forms hr, fun h => h.yields hnodup _ rfl ⟨hr, fun _ hn _ _ _ _ =>
    hs ▸ List.mem_map_of_mem hn⟩⟩

end Yields

end Crossing.Building
