import Mathlib
import Crossing.Proofs.Building.Registered
import Crossing.Proofs.Nominal.Recursion
import Crossing.Proofs.Nominal.Resolution

/-!
# Handles are numbered by the module

The handles of a builder are reserved before anything is built, and a mention is taken as a handle
only if there is one (`TypeModel.exists_number`). So building never reserves another: after any
items the registry is the list of the sealed types of the module, in the order of their declaration,
and every handle in a built type has its place in that list for its number (`numbered_after`).
-/

namespace Crossing

open Relation (TransGen)

/-! ### The sealed types of a module -/

/-- The type is recursive, a struct or an enumeration that its own mentions lead back to, or it is a
struct with a field that not everyone sees. -/
inductive Nominal.Sealed (index : NominalIndex) (n : Nominal) : Prop where
  | recursive (cycle : TransGen index.Mentions n n)
  | withheld {fields : List NativeField} {style : FieldStyle} {f : NativeField}
    (body : n.declaration.body = .struct fields style) (mem : f ∈ fields)
    (visibility : f.visibility ≠ .everyone)

open Classical in
/-- The names of the sealed types of a module, each where it is declared first. -/
noncomputable def NativeModule.registry (module : NativeModule) : List String :=
  (module.nominals.map (·.name)).eraseDups.filter fun name =>
    ∃ n ∈ module.nominals.find? (·.name == name), n.Sealed (.ofModule module)

theorem Nominal.hasPrivateFields_iff {n : Nominal} : n.hasPrivateFields = true ↔
    ∃ fields style, n.declaration.body = .struct fields style ∧
      ∃ f ∈ fields, f.visibility ≠ .everyone := by
  unfold hasPrivateFields structFields?
  cases n.declaration.body <;> simp [Visibility.crossesBoundary]

namespace NominalIndex

variable {index : NominalIndex} {n : Nominal}

theorem isRecursive_iff (h : index.names.Nodup) (hn : n ∈ index.nominals) :
    (NominalGraph.ofIndex index).isRecursive n.name = true ↔ TransGen index.Mentions n n := by
  have hself : (NominalGraph.ofIndex index).isRecursive n.name
      = (NominalGraph.ofIndex index).sameRecursive n.name n.name := by
    simp [NominalGraph.isRecursive, NominalGraph.sameRecursive]
  rw [hself, (NominalGraph.exact_ofIndex h).sameRecursive_iff]
  constructor
  · rintro ⟨a, b, ha, -, hforth, hback⟩
    have hcycle := hforth.trans hback
    obtain ⟨_, hfirst, -⟩ := TransGen.head'_iff.1 hcycle
    rwa [eq_of_name_eq h (NominalGraph.mem_of_mentions hfirst).1 hn ha] at hcycle
  · exact fun hcycle => ⟨n, n, rfl, rfl, hcycle, hcycle⟩

theorem not_isAlias_of_cycle (h : TransGen index.Mentions n n) : n.isAlias = false := by
  obtain ⟨_, ⟨_, hfirst⟩, -⟩ := TransGen.head'_iff.1 h
  exact hfirst.source_alias

theorem sealed_iff (h : index.names.Nodup) (hn : n ∈ index.nominals) : n.Sealed index ↔
    (!n.isAlias && ((NominalGraph.ofIndex index).isRecursive n.name || n.hasPrivateFields))
      = true := by
  rw [Bool.and_eq_true, Bool.or_eq_true, isRecursive_iff h hn, Nominal.hasPrivateFields_iff,
    Bool.not_eq_true']
  constructor
  · rintro (hcycle | ⟨hbody, hmem, hvisibility⟩)
    · exact ⟨not_isAlias_of_cycle hcycle, .inl hcycle⟩
    · exact ⟨by simp [Nominal.isAlias, Nominal.aliasTarget?, hbody],
        .inr ⟨_, _, hbody, _, hmem, hvisibility⟩⟩
  · rintro ⟨-, hcycle | ⟨_, _, hbody, _, hmem, hvisibility⟩⟩
    · exact .recursive hcycle
    · exact .withheld hbody hmem hvisibility

theorem map_name_insert (nominals : List Nominal) (n : Nominal) :
    (insert nominals n).map (·.name) = TypeTable.filed (nominals.map (·.name)) n.name := by
  unfold insert
  by_cases h : nominals.any (·.name == n.name) = true
  · rw [if_pos h, TypeTable.filed_of_mem]
    obtain ⟨a, ha, hname⟩ := List.any_eq_true.1 h
    exact List.mem_map.2 ⟨a, ha, eq_of_beq hname⟩
  · rw [if_neg h, TypeTable.filed_of_not_mem, List.map_append, List.map_singleton]
    rintro hmem
    obtain ⟨a, ha, hname⟩ := List.mem_map.1 hmem
    exact h (List.any_eq_true.2 ⟨a, ha, beq_iff_eq.2 hname⟩)

theorem find?_insert (nominals : List Nominal) (n : Nominal) (name : String) :
    (insert nominals n).find? (·.name == name) = (nominals ++ [n]).find? (·.name == name) := by
  unfold insert
  split
  · rename_i h
    obtain ⟨a, ha, hname⟩ := List.any_eq_true.1 h
    rw [List.find?_append]
    by_cases hn : (n.name == name) = true
    · have hsome : (nominals.find? (·.name == name)).isSome :=
        List.find?_isSome.2 ⟨a, ha, by rwa [eq_of_beq hname]⟩
      rw [Option.or_of_isSome hsome]
    · simp [hn]
  · rfl

theorem nominals_foldl_insert (nominals : List Nominal) :
    ((nominals.foldl insert []).map (·.name) = (nominals.map (·.name)).eraseDups)
      ∧ ∀ name, (nominals.foldl insert []).find? (·.name == name)
        = nominals.find? (·.name == name) := by
  induction nominals using List.reverseRecOn with
  | nil => exact ⟨rfl, fun _ => rfl⟩
  | append_singleton nominals n ih =>
    rw [List.foldl_append, List.foldl_cons, List.foldl_nil]
    refine ⟨?_, fun name => ?_⟩
    · rw [map_name_insert, ih.1, List.map_append, List.map_singleton, TypeTable.eraseDups_concat]
    · rw [find?_insert, List.find?_append, ih.2, List.find?_append]

/-- Every name that is declared is in the index, where it is declared first. -/
theorem names_ofModule (module : NativeModule) :
    (ofModule module).names = (module.nominals.map (·.name)).eraseDups :=
  (nominals_foldl_insert module.nominals).1

/-- A name means the first declaration that has it. -/
theorem get?_ofModule (module : NativeModule) (name : String) :
    (ofModule module).get? name = module.nominals.find? (·.name == name) :=
  (nominals_foldl_insert module.nominals).2 name

theorem handled_ofModule (module : NativeModule) :
    (ofModule module).handled (.ofIndex (ofModule module)) = module.registry := by
  have hnodup := nodup_names_ofModule module
  unfold NativeModule.registry handled
  rw [← names_ofModule, names, List.filter_map]
  refine congrArg (List.map Nominal.name) (List.filter_congr fun n hn => ?_)
  rw [Bool.eq_iff_iff, ← sealed_iff hnodup hn]
  simp only [Function.comp_apply, decide_eq_true_iff, ← get?_ofModule,
    (get?_eq_some_iff hnodup).2 ⟨hn, rfl⟩]
  simp

end NominalIndex

/-- Every handle in the type has the place of its name in a list for its number. -/
def InterfaceType.NumberedBy (names : List String) (t : InterfaceType) : Prop :=
  ∀ (number : Int) (name : String), t.Contains (.handle number name) →
    ∃ place : Nat, names.idxOf? name = some place ∧ number = place

namespace Building

variable {m : TypeModel}

/-- Unless it follows a mention of the index, a recipe yields no handle outright. -/
structure Recipe.Handleless (m : TypeModel) (r : Recipe) : Prop where
  named : r.Known m
  exact : ∀ t, r = .exact t → Simple t
  illFormed : ∀ parts reason, r ≠ .illFormed parts reason

theorem TypeModel.handleless_recipe (hstandard : m.recognizers = .standard) (scope : List String)
    (e : TypeExpr) : (m.recipe scope e).Handleless m where
  named := m.known_recipe scope e
  exact t h := ((m.sane_recipe scope e).exact t h).resolve_left (not_hasFixed hstandard)
  illFormed parts reason h :=
    not_hasFixed hstandard ((m.sane_recipe scope e).illFormed parts reason h)

namespace Builder

/-- The handles of the model are reserved and no others, the handles among the types of the table
have their numbers, and what is remembered of paths is what they mean. -/
structure Numbered (m : TypeModel) (b : Builder) : Prop where
  nominals : b.table.nominals = m.index.handled m.graph
  types : ∀ (number : Int) (name : String), .handle number name ∈ b.table.types →
    ∃ place : Nat, (m.index.handled m.graph).idxOf? name = some place ∧ number = place
  means : ∀ names scope meaning, b.meanings.lookup (names, scope) = some meaning →
    meaning = m.index.resolve names scope

/-- Whatever becomes of it, it leaves the handles as they are numbered. -/
abbrev Numbers {α : Type} (m : TypeModel) (x : BuildM α) : Prop :=
  Keeps (Numbered m) x (OnFailure fun _ => True)

/-- A table with a new type that is no handle. -/
theorem Numbered.withTable {b : Builder} {table : TypeTable} (h : b.Numbered m)
    (hnominals : table.nominals = b.table.nominals)
    (htypes : ∀ t ∈ table.types, t.kind = .handle → t ∈ b.table.types) :
    ({ b with table } : Builder).Numbered m :=
  ⟨hnominals.trans h.nominals, fun number name hmem => h.types number name (htypes _ hmem rfl),
    h.means⟩

theorem numbers_keep {t : InterfaceType} (ht : t.kind ≠ .handle) : Numbers m (keep t) := by
  refine Keeps.bindFailure (Keeps.modify (fun b hb => ?_) trivial) fun _ => Keeps.pure trivial
  refine hb.withTable (TypeTable.nominals_intern _ _) fun u hu hkind => ?_
  refine (TypeTable.mem_intern.1 hu).resolve_right ?_
  rintro rfl
  exact ht hkind

theorem numbers_keepOutcome {o : Outcome} (ho : ∀ t, o = .ok t → t.kind ≠ .handle) :
    Numbers m (keepOutcome o) := by
  cases o with
  | error ps => exact Keeps.pure trivial
  | ok t =>
    rw [keepOutcome, map_eq_pure_bind]
    exact Keeps.bindFailure (numbers_keep (ho t rfl)) fun _ => Keeps.pure trivial

theorem numbers_keepAll {t : InterfaceType} (ht : Simple t) : Numbers m (keepAll t) := by
  refine Keeps.bindFailure (Keeps.modify (fun b hb => ?_) trivial) fun _ => Keeps.pure trivial
  refine hb.withTable (TypeTable.nominals_internAll _ _) fun u hu hkind => ?_
  refine (TypeTable.mem_internAll.1 hu).resolve_right fun hinside => ?_
  -- A simple type has no parts, so it contains only itself.
  rcases hinside.cases_head with rfl | ⟨v, hv, -⟩
  · exact ht.2 hkind
  · rw [ht.1] at hv
    exact List.not_mem_nil hv

theorem numbers_handle {name : String} {number : Nat}
    (h : (m.index.handled m.graph).idxOf? name = some number) : Numbers m (handle name) := by
  unfold handle
  refine Keeps.bind (Q := (· = .ok number)) (Keeps.modifyGet fun b hb => ?_) nofun fun k hk => ?_
  · have hreserve : b.table.reserve name = (number, b.table) :=
      TypeTable.reserve_of_idxOf? (hb.nominals ▸ h)
    simp only [hreserve]
    exact ⟨trivial, hb⟩
  · rw [Except.ok.inj hk, map_eq_pure_bind]
    refine Keeps.bindFailure (Keeps.bindFailure (Keeps.modify (fun b hb => ?_) trivial)
      fun _ => Keeps.pure trivial) fun _ => Keeps.pure trivial
    refine ⟨(TypeTable.nominals_intern _ _).trans hb.nominals, fun number' name' hmem => ?_,
      hb.means⟩
    rcases TypeTable.mem_intern.1 hmem with hmem | heq
    · exact hb.types number' name' hmem
    · obtain ⟨rfl, rfl⟩ := InterfaceType.handle.inj heq
      exact ⟨number, h, rfl⟩

theorem numbers_meaning {α : Type} {scope : List String} {e : TypeExpr} {f : Resolution → BuildM α}
    (h : Numbers m (f (m.index.resolve e.names scope))) : Numbers m (meaning m scope e >>= f) := by
  refine Keeps.bind (Q := (· = .ok (m.index.resolve e.names scope)))
    (Keeps.modifyGet fun b hb => ?_) nofun fun meaning hmeaning => ?_
  · obtain ⟨hanswer, meanings, heq, hmeans⟩ := recallMeaning_of_means hb.means scope e.names
    rw [hanswer, heq]
    exact ⟨rfl, hb.nominals, hb.types, hmeans⟩
  · rwa [Except.ok.inj hmeaning]

theorem numbers_build {s : Site} {e : TypeExpr} (h : Numbers m (make m s (m.recipe s.scope e))) :
    Numbers m (build m s e) :=
  numbers_meaning h

theorem numbers_remembered {name : String} {compute : BuildM Outcome} (h : Numbers m compute) :
    Numbers m (remembered name compute) := by
  refine Keeps.getBind fun b hb => ?_
  split
  · exact Keeps.pure trivial
  · refine Keeps.bindFailure h fun o => Keeps.modifyGet fun b hb => ⟨trivial, ?_⟩
    unfold remember
    split
    · exact hb
    split
    · exact hb
    · exact ⟨hb.nominals, hb.types, hb.means⟩

section Named

variable {s : Site} {n : Nominal}

theorem numbers_makeRecord {fields : List NativeField}
    (h : ∀ f : NativeField, Numbers m (build m (m.expand s n) f.type)) :
    Numbers m (makeRecord m s n fields) := by
  refine Keeps.bindFailure (keeps_makeFields_failure fun x _ => h x.2) fun _ =>
    numbers_keepOutcome fun t ht => ?_
  obtain ⟨fs, -, rfl⟩ := Findings.map_eq_ok.1 ht
  simp [InterfaceType.kind]

theorem numbers_makeUnion {variants : List NativeVariant}
    (h : ∀ f : NativeField, Numbers m (build m (m.expand s n) f.type)) :
    Numbers m (makeUnion m s n variants) := by
  refine Keeps.bindFailure (Keeps.mapMFailure fun v _ => ?_) fun _ =>
    numbers_keepOutcome fun t ht => ?_
  · exact Keeps.bindFailure (keeps_makeFields_failure fun x _ => h x.2) fun _ => Keeps.pure trivial
  · obtain ⟨vs, _, -, -, rfl⟩ := Findings.combine_eq_ok.1 ht
    simp [InterfaceType.kind]

end Named

theorem kind_of_signatureOf {holding : Holding} {params : List Outcome}
    {ret : Findings Problem (InterfaceType × Failure InterfaceType)} {t : InterfaceType}
    (h : signatureOf holding params ret = .ok t) : t.kind ≠ .handle := by
  obtain ⟨ps, r, -, -, rfl⟩ := Findings.combine_eq_ok.1 h
  simp [functionOf, InterfaceType.kind]

/-- Following a recipe leaves the handles as they are numbered. -/
theorem numbers_make (hstandard : m.recognizers = .standard) (s : Site) (r : Recipe)
    (hr : r.Handleless m) : Numbers m (make m s r) := by
  have hrecipe := TypeModel.handleless_recipe hstandard
  -- Only a mention yields a handle, and then its number is reserved. All other types that are made
  -- have another kind, and what a path means stays in the index.
  induction s, r using make_induction with
  | exact s t =>
    rw [make_exact]
    exact numbers_keepAll (hr.exact t rfl)
  | refuse s problem =>
    rw [make_refuse]
    exact Keeps.pure trivial
  | illFormed s parts reason => exact absurd rfl (hr.illFormed parts reason)
  | wrap s via part wrapper ih =>
    rw [make_wrap]
    refine Keeps.bindFailure (numbers_build (ih _ (hrecipe _ _))) fun o => ?_
    cases o with
    | error ps => exact Keeps.pure trivial
    | ok t =>
      refine Keeps.bind (Q := (· = wrapper.around t)) (Keeps.liftExcept rfl) (fun _ _ => trivial)
        fun o haround => numbers_keepOutcome ?_
      rintro u rfl
      exact (Wrapper.handlesPointed_around haround.symm).1
  | tuple s parts ih =>
    rw [make_tuple]
    refine Keeps.bindFailure (Keeps.mapMFailure fun p hp => numbers_build (ih p hp _ (hrecipe _ _)))
      fun _ => numbers_keepOutcome fun t ht => ?_
    obtain ⟨ts, -, rfl⟩ := Findings.map_eq_ok.1 ht
    simp [tupleOf, InterfaceType.kind]
  | function s params ret holding ih =>
    have hparts := fun e he => numbers_build (ih e he _ (hrecipe s.scope e))
    rw [make_function]
    refine Keeps.bindFailure (Keeps.mapMFailure fun p hp => hparts p (List.mem_append_left _ hp))
      fun _ => Keeps.bindFailure ?_ fun _ => numbers_keepOutcome fun _ => kind_of_signatureOf
    exact keeps_makeReturn_failure fun e he => hparts e (List.mem_append_right _ he)
  | buffer s n element holding ih =>
    rw [make_buffer]
    split
    · refine Keeps.bindFailure (numbers_build (ih ‹_› _ (hrecipe _ _))) fun o => ?_
      cases o with
      | error ps => exact Keeps.pure trivial
      | ok t => exact numbers_keepOutcome (o := .ok (.buffer t holding)) (by
          rintro _ ⟨⟩
          simp [InterfaceType.kind])
    · exact Keeps.throw trivial
  | refused s n mention problem href =>
    rw [make_refused href]
    exact Keeps.pure trivial
  | handled s n mention href =>
    rw [make_handle href]
    obtain ⟨number, hnumber⟩ := TypeModel.exists_number (hr.named n mention rfl) href
    exact numbers_handle hnumber
  | opened s n mention target href ih =>
    rw [make_alias href]
    exact numbers_build (ih _ (hrecipe _ _))
  | record s n mention fields href ih =>
    rw [make_record href]
    refine numbers_remembered ?_
    split
    · exact numbers_makeRecord fun f => numbers_build (ih ‹_› f _ (hrecipe _ _))
    · exact Keeps.throw trivial
  | emptyUnion s n mention href =>
    rw [make_emptyUnion href]
    exact Keeps.pure trivial
  | union s n mention variants hne href ih =>
    rw [make_union hne href]
    refine numbers_remembered ?_
    split
    · exact numbers_makeUnion fun f => numbers_build (ih ‹_› f _ (hrecipe _ _))
    · exact Keeps.throw trivial

theorem numbers_buildItem (hstandard : m.recognizers = .standard) (item : ExportItem) :
    Numbers m (buildItem m item) := by
  have hrecipe := TypeModel.handleless_recipe hstandard
  refine Keeps.bindFailure ?_ fun _ => Keeps.pure trivial
  unfold buildDeclared
  simp only
  split
  · exact numbers_make hstandard _ _ ⟨fun _ _ h => by simp at h, by simp, by simp⟩
  · exact numbers_build (numbers_make hstandard _ _ (hrecipe _ _))
  · exact numbers_build (numbers_make hstandard _ _ (hrecipe _ _))

theorem numbered_ofModel (h : m.index.names.Nodup) : (ofModel m).Numbered m where
  nominals := (faithful_ofModel h).handles
  types number name hmem := by
    rw [types_ofModel] at hmem
    exact absurd hmem List.not_mem_nil
  means names scope meaning h := by simp [ofModel] at h

theorem numbered_after (hnodup : m.index.names.Nodup) (hstandard : m.recognizers = .standard)
    (items : List ExportItem) : (after m items).Numbered m := by
  induction items using List.reverseRecOn with
  | nil => exact numbered_ofModel hnodup
  | append_singleton items item ih =>
    rw [after, List.foldl_append]
    exact ((numbers_buildItem hstandard item).run ih).2

end Builder

/-- The handles of a builder are fixed by the module: they are reserved for the sealed types before
anything is built, no building of items adds to them or moves them, and whatever has been built
has the numbers that they have there. -/
theorem handles_fixed_by_module (module : NativeModule) (wordBits : Int) (items : List ExportItem) :
    let m := TypeModel.ofModule module wordBits .standard
    let b := Builder.after m items
    (Builder.ofModel m).table.nominals = module.registry ∧ module.registry.Nodup
      ∧ b.table.nominals = module.registry
      ∧ (∀ t ∈ b.table.types, t.NumberedBy module.registry)
      ∧ ∀ item t, ((Builder.buildItem m item).run.run b).1 = .ok (.ok t) →
          t.NumberedBy module.registry := by
  intro m b
  have hnodup : m.index.names.Nodup := NominalIndex.nodup_names_ofModule module
  have hhandled : m.index.handled m.graph = module.registry := NominalIndex.handled_ofModule module
  have hnumbered : ∀ items, ∀ t ∈ (Builder.after m items).table.types,
      t.NumberedBy module.registry := by
    intro items t ht number name hinside
    rw [← hhandled]
    refine (Builder.numbered_after hnodup rfl items).types number name ?_
    exact (Builder.registering_after m items).1.contains ht hinside
  refine ⟨(Builder.numbered_ofModel hnodup).nominals.trans hhandled, ?_,
    (Builder.numbered_after hnodup rfl items).nominals.trans hhandled, hnumbered items,
    fun item t ht => hnumbered (items ++ [item]) t ?_⟩
  · exact (nodup_eraseDups _).filter _
  · rw [Builder.after, List.foldl_append]
    exact ((Builder.ensures_buildItem m item b).run (Builder.registering_after m items)).2 t ht

end Building

end Crossing
