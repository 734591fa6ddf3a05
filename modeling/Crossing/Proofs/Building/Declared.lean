import Mathlib
import Crossing.Export.Collection
import Crossing.Proofs.Building.Handle
import Crossing.Proofs.QualifiedName

/-!
# Declarations that are handles

An item is taken as a handle only when it declares a struct that nobody looks into
(`own_of_isHandle`), provided that no two nominal types of the module share a name: otherwise the
name of an item may be that of another declaration.
-/

namespace Crossing

namespace NativeModule

/-- The nominal types of a module have names of their own, and the name of the module is a single
part of a name. -/
structure Distinct (module : NativeModule) : Prop where
  root : ':' ∉ module.name.toList
  names : ((module.declarations.filter fun d => d.2.body.isNominal).map fun d =>
    d.1.qualify d.2.name).Nodup

mutual

theorem modules_of_mem_declarationsFrom {scope : Scope} {p : Scope × Declaration} :
    ∀ {m : NativeModule}, p ∈ declarationsFrom scope m → scope.modules <+: p.1.modules
  | ⟨_, items, children, _, _⟩, h => by
    rw [declarationsFrom] at h
    rcases List.mem_append.1 h with h | h
    · obtain ⟨d, -, rfl⟩ := List.mem_map.1 h
      exact List.prefix_rfl
    · exact modules_of_mem_declarationsInside h
termination_by structural m => m

theorem modules_of_mem_declarationsInside {scope : Scope} {p : Scope × Declaration} :
    ∀ {ms : List NativeModule}, p ∈ declarationsInside scope ms → scope.modules <+: p.1.modules
  | [], h => by simp [declarationsInside] at h
  | m :: ms, h => by
    rw [declarationsInside] at h
    rcases List.mem_append.1 h with h | h
    · exact (List.prefix_append _ _).trans (modules_of_mem_declarationsFrom h)
    · exact modules_of_mem_declarationsInside h
termination_by structural ms => ms

end

theorem modules_of_mem_declarations {m : NativeModule} {p : Scope × Declaration}
    (h : p ∈ m.declarations) : ∃ rest, p.1.modules = m.name :: rest := by
  obtain ⟨rest, hrest⟩ := modules_of_mem_declarationsFrom h
  exact ⟨rest, hrest.symm⟩

end NativeModule

namespace Export

/-- The item is that of the declaration. -/
structure IsItemOf (item : ExportItem) (p : NativeModule.Scope × Declaration) : Prop where
  name : item.qualifiedName = p.1.qualify p.2.name
  declaration : item.declaration = p.2
  kind : p.2.body.itemKind? = some item.kind

theorem kind_of_judge {markers : List String} {scope : NativeModule.Scope} {d : Declaration}
    {kind : ItemKind} {isExplicit : Bool}
    (h : judge markers scope d = .collected kind isExplicit) : d.body.itemKind? = some kind := by
  unfold judge at h
  split at h
  · simp at h
  · split at h
    · rename_i hkind
      obtain ⟨rfl, -⟩ := Verdict.collected.inj h
      exact hkind
    · simp at h
    · split at h <;> simp at h

theorem isItemOf_of_mem_add {c : Collection} {markers : List String}
    {p : NativeModule.Scope × Declaration} {item : ExportItem}
    (h : item ∈ (c.add p.1 p.2 (judge markers p.1 p.2)).items) :
    item ∈ c.items ∨ IsItemOf item p := by
  unfold Collection.add at h
  split at h
  · exact .inl h
  · exact .inl h
  · exact .inl h
  · rename_i hjudge
    rcases List.mem_append.1 h with h | h
    · exact .inl h
    · obtain rfl := List.mem_singleton.1 h
      exact .inr ⟨rfl, rfl, kind_of_judge hjudge⟩

theorem isItemOf_of_mem_collect {module : NativeModule} {markers : List String}
    {item : ExportItem} (h : item ∈ (collect module markers).items) :
    ∃ p ∈ module.declarations, IsItemOf item p := by
  have hfold : ∀ (markers : List String) (ps : List (NativeModule.Scope × Declaration))
      (c : Collection),
      item ∈ (ps.foldl (fun c p => c.add p.1 p.2 (judge markers p.1 p.2)) c).items →
        item ∈ c.items ∨ ∃ p ∈ ps, IsItemOf item p := by
    intro markers ps
    induction ps with
    | nil => exact fun c h => .inl h
    | cons p ps ih =>
      intro c h
      rcases ih _ h with h | ⟨q, hq, hitem⟩
      · exact (isItemOf_of_mem_add h).imp_right fun hitem => ⟨p, List.mem_cons_self, hitem⟩
      · exact .inr ⟨q, List.mem_cons_of_mem _ hq, hitem⟩
  exact (hfold _ _ _ h).resolve_left (by simp)

end Export

namespace NominalIndex

theorem foldl_insert {ns acc : List Nominal} (h : ((acc ++ ns).map (·.name)).Nodup) :
    ns.foldl insert acc = acc ++ ns := by
  induction ns generalizing acc with
  | nil => rw [List.foldl_nil, List.append_nil]
  | cons n ns ih =>
    have hnew : acc.any (·.name == n.name) = false := by
      rw [List.map_append, List.map_cons] at h
      refine List.any_eq_false.2 fun a ha heq => ?_
      refine List.disjoint_of_nodup_append h (List.mem_map_of_mem ha) ?_
      rw [eq_of_beq heq]
      exact List.mem_cons_self
    rw [List.foldl_cons, insert, hnew, if_neg Bool.false_ne_true, ih]
    · rw [List.append_assoc, List.singleton_append]
    · rwa [List.append_assoc, List.singleton_append]

theorem mem_ofModule {module : NativeModule} (h : module.Distinct)
    {p : NativeModule.Scope × Declaration} (hp : p ∈ module.declarations)
    (hnominal : p.2.body.isNominal = true) :
    ⟨p.1.qualify p.2.name, p.1.modules, p.2⟩ ∈ (ofModule module).nominals := by
  unfold ofModule
  rw [foldl_insert (by simpa [Function.comp_def] using h.names)]
  exact List.mem_map.2 ⟨p, List.mem_filter.2 ⟨hp, hnominal⟩, rfl⟩

end NominalIndex

namespace Building

variable {m : TypeModel}

/-- The item is taken as a handle only if it declares that struct. -/
def TakesItself (m : TypeModel) (item : ExportItem) : Prop :=
  ∀ name, (Task.ofItem m item).IsHandle m name →
    item.kind = .struct ∧ name = item.qualifiedName

@[simp]
theorem names_ofNames (names : List String) : (TypeExpr.ofNames names).names = names := by
  simp [TypeExpr.ofNames, TypeExpr.names, TypeExpr.segments, Segment.name, Function.comp_def]

/-- The name of an item resolves to its own declaration. -/
theorem resolve_qualifiedName {module : NativeModule} (hdistinct : module.Distinct)
    {item : ExportItem} {p : NativeModule.Scope × Declaration} (hp : p ∈ module.declarations)
    (hitem : Export.IsItemOf item p) (hnominal : p.2.body.isNominal = true) {scope : List String}
    {n : Nominal} (h : (NominalIndex.resolve (.ofModule module)
      (QualifiedName.split item.qualifiedName) scope).nominal? = some n) :
    n.name = item.qualifiedName ∧ n.declaration = item.declaration := by
  obtain ⟨rest, hrest⟩ := NativeModule.modules_of_mem_declarations hp
  have hname : item.qualifiedName = QualifiedName.join (module.name :: (rest ++ [p.2.name])) := by
    rw [hitem.name, NativeModule.Scope.qualify, hrest, List.cons_append]
  obtain ⟨parts, hparts⟩ : ∃ parts, QualifiedName.split item.qualifiedName
      = (NominalIndex.ofModule module).root :: parts :=
    ⟨_, hname ▸ QualifiedName.split_join_cons hdistinct.root (by simp)⟩
  rw [hparts] at h
  have hget := NominalIndex.get?_of_resolve h
  rw [← hparts, QualifiedName.join_split] at hget
  have hn := NominalIndex.name_of_get? hget
  refine ⟨hn, ?_⟩
  have hself := NominalIndex.eq_of_name_eq (NominalIndex.nodup_names_ofModule module)
    (NominalIndex.get?_mem hget) (NominalIndex.mem_ofModule hdistinct hp hnominal)
    (hn.trans hitem.name)
  rw [hself, hitem.declaration]

/-- Where names are distinct, a declaration that is taken as a handle is a struct by its own
name. -/
theorem takesItself_of_distinct {module : NativeModule} {wordBits : Int}
    {recognizers : RecognizerSet} (hdistinct : module.Distinct) {markers : List String}
    {item : ExportItem} (hitem : item ∈ (Export.collect module markers).items) :
    TakesItself (.ofModule module wordBits recognizers) item := by
  obtain ⟨p, hp, hof⟩ := Export.isItemOf_of_mem_collect hitem
  intro name hname
  unfold Task.ofItem at hname
  simp only at hname
  split at hname
  · cases hname
  -- The target of an alias stands in no declaration and behind nothing.
  · exact absurd (Task.via_of_isHandle hname _ _ rfl rfl) (by simp [TypeModel.site])
  · rename_i hfunction halias
    have hkind := hof.kind
    have hnominal : p.2.body.isNominal = true := by
      cases hbody : p.2.body <;>
        simp_all [DeclarationBody.itemKind?, DeclarationBody.isNominal]
    rw [← hof.declaration] at hkind
    generalize hr : TypeModel.recipe _ _ _ = r at hname
    have hself : ∀ n mention, r = .named n mention →
        n.name = item.qualifiedName ∧ n.declaration = item.declaration := by
      intro n mention h
      have hnamed := (TypeModel.sane_recipe _ _ _).named n mention (hr.trans h)
      rw [names_ofNames] at hnamed
      exact resolve_qualifiedName hdistinct hp hof hnominal hnamed
    cases hname with
    | @handle _ n mention reference =>
      obtain ⟨hn, hdeclaration⟩ := hself n mention rfl
      refine ⟨?_, hn⟩
      have hprivate : n.hasPrivateFields = true := by
        rcases (TypeModel.cut_of_reference reference).2 with ⟨hvia, -⟩ | ⟨hprivate, -⟩
        · simp [TypeModel.site] at hvia
        · exact hprivate
      cases hbody : item.declaration.body <;>
        simp_all [Nominal.hasPrivateFields, Nominal.structFields?, DeclarationBody.itemKind?]
    | @opened _ n mention target _ reference part =>
      obtain ⟨-, hdeclaration⟩ := hself n mention rfl
      have hbody := TypeModel.target_of_reference reference
      rw [hdeclaration] at hbody
      rw [hbody] at hkind
      exact (halias target (Option.some.inj hkind).symm hbody).elim

end Building

/-- Behind pointers only does the type of an item hold handles, unless it is a handle as a whole:
that of the struct which the item declares. -/
structure KeepsHandles (item : ExportItem) (t : InterfaceType) : Prop where
  pointed : t.HandlesPointed
  own : ∀ number name, t = .handle number name → item.kind = .struct ∧ name = item.qualifiedName

open Building in
/-- Whatever was built before, the type of a collected item keeps its handles behind pointers
exactly when no part that the item holds in place is taken as a handle, and the item itself only as
that of the struct which it declares. The latter is so wherever names are distinct. -/
theorem keepsHandles_iff {module : NativeModule} {wordBits : Int} {m : TypeModel}
    (hm : m = .ofModule module wordBits .standard) {markers : List String} {item : ExportItem}
    (hitem : item ∈ (Export.collect module markers).items) {items : List ExportItem}
    {t : InterfaceType}
    (h : ((Builder.buildItem m item).run.run (Builder.after m items)).1 = .ok (.ok t)) :
    (KeepsHandles item t ↔ ¬ (Task.ofItem m item).Exposes m ∧ TakesItself m item) ∧
      (module.Distinct → TakesItself m item) := by
  subst hm
  have hyields := Builder.yields_of_buildItem (NominalIndex.nodup_names_ofModule module) h
  have hbuilt := built_of_yields rfl hyields (plain_ofItem rfl item) t rfl
  refine ⟨⟨?_, ?_⟩, fun hdistinct => takesItself_of_distinct hdistinct hitem⟩
  · rintro ⟨hpointed, hown⟩
    refine ⟨hbuilt.pointed.1 hpointed, fun name hname => ?_⟩
    obtain ⟨number, ht⟩ := (hbuilt.handle name).2 hname
    exact hown number name ht
  · rintro ⟨hexposes, hself⟩
    refine ⟨hbuilt.pointed.2 hexposes, fun number name ht => hself name ?_⟩
    exact (hbuilt.handle name).1 ⟨number, ht⟩

section Examples

open Building

def taking (param : TypeExpr) : Declaration where
  name := "f"
  visibility := .everyone
  generics := []
  attrs := []
  span := {}
  body := .function [⟨"x", param⟩] none none false false none

/-- A module with a struct that nobody looks into, and a function beside it. -/
def guarded (param : TypeExpr) : NativeModule where
  name := "crate"
  items :=
    [⟨"Handle", .everyone, [], [], {}, .struct [⟨some "raw", .ofNames ["u64"], .inherited⟩] .named⟩,
      taking param]
  children := []
  visibility := .everyone
  span := {}

def takingItem (param : TypeExpr) : ExportItem where
  qualifiedName := "crate::f"
  kind := .function
  isExplicit := false
  symbol := "f"
  index := 1
  modulePath := []
  declaration := taking param

def guardedModel (param : TypeExpr) : TypeModel := .ofModule (guarded param) 64 .standard

def lone : TypeExpr := .reference none false (.ofNames ["Handle"])

def pair : TypeExpr := .reference none false (.tuple [.ofNames ["Handle"], .ofNames ["u8"]])

/-- A reference to the struct is a pointer to a handle, and exposes none. -/
theorem not_exposes_of_lone : takingItem lone ∈ (Export.collect (guarded lone) []).items
      ∧ ∃ t, ((Builder.buildItem (guardedModel lone) (takingItem lone)).run.run
        (Builder.after (guardedModel lone) [])).1 = .ok (.ok t)
      ∧ ¬ (Task.ofItem (guardedModel lone) (takingItem lone)).Exposes (guardedModel lone) := by
  have hitem : takingItem lone ∈ (Export.collect (guarded lone) []).items := by
    refine List.mem_of_getElem? (i := 1) ?_
    rfl
  have hbuilt : ∃ t, ((Builder.buildItem (guardedModel lone) (takingItem lone)).run.run
        (Builder.after (guardedModel lone) [])).1 = .ok (.ok t)
      ∧ KeepsHandles (takingItem lone) t := by
    refine ⟨?t, ?built, ?keeps⟩
    case built =>
      cbv
      rfl
    case keeps =>
      refine ⟨?_, by simp⟩
      rw [InterfaceType.handlesPointed_iff]
      simp only [InterfaceType.parts_function, InterfaceType.failureParts, List.map_nil,
        List.singleton_append, List.forall_mem_cons, InterfaceType.handlesPointed_pointer]
      refine ⟨⟨by simp [InterfaceType.kind], ?_⟩, ⟨by simp [InterfaceType.kind], ?_⟩, by simp⟩ <;>
        exact InterfaceType.handlesPointed_of_parts_eq_nil rfl
  obtain ⟨t, ht, hkeeps⟩ := hbuilt
  exact ⟨hitem, t, ht, ((keepsHandles_iff rfl hitem ht).1.1 hkeeps).1⟩

/-- A reference to the struct beside a number is a pointer to a tuple with a handle in it. -/
theorem handle_in_pair : takingItem pair ∈ (Export.collect (guarded pair) []).items
      ∧ ∃ t, ((Builder.buildItem (guardedModel pair) (takingItem pair)).run.run
        (Builder.after (guardedModel pair) [])).1 = .ok (.ok t)
      ∧ ¬ KeepsHandles (takingItem pair) t := by
  refine ⟨?collected, ?t, ?built, ?exposed⟩
  case collected =>
    refine List.mem_of_getElem? (i := 1) ?_
    rfl
  case built =>
    cbv
    rfl
  case exposed =>
    rintro ⟨hpointed, -⟩
    have htuple := hpointed _ (.tail (.tail .refl List.mem_cons_self) List.mem_cons_self) _
      List.mem_cons_self rfl
    simp [InterfaceType.kind] at htuple

end Examples

end Crossing
