import Mathlib
import Crossing.Proofs.Alias.Simulation
import Crossing.Proofs.Building.Answer
import Crossing.Proofs.Building.Signature

/-!
# Aliases are transparent

An item builds exactly when it builds with mentions of an alias replaced by its target, and to the
same type, whatever was built before (`buildItem_inlined`). The alias takes no parameters and does
not lead to itself. A mention may be replaced unless a rule looks at its spelling from outside: at
the place of a return type it must not hide a `Result`, and behind a reference, a `Box` or a counted
pointer it must not hide what a rule looks for there. An alias of `Result` at the place of a return
type is in fact refused (`refused_of_hidden`).
-/

namespace Crossing

/-- An item with mentions of an alias replaced in what it declares. -/
structure ExportItem.Inlined (index index' : NominalIndex) (a : Nominal) (item item' : ExportItem) :
    Prop where
  qualifiedName : item'.qualifiedName = item.qualifiedName
  kind : item'.kind = item.kind
  declares : item.declaration.body.itemKind? = some item.kind
  body : item.declaration.body.Alike (TypeExpr.Inlined index index' a item.scope item.scope)
    item'.declaration.body

namespace Building

variable {m m' : TypeModel} {a : Nominal} {item item' : ExportItem}

theorem TypeModel.Inlining.ofModule {module module' : NativeModule}
    (h : NominalIndex.Inlining (.ofModule module) (.ofModule module') a) (wordBits : Int) :
    TypeModel.Inlining (.ofModule module wordBits .standard)
      (.ofModule module' wordBits .standard) a :=
  ⟨h, h.ofIndex_eq, rfl, rfl, rfl⟩

/-- The task of an item begins where no alias has been opened. -/
theorem Task.ofItem_eq (m : TypeModel) (item : ExportItem) :
    ∃ s r, Task.ofItem m item = .follow s r ∧ r.Known m ∧ s.unopened = m.index.names := by
  unfold Task.ofItem
  simp only
  split
  · exact ⟨_, _, rfl, by simp [Recipe.Known], rfl⟩
  · exact ⟨_, _, rfl, m.known_recipe _ _, rfl⟩
  · exact ⟨_, _, rfl, m.known_recipe _ _, rfl⟩

theorem yields_ofItem_iff (hnodup : m.index.names.Nodup) {t : InterfaceType} :
    Yields m (.ofItem m item) (.ok t) ↔ Forms m (.ofItem m item) t := by
  obtain ⟨s, r, htask, hr, hs⟩ := Task.ofItem_eq m item
  rw [htask]
  exact yields_iff_forms hnodup hr hs

/-- The tasks of an item in both forms. -/
theorem Task.inlined_ofItem (h : m.Inlining m' a)
    (hitem : item.Inlined m.index m'.index a item') :
    Task.Inlined m m' a (.ofItem m item) (.ofItem m' item') := by
  have hsite : (m.site item.scope).Alike (m'.site item.scope) := ⟨rfl, rfl, rfl⟩
  have hscope : item'.scope = item.scope := by
    simp only [ExportItem.scope, hitem.qualifiedName]
  have hdeclares := hitem.declares
  have hbody := hitem.body
  unfold Task.ofItem
  simp only [hitem.kind, hitem.qualifiedName, hscope]
  generalize hb : item.declaration.body = body, hb' : item'.declaration.body = body' at hbody
  rw [hb] at hdeclares
  have hown : Task.Inlined m m' a
      (.follow { m.site item.scope with isDeclaration := true }
        (m.recipe item.scope (.ofNames (QualifiedName.split item.qualifiedName))))
      (.follow { m'.site item.scope with isDeclaration := true }
        (m'.recipe item.scope (.ofNames (QualifiedName.split item.qualifiedName)))) :=
    h.inlined_recipe (.refl h.index.root h.index.names_eq a item.scope _) _ _ rfl rfl
      ⟨rfl, rfl, rfl⟩
  cases hbody with
  | function params ret =>
    obtain hkind := Option.some.inj hdeclares
    rw [← hkind]
    refine .follow hsite (.function ?_ (Rule.rel_return ?_))
    · rw [parameterTypes_of_function hb, parameterTypes_of_function hb']
      exact Related.map_list (fun p p' hp => hp.type)
        (Related.filter_list _ _ (fun p p' hp => by rw [hp.name]) params)
    · rw [returnType?_of_function hb, returnType?_of_function hb']
      exact ⟨.some (Related.getD ret.types (Rule.inlined_unit ..)), ret.fails⟩
  | struct fields =>
    obtain hkind := Option.some.inj hdeclares
    rw [← hkind]
    exact hown
  | enumeration variants =>
    obtain hkind := Option.some.inj hdeclares
    rw [← hkind]
    exact hown
  | «alias» target =>
    obtain hkind := Option.some.inj hdeclares
    rw [← hkind]
    exact h.inlined_recipe target _ _ rfl rfl hsite
  | other kind => cases hdeclares

/-- Callbacks nest alike in both forms of an item. -/
theorem nestingProblems_eq {index index' : NominalIndex}
    (hitem : item.Inlined index index' a item') :
    nestingProblems item' = nestingProblems item := by
  have hlabels : item.kind = .function →
      item'.typeRefs.map (·.1) = item.typeRefs.map (·.1) := by
    intro hkind
    have hdeclares := hitem.declares
    have hbody := hitem.body
    generalize hb : item.declaration.body = body, hb' : item'.declaration.body = body' at hbody
    rw [hb, hkind] at hdeclares
    cases hbody with
    | function params ret =>
      rw [typeRefs_of_function hb, typeRefs_of_function hb']
      simp only [List.map_append, List.map_map]
      exact congrArg (· ++ _) (Related.map_eq (fun p p' hp => hp.name.symm) params).symm
    | _ => cases hdeclares
  funext t
  unfold nestingProblems
  simp only [hitem.kind, ExportItem.name, hitem.qualifiedName]
  cases hkind : item.kind with
  | function => simp only [hlabels hkind]
  | _ => rfl

section Builds

variable {b : Builder} {t : InterfaceType}

theorem reported_unnested_eq_ok {o : Outcome} :
    reported item (unnested item o) = .ok t ↔ o = .ok t ∧ nestingProblems item t = [] := by
  rcases o with ps | u
  · simp [unnested, reported]
  · unfold unnested
    simp only
    split
    · rename_i hnone
      simp only [reported, Except.ok.injEq]
      exact ⟨fun h => ⟨h, h ▸ hnone⟩, And.left⟩
    · rename_i hsome
      simp only [reported, Except.ok.injEq, reduceCtorEq, false_iff]
      rintro ⟨rfl, hnone⟩
      exact hsome hnone

/-- An item builds to what its task forms, unless callbacks nest in that. -/
theorem built_iff (hnodup : m.index.names.Nodup) (hb : b.Faithful m) :
    ((Builder.buildItem m item).run.run b).1 = .ok (.ok t) ↔
      Forms m (.ofItem m item) t ∧ nestingProblems item t = [] := by
  have hanswers : Answers m item (.ok t) ↔
      Forms m (.ofItem m item) t ∧ nestingProblems item t = [] := by
    simp only [Answers, reported_unnested_eq_ok, ← yields_ofItem_iff hnodup]
    constructor
    · rintro ⟨o, ho, rfl, hnone⟩
      exact ⟨ho, hnone⟩
    · rintro ⟨hyields, hnone⟩
      exact ⟨_, hyields, rfl, hnone⟩
  rw [← hanswers]
  refine ⟨answers_of_buildItem hnodup hb, fun h => ?_⟩
  cases hr : ((Builder.buildItem m item).run.run b).1 with
  | error fault => exact absurd ((doomed_iff hnodup hb).1 ⟨fault, hr⟩) h.yields.not_doomed
  | ok r => rw [h.unique (answers_of_buildItem hnodup hb hr)]

end Builds

end Building

open Building

/-- An item builds exactly when it builds with mentions of an alias replaced by its target, and to
the same type, whatever was built before. -/
theorem buildItem_inlined {module module' : NativeModule} {a : Nominal}
    (h : NominalIndex.Inlining (.ofModule module) (.ofModule module') a) {item item' : ExportItem}
    (hitem : item.Inlined (.ofModule module) (.ofModule module') a item') (wordBits : Int)
    (items items' : List ExportItem) (t : InterfaceType) :
    let m := TypeModel.ofModule module wordBits .standard
    let m' := TypeModel.ofModule module' wordBits .standard
    ((Builder.buildItem m item).run.run (Builder.after m items)).1 = .ok (.ok t) ↔
      ((Builder.buildItem m' item').run.run (Builder.after m' items')).1 = .ok (.ok t) := by
  intro m m'
  have hinlining : m.Inlining m' a := .ofModule h wordBits
  have hnodup : m.index.names.Nodup := NominalIndex.nodup_names_ofModule module
  have hnodup' : m'.index.names.Nodup := NominalIndex.nodup_names_ofModule module'
  rw [built_iff hnodup (Builder.faithful_after hnodup items),
    built_iff hnodup' (Builder.faithful_after hnodup' items'), nestingProblems_eq hitem,
    hinlining.forms_iff_forms (Task.inlined_ofItem hinlining hitem)]

section Examples

def short : TypeExpr := .ofNames ["Short"]

def bytes : TypeExpr := .path [.plain "Vec" [.ofNames ["u8"]] [] []]

def failing : TypeExpr := .path [.plain "Result" [.ofNames ["i32"], .ofNames ["u8"]] [] []]

def shortAlias (target : TypeExpr) : Nominal :=
  ⟨"crate::Short", ["crate"], ⟨"Short", .everyone, [], [], {}, .alias target⟩⟩

/-- A module with an alias and another declaration. -/
def shortening (target : TypeExpr) (d : Declaration) : NativeModule where
  name := "crate"
  items := [(shortAlias target).declaration, d]
  children := []
  visibility := .everyone
  span := {}

def frame (body : TypeExpr) : Declaration :=
  ⟨"Frame", .everyone, [], [], {}, .struct [⟨some "body", body, .everyone⟩] .named⟩

def frameItem (body : TypeExpr) : ExportItem where
  qualifiedName := "crate::Frame"
  kind := .struct
  isExplicit := false
  symbol := "Frame"
  index := 1
  modulePath := []
  declaration := frame body

def giving (ret : TypeExpr) : Declaration :=
  ⟨"f", .everyone, [], [], {}, .function [] (some ret) none false false none⟩

def givingItem (ret : TypeExpr) : ExportItem :=
  { takingItem ret with declaration := giving ret }

/-- A struct, and an alias of the type of its field. -/
def framed (body : TypeExpr) : NativeModule := shortening bytes (frame body)

/-- A function, and an alias of the type that it returns. -/
def given (ret : TypeExpr) : NativeModule := shortening failing (giving ret)

theorem nominals_framed (body : TypeExpr) : (NominalIndex.ofModule (framed body)).nominals
    = [shortAlias bytes, ⟨"crate::Frame", ["crate"], frame body⟩] := rfl

theorem nominals_given (ret : TypeExpr) :
    (NominalIndex.ofModule (given ret)).nominals = [shortAlias failing] := rfl

/-- A path that means nothing opens what its arguments open. -/
theorem NominalIndex.not_opens_path {index : NominalIndex} {name head : String}
    {scope : List String} {args : List TypeExpr}
    (hmeaning : (index.resolve [head] scope).nominal? = none)
    (hargs : ∀ t ∈ args, ¬ index.Opens name scope t) :
    ¬ index.Opens name scope (.path [.plain head args [] []]) := by
  intro hopens
  cases hopens with
  | here meaning => cases hmeaning.symm.trans meaning
  | target meaning => cases hmeaning.symm.trans meaning
  | inside mem opens =>
    obtain ⟨t, ht, heq⟩ := List.mem_map.1 mem
    obtain ⟨-, rfl⟩ := Prod.mk.inj heq
    exact hargs t ht opens

theorem short_inlined {index index' : NominalIndex} {target : TypeExpr}
    (hroot : index'.root = index.root) (hnames : index'.names = index.names)
    (hmeaning : (index.resolve ["Short"] ["crate"]).nominal? = some (shortAlias target)) :
    short.Inlined index index' (shortAlias target) ["crate"] ["crate"] target :=
  .opened hmeaning rfl (by rfl) rfl (.refl hroot hnames _ _ _)

theorem inlining_framed : NominalIndex.Inlining (.ofModule (framed short))
    (.ofModule (framed bytes)) (shortAlias bytes) where
  root := rfl
  nominals := by
    have hnames : (NominalIndex.ofModule (framed bytes)).names
        = (NominalIndex.ofModule (framed short)).names := rfl
    have htarget := TypeExpr.Inlined.refl (by rfl) hnames (shortAlias bytes) ["crate"] bytes
    have hbody := @short_inlined (.ofModule (framed short)) _ bytes (by rfl) hnames (by rfl)
    rw [nominals_framed, nominals_framed]
    exact .cons ⟨rfl, rfl, rfl, .alias htarget, rfl⟩
      (.cons ⟨rfl, rfl, rfl, .struct (.cons ⟨rfl, rfl, hbody⟩ .nil), by rfl⟩ .nil)
  nodup := NominalIndex.nodup_names_ofModule _
  mem := nominals_framed short ▸ List.mem_cons_self
  generics := rfl
  acyclic := by
    rintro ⟨_, htarget, hopens⟩
    obtain rfl := Option.some.inj htarget
    refine NominalIndex.not_opens_path (by rfl) (fun t ht => ?_) hopens
    obtain rfl := List.mem_singleton.1 ht
    exact NominalIndex.not_opens_path (by rfl) (List.forall_mem_nil _)

theorem frameItem_inlined : (frameItem short).Inlined (.ofModule (framed short))
    (.ofModule (framed bytes)) (shortAlias bytes) (frameItem bytes) := by
  have hscope : (frameItem short).scope = ["crate"] := by rfl
  refine ⟨rfl, rfl, rfl, ?_⟩
  rw [hscope]
  exact .struct (.cons ⟨rfl, rfl, short_inlined rfl rfl (by rfl)⟩ .nil)

/-- A struct with an alias of a vector in it builds like one with the vector. -/
theorem buildItem_inlined_framed :
    NominalIndex.Inlining (.ofModule (framed short)) (.ofModule (framed bytes)) (shortAlias bytes)
      ∧ (frameItem short).Inlined (.ofModule (framed short)) (.ofModule (framed bytes))
        (shortAlias bytes) (frameItem bytes)
      ∧ ∃ t, ((Builder.buildItem (.ofModule (framed short) 64 .standard) (frameItem short)).run.run
          (Builder.after (.ofModule (framed short) 64 .standard) [])).1 = .ok (.ok t)
        ∧ ((Builder.buildItem (.ofModule (framed bytes) 64 .standard) (frameItem bytes)).run.run
          (Builder.after (.ofModule (framed bytes) 64 .standard) [])).1 = .ok (.ok t) := by
  have hbuilt : ∃ t, ((Builder.buildItem (.ofModule (framed short) 64 .standard)
      (frameItem short)).run.run (Builder.after (.ofModule (framed short) 64 .standard) [])).1
        = .ok (.ok t) := by
    refine ⟨?t, ?built⟩
    case built =>
      cbv
      rfl
  obtain ⟨t, ht⟩ := hbuilt
  exact ⟨inlining_framed, frameItem_inlined, t, ht,
    (buildItem_inlined inlining_framed frameItem_inlined 64 [] [] t).1 ht⟩

theorem inlining_given : NominalIndex.Inlining (.ofModule (given short))
    (.ofModule (given failing)) (shortAlias failing) where
  root := rfl
  nominals := by
    have hnames : (NominalIndex.ofModule (given failing)).names
        = (NominalIndex.ofModule (given short)).names := rfl
    have htarget := TypeExpr.Inlined.refl (by rfl) hnames (shortAlias failing) ["crate"] failing
    rw [nominals_given, nominals_given]
    exact .cons ⟨rfl, rfl, rfl, .alias htarget, rfl⟩ .nil
  nodup := NominalIndex.nodup_names_ofModule _
  mem := nominals_given short ▸ List.mem_cons_self
  generics := rfl
  acyclic := by
    rintro ⟨_, htarget, hopens⟩
    obtain rfl := Option.some.inj htarget
    refine NominalIndex.not_opens_path (by rfl) (fun t ht => ?_) hopens
    rcases List.mem_pair.1 ht with rfl | rfl
    · exact NominalIndex.not_opens_path (by rfl) (List.forall_mem_nil _)
    · exact NominalIndex.not_opens_path (by rfl) (List.forall_mem_nil _)

/-- A function that returns a `Result` builds, but not when it returns an alias of that. -/
theorem refused_of_hidden :
    NominalIndex.Inlining (.ofModule (given short)) (.ofModule (given failing)) (shortAlias failing)
      ∧ short.Inlined (.ofModule (given short)) (.ofModule (given failing)) (shortAlias failing)
        ["crate"] ["crate"] failing
      ∧ givingItem short ∈ (Export.collect (given short) []).items
      ∧ givingItem failing ∈ (Export.collect (given failing) []).items
      ∧ (∃ t, ((Builder.buildItem (.ofModule (given failing) 64 .standard)
          (givingItem failing)).run.run
            (Builder.after (.ofModule (given failing) 64 .standard) [])).1 = .ok (.ok t))
      ∧ ∃ ds, ((Builder.buildItem (.ofModule (given short) 64 .standard)
          (givingItem short)).run.run
            (Builder.after (.ofModule (given short) 64 .standard) [])).1 = .ok (.error ds) := by
  refine ⟨inlining_given, short_inlined rfl rfl (by rfl), ?_, ?_, ⟨?t, ?built⟩, ?ds, ?refused⟩
  · refine List.mem_of_getElem? (i := 1) ?_
    rfl
  · refine List.mem_of_getElem? (i := 1) ?_
    rfl
  case built =>
    cbv
    rfl
  case refused =>
    cbv
    rfl

end Examples

end Crossing
