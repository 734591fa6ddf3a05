import Mathlib
import Crossing.Export.Collection
import Crossing.Proofs.TypeExpr.Nodes

/-!
# What is collected from a module

Each declaration of a module tree has a site: the modules around it below the root. Sites are listed
depth-first, a module's own before those of its children (`sites`). A declaration is eligible when
nothing about it, its site or a node inside its types stands in the way (`Eligible`), and then
nothing is told against it (`hindrances_eq_nil_iff`). A declaration has one of three fates: the
items are made of the eligible ones without a skip marker, in their order, and the diagnostics of
the others with an export marker (`collect_exact`).
-/

namespace Crossing

/-- A declaration with the modules around it, from the outermost below the root. -/
structure Declared where
  modules : List NativeModule
  declaration : Declaration

namespace NativeModule

mutual

/-- The sites in a module that has some modules around it. -/
def sitesFrom (around : List NativeModule) : NativeModule → List Declared
  | ⟨_, items, children, _, _⟩ => items.map (⟨around, ·⟩) ++ sitesInside around children
termination_by structural m => m

def sitesInside (around : List NativeModule) : List NativeModule → List Declared
  | [] => []
  | m :: ms => sitesFrom (around ++ [m]) m ++ sitesInside around ms
termination_by structural ms => ms

end

/-- The declarations of a module tree, depth-first and a module's own before its children's. -/
def sites (m : NativeModule) : List Declared := sitesFrom [] m

/-- The qualified names of the modules on a way from some outer ones that are not visible. -/
def hiddenOn (outer : List String) : List NativeModule → List String
  | [] => []
  | m :: ms =>
    (if m.visibility = .everyone then [] else [QualifiedName.join (outer ++ [m.name])])
      ++ hiddenOn (outer ++ [m.name]) ms

/-- The scope at the end of a way from the root. -/
def scopeOn (root : String) (way : List NativeModule) : Scope where
  modules := root :: way.map (·.name)
  path := way.map (·.name)
  hidden := hiddenOn [root] way

theorem hiddenOn_concat (outer : List String) (way : List NativeModule) (m : NativeModule) :
    hiddenOn outer (way ++ [m]) = hiddenOn outer way
      ++ if m.visibility = .everyone then [] else
        [QualifiedName.join (outer ++ way.map (·.name) ++ [m.name])] := by
  induction way generalizing outer with
  | nil => simp [hiddenOn]
  | cons w way ih => simp [hiddenOn, ih]

theorem scopeOn_concat (root : String) (way : List NativeModule) (m : NativeModule) :
    scopeOn root (way ++ [m]) = (scopeOn root way).enter m := by
  simp [scopeOn, Scope.enter, Scope.qualify, hiddenOn_concat, Visibility.crossesBoundary]

mutual

theorem declarationsFrom_eq (root : String) (way : List NativeModule) : ∀ m : NativeModule,
    declarationsFrom (scopeOn root way) m
      = (sitesFrom way m).map fun s => (scopeOn root s.modules, s.declaration)
  | ⟨_, items, children, _, _⟩ => by
    rw [declarationsFrom, sitesFrom, List.map_append, List.map_map,
      declarationsInside_eq root way children]
    rfl
termination_by structural m => m

theorem declarationsInside_eq (root : String) (way : List NativeModule) :
    ∀ ms : List NativeModule, declarationsInside (scopeOn root way) ms
      = (sitesInside way ms).map fun s => (scopeOn root s.modules, s.declaration)
  | [] => rfl
  | m :: ms => by
    rw [declarationsInside, sitesInside, List.map_append, ← declarationsInside_eq root way ms,
      ← scopeOn_concat, declarationsFrom_eq root (way ++ [m]) m]
termination_by structural ms => ms

end

/-- The walk comes by the sites in their order, each with the scope at the end of its way. -/
theorem declarations_eq (m : NativeModule) :
    m.declarations = m.sites.map fun s => (scopeOn m.name s.modules, s.declaration) :=
  declarationsFrom_eq m.name [] m

end NativeModule

/-- Nothing keeps the declaration from crossing. -/
structure Declared.Eligible (s : Declared) : Prop where
  visible : s.declaration.visibility = .everyone
  enclosing : ∀ m ∈ s.modules, m.visibility = .everyone
  shape : ∀ kind, s.declaration.body ≠ .other kind
  concrete : s.declaration.generics = []
  free : ∀ params ret receiver isAsync isUnsafe abi,
    s.declaration.body = .function params ret receiver isAsync isUnsafe abi →
      receiver = none ∧ isAsync = false
  types : ∀ label t, (label, t) ∈ s.declaration.typeRefs → ∀ u : TypeExpr, u.IsNodeOf t →
    ¬ u.Obstructs s.declaration.generics

namespace Declared

/-- It has an attribute with the path of a skip marker. -/
def Skips (s : Declared) : Prop :=
  ∃ attr ∈ s.declaration.attrs, String.ofList (attributePath attr.toList) ∈ Export.skipMarkers

/-- It has an attribute with the path of one of the export markers. -/
def IsMarked (markers : List String) (s : Declared) : Prop :=
  ∃ attr ∈ s.declaration.attrs, ∃ marker ∈ markers,
    attributePath marker.toList = attributePath attr.toList

/-- What stands in the way of the declaration, in the order in which it is told: its own visibility,
the modules around it from the outermost, its shape, and the nodes of its types. -/
def hindrances (root : String) (s : Declared) : List String :=
  (if s.declaration.visibility = .everyone then []
    else ["item is not `pub` (visibility `" ++ s.declaration.visibility.name ++ "`)"])
    ++ (NativeModule.hiddenOn [root] s.modules).map
      (fun m => "enclosing module `" ++ m ++ "` is not `pub`")
    ++ Export.shapeReasons s.declaration
    ++ s.declaration.typeRefs.flatMap fun (label, t) => t.nodes.flatMap fun u =>
      (u.ownObstacles s.declaration.generics).map fun reason => "`" ++ label ++ "`: " ++ reason

end Declared

/-- Each member of a list once, in the order of their first places. -/
structure IsListing (rs all : List String) : Prop where
  mem_iff : ∀ r, r ∈ rs ↔ r ∈ all
  ordered : rs.Pairwise fun a b => all.idxOf a < all.idxOf b

/-- What becomes of a declaration. -/
inductive Fate where
  | ignored
  | diagnosed
  | collected
  deriving DecidableEq

namespace Export

open NativeModule (scopeOn hiddenOn)

section Reasons

variable {root : String} {s : Declared} {d : Declaration}

theorem idxOf_filter_lt {p : String → Bool} {a b : String} (ha : p a) (hb : p b)
    {rs : List String} :
    (rs.filter p).idxOf a < (rs.filter p).idxOf b ↔ rs.idxOf a < rs.idxOf b := by
  induction rs with
  | nil => rfl
  | cons r rs ih =>
    by_cases hr : p r
    · rw [List.filter_cons_of_pos hr]
      simp only [List.idxOf_cons]
      cases r == a <;> cases r == b <;> simp only [cond_true, cond_false] <;> omega
    · have hra : r ≠ a := by
        rintro rfl
        exact hr ha
      have hrb : r ≠ b := by
        rintro rfl
        exact hr hb
      rw [List.filter_cons_of_neg hr, ih, List.idxOf_cons_ne _ hra, List.idxOf_cons_ne _ hrb,
        Nat.succ_lt_succ_iff]

theorem ordered_eraseDups (rs : List String) :
    rs.eraseDups.Pairwise fun a b => rs.idxOf a < rs.idxOf b := by
  cases rs with
  | nil => exact .nil
  | cons r rs =>
    rw [List.eraseDups_cons, List.pairwise_cons]
    have hother : ∀ a ∈ (rs.filter fun b => !b == r).eraseDups, r ≠ a := by
      intro a ha
      have hne := (List.mem_filter.1 (List.mem_eraseDups.1 ha)).2
      rintro rfl
      simp at hne
    refine ⟨fun a ha => ?_, (ordered_eraseDups _).imp_of_mem fun {a b} ha hb hlt => ?_⟩
    · rw [List.idxOf_cons_self, List.idxOf_cons_ne _ (hother a ha)]
      exact Nat.succ_pos _
    · rw [List.idxOf_cons_ne _ (hother a ha), List.idxOf_cons_ne _ (hother b hb)]
      rw [idxOf_filter_lt (by simpa using (hother a ha).symm)
        (by simpa using (hother b hb).symm)] at hlt
      exact Nat.succ_lt_succ hlt
termination_by rs.length
decreasing_by exact Nat.lt_succ_of_le (List.length_filter_le _ _)

theorem isListing_distinct (rs : List String) : IsListing (distinct rs) rs :=
  ⟨fun _ => List.mem_eraseDups, ordered_eraseDups rs⟩

theorem reasons_eq : reasons (scopeOn root s.modules) s.declaration
    = distinct (s.hindrances root) := by
  simp [reasons, Declared.hindrances, typeReasons, TypeExpr.obstacles_eq, scopeOn, List.map_flatMap,
    Visibility.crossesBoundary]

theorem hiddenOn_eq_nil_iff {outer : List String} {way : List NativeModule} :
    hiddenOn outer way = [] ↔ ∀ m ∈ way, m.visibility = .everyone := by
  induction way generalizing outer with
  | nil => simp [hiddenOn]
  | cons m way ih => simp [hiddenOn, ih]

theorem genericReasons_eq_nil_iff : shapeReasons.genericReasons d = [] ↔ d.generics = [] := by
  simp [shapeReasons.genericReasons]

theorem shapeReasons_eq_nil_iff : shapeReasons d = [] ↔
    (∀ kind, d.body ≠ .other kind) ∧ d.generics = [] ∧
      ∀ params ret receiver isAsync isUnsafe abi,
        d.body = .function params ret receiver isAsync isUnsafe abi →
          receiver = none ∧ isAsync = false := by
  unfold shapeReasons
  cases hbody : d.body with
  | function params ret receiver isAsync isUnsafe abi =>
    simp only [List.append_eq_nil_iff, genericReasons_eq_nil_iff]
    constructor
    · rintro ⟨⟨hreceiver, hasync⟩, hgenerics⟩
      refine ⟨by simp, hgenerics, ?_⟩
      rintro _ _ _ _ _ _ ⟨⟩
      cases receiver with
      | none => exact ⟨rfl, by simpa using hasync⟩
      | some receiver => cases hreceiver
    · rintro ⟨-, hgenerics, hfree⟩
      obtain ⟨rfl, rfl⟩ := hfree _ _ _ _ _ _ rfl
      exact ⟨⟨rfl, rfl⟩, hgenerics⟩
  | struct fields style => simp [genericReasons_eq_nil_iff]
  | enumeration variants => simp [genericReasons_eq_nil_iff]
  | «alias» target => simp [genericReasons_eq_nil_iff]
  | other kind => simp

/-- Nothing stands in the way of a declaration exactly when it is eligible. -/
theorem hindrances_eq_nil_iff : s.hindrances root = [] ↔ s.Eligible := by
  simp only [Declared.hindrances, List.append_eq_nil_iff, List.map_eq_nil_iff, hiddenOn_eq_nil_iff,
    shapeReasons_eq_nil_iff, List.flatMap_eq_nil_iff, TypeExpr.ownObstacles_eq_nil_iff,
    TypeExpr.mem_nodes_iff, Prod.forall, ite_eq_left_iff, List.cons_ne_nil, imp_false, not_not]
  constructor
  · rintro ⟨⟨⟨hvisible, henclosing⟩, hshape, hconcrete, hfree⟩, htypes⟩
    exact ⟨hvisible, henclosing, hshape, hconcrete, hfree, htypes⟩
  · rintro ⟨hvisible, henclosing, hshape, hconcrete, hfree, htypes⟩
    exact ⟨⟨⟨hvisible, henclosing⟩, hshape, hconcrete, hfree⟩, htypes⟩

instance : Decidable s.Eligible := decidable_of_iff _ (@hindrances_eq_nil_iff "" s)

theorem isMarked_skip : isMarked s.declaration.attrs skipMarkers = true ↔ s.Skips := by
  simp [isMarked, Declared.Skips]

theorem isMarked_markers {markers : List String} : isMarked s.declaration.attrs
    (markers.map fun marker => String.ofList (attributePath marker.toList)) = true
      ↔ s.IsMarked markers := by
  simp [isMarked, Declared.IsMarked, String.ofList_inj]

instance : Decidable s.Skips := decidable_of_iff _ isMarked_skip

instance (markers : List String) : Decidable (s.IsMarked markers) :=
  decidable_of_iff _ isMarked_markers

end Reasons

end Export

/-- A declaration with a skip marker is ignored, and so is one that is not eligible, unless it has
an export marker: then it is diagnosed. -/
def Declared.Meets (markers : List String) (s : Declared) : Fate → Prop
  | .ignored => s.Skips ∨ ¬ s.Eligible ∧ ¬ s.IsMarked markers
  | .diagnosed => ¬ s.Skips ∧ ¬ s.Eligible ∧ s.IsMarked markers
  | .collected => ¬ s.Skips ∧ s.Eligible

instance (markers : List String) (s : Declared) : ∀ fate, Decidable (s.Meets markers fate)
  | .ignored => inferInstanceAs (Decidable (_ ∨ _))
  | .diagnosed => inferInstanceAs (Decidable (_ ∧ _))
  | .collected => inferInstanceAs (Decidable (_ ∧ _))

theorem Declared.existsUnique_fate (markers : List String) (s : Declared) :
    ∃! fate, s.Meets markers fate := by
  by_cases hskips : s.Skips
  · refine ⟨.ignored, .inl hskips, fun fate hfate => ?_⟩
    cases fate <;> simp_all [Meets]
  by_cases heligible : s.Eligible
  · refine ⟨.collected, ⟨hskips, heligible⟩, fun fate hfate => ?_⟩
    cases fate <;> simp_all [Meets]
  by_cases hmarked : s.IsMarked markers
  · refine ⟨.diagnosed, ⟨hskips, heligible, hmarked⟩, fun fate hfate => ?_⟩
    cases fate <;> simp_all [Meets]
  · refine ⟨.ignored, .inr ⟨heligible, hmarked⟩, fun fate hfate => ?_⟩
    cases fate <;> simp_all [Meets]

/-- The item is that of the declaration at a site. -/
structure IsItemAt (root : String) (markers : List String) (item : ExportItem) (s : Declared) :
    Prop where
  qualifiedName : item.qualifiedName
    = QualifiedName.join (root :: s.modules.map (·.name) ++ [s.declaration.name])
  kind : s.declaration.body.itemKind? = some item.kind
  isExplicit : item.isExplicit = true ↔ s.IsMarked markers
  symbol : item.symbol
    = Identifier.exportSymbol (s.modules.map (·.name)) s.declaration.name
  modulePath : item.modulePath = s.modules.map (·.name)
  declaration : item.declaration = s.declaration

/-- The diagnostic tells what stands in the way of the declaration at a site. -/
def IsReportAt (root : String) (diagnostic : Diagnostic) (s : Declared) : Prop :=
  ∃ first others, IsListing (first :: others) (s.hindrances root) ∧ diagnostic = {
    kind := .unsupported
    message := "item is marked for export but cannot cross the boundary: " ++ first
    item := some (QualifiedName.join (root :: s.modules.map (·.name) ++ [s.declaration.name]))
    stage := some "collector"
    span := s.declaration.span
    notes := others }

namespace Export

open NativeModule (scopeOn)

/-- The verdict on a site follows its fate. -/
inductive Judged (root : String) (markers : List String) (s : Declared) : Verdict → Prop where
  | skipped (fate : s.Meets markers .ignored) : Judged root markers s .skipped
  | ignored (fate : s.Meets markers .ignored) (reasons : List String) :
      Judged root markers s (.ignored reasons)
  | refused (fate : s.Meets markers .diagnosed) {first : String} {others : List String}
      (listing : IsListing (first :: others) (s.hindrances root)) :
      Judged root markers s (.refused first others)
  | collected (fate : s.Meets markers .collected) {kind : ItemKind} {isExplicit : Bool}
      (kind_eq : s.declaration.body.itemKind? = some kind)
      (marked : isExplicit = true ↔ s.IsMarked markers) :
      Judged root markers s (.collected kind isExplicit)

theorem exists_itemKind {s : Declared} (h : s.Eligible) :
    ∃ kind, s.declaration.body.itemKind? = some kind := by
  cases hbody : s.declaration.body with
  | other kind => exact absurd hbody (h.shape kind)
  | function => exact ⟨_, rfl⟩
  | struct => exact ⟨_, rfl⟩
  | enumeration => exact ⟨_, rfl⟩
  | «alias» => exact ⟨_, rfl⟩

theorem judged_judge (root : String) (markers : List String) (s : Declared) :
    Judged root markers s (judge (markers.map fun marker =>
      String.ofList (attributePath marker.toList)) (scopeOn root s.modules) s.declaration) := by
  have hmarked := @isMarked_markers s markers
  have hlisting := isListing_distinct (s.hindrances root)
  unfold judge
  rw [reasons_eq]
  by_cases hskips : s.Skips
  · rw [if_pos (isMarked_skip.2 hskips)]
    exact .skipped (.inl hskips)
  rw [if_neg (mt isMarked_skip.1 hskips)]
  cases hreasons : distinct (s.hindrances root) with
  | nil =>
    have heligible : s.Eligible := by
      rw [← @hindrances_eq_nil_iff root, List.eq_nil_iff_forall_not_mem]
      intro r hr
      simpa [hreasons] using (hlisting.mem_iff r).2 hr
    obtain ⟨kind, hkind⟩ := exists_itemKind heligible
    rw [hkind]
    exact .collected ⟨hskips, heligible⟩ hkind hmarked
  | cons first others =>
    have hnot : ¬ s.Eligible := by
      rw [← @hindrances_eq_nil_iff root]
      intro hnil
      rw [hnil] at hreasons
      simp [distinct] at hreasons
    rw [hreasons] at hlisting
    simp only
    split
    · exact .refused ⟨hskips, hnot, hmarked.1 ‹_›⟩ hlisting
    · exact .ignored (.inr ⟨hnot, mt hmarked.2 ‹_›⟩) _

/-- What is collected from some sites: an item for each that is collected, numbered in their order,
and a diagnostic for each that is diagnosed. -/
structure Collects (root : String) (markers : List String) (ss : List Declared)
    (c : Collection) : Prop where
  items : List.Forall₂ (IsItemAt root markers) c.items (ss.filter (·.Meets markers .collected))
  numbered : c.items.map (·.index) = List.range c.items.length
  diagnostics : List.Forall₂ (IsReportAt root) c.diagnostics
    (ss.filter (·.Meets markers .diagnosed))

variable {root : String} {markers : List String} {ss : List Declared} {c : Collection}
  {s : Declared}

theorem filter_concat_self {fate : Fate} (h : s.Meets markers fate) :
    (ss ++ [s]).filter (·.Meets markers fate) = ss.filter (·.Meets markers fate) ++ [s] := by
  rw [List.filter_append, List.filter_singleton, decide_eq_true h, cond_true]

theorem filter_concat_other {fate fate' : Fate} (h : s.Meets markers fate) (hne : fate ≠ fate') :
    (ss ++ [s]).filter (·.Meets markers fate') = ss.filter (·.Meets markers fate') := by
  have hnot : ¬ s.Meets markers fate' := fun h' =>
    hne ((s.existsUnique_fate markers).unique h h')
  rw [List.filter_append, List.filter_singleton, decide_eq_false hnot, cond_false, List.append_nil]

/-- The verdict on one more site adds what its fate asks for. -/
theorem Collects.add (h : Collects root markers ss c) {verdict : Verdict}
    (hjudged : Judged root markers s verdict) :
    Collects root markers (ss ++ [s]) (c.add (scopeOn root s.modules) s.declaration verdict) := by
  have hother : s.Meets markers .ignored → Collects root markers (ss ++ [s]) c := by
    intro hfate
    refine ⟨?_, h.numbered, ?_⟩
    · rw [filter_concat_other hfate (by decide)]
      exact h.items
    · rw [filter_concat_other hfate (by decide)]
      exact h.diagnostics
  cases hjudged with
  | skipped hfate =>
    obtain ⟨hitems, hnumbered, hdiagnostics⟩ := hother hfate
    exact ⟨hitems, hnumbered, hdiagnostics⟩
  | ignored hfate reasons =>
    obtain ⟨hitems, hnumbered, hdiagnostics⟩ := hother hfate
    exact ⟨hitems, hnumbered, hdiagnostics⟩
  | refused hfate hlisting =>
    refine ⟨?_, h.numbered, ?_⟩
    · rw [filter_concat_other hfate (by decide)]
      exact h.items
    · rw [filter_concat_self hfate]
      exact List.rel_append h.diagnostics (.cons ⟨_, _, hlisting, rfl⟩ .nil)
  | collected hfate hkind hmarked =>
    refine ⟨?_, ?_, ?_⟩
    · rw [filter_concat_self hfate]
      exact List.rel_append h.items (.cons ⟨rfl, hkind, hmarked, rfl, rfl, rfl⟩ .nil)
    · simp [Collection.add, h.numbered, List.range_succ]
    · rw [filter_concat_other hfate (by decide)]
      exact h.diagnostics

theorem collects_collect (m : NativeModule) (markers : List String) :
    Collects m.name markers m.sites (collect m markers) := by
  have hrun : ∀ ss : List Declared, Collects m.name markers ss (ss.foldl
      (fun (c : Collection) s => c.add (scopeOn m.name s.modules) s.declaration
        (judge (markers.map fun marker => String.ofList (attributePath marker.toList))
          (scopeOn m.name s.modules) s.declaration)) {}) := by
    intro ss
    induction ss using List.reverseRecOn with
    | nil => exact ⟨.nil, rfl, .nil⟩
    | append_singleton ss s ih =>
      rw [List.foldl_append]
      exact ih.add (judged_judge m.name markers s)
  obtain ⟨hitems, hnumbered, hdiagnostics⟩ := hrun m.sites
  unfold collect
  simp only [NativeModule.declarations_eq, List.foldl_map]
  exact ⟨hitems, hnumbered, hdiagnostics⟩

end Export

/-- Every declaration has one fate. The items of a module are those of the declarations that are
collected, in the order of their sites and numbered from 0, and its diagnostics tell of those that
are diagnosed, each with the distinct hindrances in order; there are none exactly when the
declaration is eligible. -/
theorem collect_exact (m : NativeModule) (markers : List String) :
    (∀ s : Declared, ∃! fate, s.Meets markers fate) ∧
    (∀ s : Declared, s.hindrances m.name = [] ↔ s.Eligible) ∧
    List.Forall₂ (IsItemAt m.name markers) (Export.collect m markers).items
      (m.sites.filter (·.Meets markers .collected)) ∧
    (Export.collect m markers).items.map (·.index)
      = List.range (Export.collect m markers).items.length ∧
    List.Forall₂ (IsReportAt m.name) (Export.collect m markers).diagnostics
      (m.sites.filter (·.Meets markers .diagnosed)) := by
  obtain ⟨hitems, hnumbered, hdiagnostics⟩ := Export.collects_collect m markers
  exact ⟨Declared.existsUnique_fate markers, fun _ => Export.hindrances_eq_nil_iff, hitems,
    hnumbered, hdiagnostics⟩

end Crossing
