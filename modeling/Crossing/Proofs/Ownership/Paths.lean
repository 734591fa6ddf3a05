import Mathlib
import Crossing.Proofs.InterfaceType.Ways
import Crossing.Proofs.Building.Nesting
import Crossing.Proofs.Ownership.Ruling
import Crossing.Proofs.Ownership.Signature

/-!
# The paths of slots

The slots of an item stand at the ways into its type, whatever their modes: the path of a slot is
its way as it is written (`paths_of_resolveItem`). Paths are distinct when the names beside each
other are, at the root and in every record and union, and none is empty or holds a dot
(`paths_distinct`). Nothing keeps a function from having two parameters of one name, or one called
`error` beside the error that it returns, and then two slots share a path.
-/

namespace Crossing

namespace Slot

/-- The slot stands at a path and its children are those of its type, each at the path of its
label. -/
inductive Traced : String → Slot → Prop where
  | intro {path : String} {p : Slot} (path_eq : p.path = path)
      (children : p.children.map (fun c => (c.label, c.type)) = p.type.children)
      (traced : ∀ c ∈ p.children, Traced (under path c.label) c) : Traced path p

theorem map_path_preorder {p : Slot} {parts : List (String × InterfaceType)}
    (hparts : p.children.map (fun c => (c.label, c.type)) = parts)
    (hchildren : ∀ c ∈ p.children,
      c.preorder.map (·.path) = c.type.ways.map (pathOf (under p.path c.label))) :
    p.preorder.map (·.path) = (waysInto parts).map (pathOf p.path) := by
  subst hparts
  rw [preorder_eq, waysInto, List.map_cons, List.map_cons, List.map_flatMap, List.map_flatMap,
    List.flatMap_map]
  refine congrArg₂ _ rfl (List.flatMap_congr fun c hc => ?_)
  rw [hchildren c hc, List.map_map]
  rfl

theorem Traced.map_path {path : String} {p : Slot} (h : Traced path p) :
    p.preorder.map (·.path) = p.type.ways.map (pathOf path) := by
  induction h with
  | intro hpath hparts _ ih =>
    subst hpath
    rw [InterfaceType.ways_eq]
    exact map_path_preorder hparts ih

end Slot

namespace Ownership

variable {terms : Terms} {item : ExportItem} {t : InterfaceType} {r : ResolvedItem} {b : Resolver}

theorem map_labels_parts (s : Standing) (t : InterfaceType) (mode : OwnershipMode) :
    (s.parts t mode).map (fun x => (x.1, x.2.1)) = t.children := by
  unfold Standing.parts
  split
  · simp [Standing.signature, InterfaceType.children, Function.comp_def]
  · simp [Function.comp_def]

/-- The children that parts are answered with are labelled and typed as the parts, and traced. -/
theorem traced_of_made {xs : List (String × InterfaceType × Standing)} {place : String → String}
    {made : List ((String × InterfaceType × Standing) × Findings Diagnostic Slot)}
    {children : List Slot} (hfst : made.map (·.1) = xs)
    (hall : Findings.all (made.map (·.2)) = .ok children)
    (hmade : ∀ q ∈ made, ∀ c, q.2 = .ok c →
      (c.label, c.type) = (q.1.1, q.1.2.1) ∧ c.Traced (place q.1.1)) :
    children.map (fun c => (c.label, c.type)) = xs.map (fun x => (x.1, x.2.1)) ∧
      ∀ c ∈ children, c.Traced (place c.label) := by
  have hchildren := forall₂_of_made (P := fun (x : String × InterfaceType × Standing)
    (found : Findings Diagnostic Slot) => ∀ c, found = .ok c →
      (c.label, c.type) = (x.1, x.2.1) ∧ c.Traced (place x.1)) hmade (Findings.all_eq_ok.1 hall)
  rw [hfst] at hchildren
  constructor
  · rw [← List.forall₂_eq_eq_eq, List.forall₂_map_left_iff, List.forall₂_map_right_iff]
    exact hchildren.flip.imp fun c x hx => (hx c rfl).1
  · intro c hc
    obtain ⟨x, -, hx⟩ := Related.exists_of_mem hchildren.flip hc
    obtain ⟨hlabel, htraced⟩ := hx c rfl
    rwa [(Prod.mk.inj hlabel).1]

theorem keeps_traced (terms : Terms) (item : ExportItem) (s : Standing) (label path : String)
    (t : InterfaceType) :
    Keeps (fun _ => True) (slot terms item s label path t) (OnValue fun found =>
      ∀ p, found = .ok p → (p.label, p.type) = (label, t) ∧ p.Traced path) := by
  rw [slot]
  refine Keeps.bindValue (Keeps.anyway (modeOf terms item s path t)) fun found _ => ?_
  cases found with
  | error ds => exact Keeps.pure (by rintro _ ⟨⟩)
  | ok mode =>
    refine Keeps.bindValue (Keeps.anyway (layoutOf t)) fun layout _ => ?_
    refine Keeps.bindValue (Keeps.attachMapM (R := fun x found => ∀ p, found = .ok p →
      (p.label, p.type) = (x.1, x.2.1) ∧ p.Traced (Slot.under path x.1)) ?_) fun parts hparts => ?_
    · rintro ⟨label, u, below⟩ hx
      exact keeps_traced terms item below label (Slot.under path label) u
    · obtain ⟨made, hfst, rfl, hmade⟩ := hparts
      split
      · exact Keeps.pure (by rintro _ ⟨⟩)
      · rename_i children hok
        obtain ⟨-, children', -, hall, rfl⟩ := Findings.combine_eq_ok.1 hok
        refine Keeps.bindValue (Keeps.anyway _) fun o _ => Keeps.pure fun p hp => ?_
        obtain rfl := Except.ok.inj hp
        obtain ⟨hchildren, htraced⟩ := traced_of_made hfst hall hmade
        exact ⟨rfl, .intro rfl (hchildren.trans (map_labels_parts s t mode)) htraced⟩
termination_by sizeOf t
decreasing_by exact Standing.sizeOf_part_lt ‹_›

/-- The labelled types beside each other at the root of an item. -/
def rootParts (item : ExportItem) (t : InterfaceType) : List (String × InterfaceType) :=
  match item.kind, t with
  | .function, .function params ret failure _ =>
    (positions item params ret failure).map fun x => (x.1, x.2.1)
  | _, t => t.children

theorem keeps_functionRoot_traced (terms : Terms) (item : ExportItem) (t : InterfaceType)
    (params : List InterfaceType) (ret : InterfaceType) (failure : Failure InterfaceType) :
    Keeps (fun _ => True) (functionRoot terms item t params ret failure) (OnValue fun found =>
      ∀ p, found = .ok p → p.path = ""
        ∧ p.children.map (fun c => (c.label, c.type))
          = (positions item params ret failure).map (fun x => (x.1, x.2.1))
        ∧ ∀ c ∈ p.children, c.Traced c.label) := by
  unfold functionRoot
  refine Keeps.bindValue (Keeps.mapM (R := fun x found => ∀ p, found = .ok p →
    (p.label, p.type) = (x.1, x.2.1) ∧ p.Traced x.1) ?_) fun parts hparts => ?_
  · rintro ⟨label, u, s⟩ -
    exact keeps_traced terms item s label label u
  · obtain ⟨made, hfst, rfl, hmade⟩ := hparts
    split
    · exact Keeps.pure (by rintro _ ⟨⟩)
    · rename_i children hok
      obtain ⟨children', -, hall, -, rfl⟩ := Findings.combine_eq_ok.1 hok
      refine Keeps.bindValue (Keeps.anyway (layoutOf t)) fun layout _ => Keeps.pure fun p hp => ?_
      obtain rfl := Except.ok.inj hp
      obtain ⟨hchildren, htraced⟩ := @traced_of_made _ id _ _ hfst hall hmade
      exact ⟨rfl, hchildren, htraced⟩

theorem keeps_resolveRoot_traced (terms : Terms) (item : ExportItem) (t : InterfaceType) :
    Keeps (fun _ => True) (resolveRoot terms item t) (OnValue fun found =>
      ∀ p, found = .ok p → p.path = ""
        ∧ p.children.map (fun c => (c.label, c.type)) = rootParts item t
        ∧ ∀ c ∈ p.children, c.Traced c.label) := by
  have hslot : Keeps (fun _ => True) (slot terms item ⟨.position, .declaration⟩ item.name "" t)
      (OnValue fun found => ∀ p, found = .ok p → p.path = ""
        ∧ p.children.map (fun c => (c.label, c.type)) = t.children
        ∧ ∀ c ∈ p.children, c.Traced c.label) := by
    refine (keeps_traced terms item ⟨.position, .declaration⟩ item.name "" t).mono ?_
    rintro (_ | found) hfound
    · trivial
    · intro p hp
      obtain ⟨hlabel, htraced⟩ := hfound p hp
      cases htraced with
      | intro hpath hchildren htraced =>
        exact ⟨hpath, hchildren.trans (by rw [(Prod.mk.inj hlabel).2]), htraced⟩
  unfold resolveRoot rootParts
  cases item.kind <;> cases t
  case function.function => exact keeps_functionRoot_traced terms item _ _ _ _
  all_goals exact hslot

/-- The slots at the root of a resolved item are labelled and typed as the parts there, and
traced. -/
theorem traced_of_resolveItem (h : ((resolveItem terms item t).run.run b).1 = .ok (.ok r)) :
    r.root.path = "" ∧ r.root.children.map (fun c => (c.label, c.type)) = rootParts item t ∧
      ∀ c ∈ r.root.children, c.Traced c.label := by
  have hkeeps : Keeps (fun _ => True) (resolveItem terms item t) (OnValue fun found =>
      ∀ r, found = .ok r → r.root.path = ""
        ∧ r.root.children.map (fun c => (c.label, c.type)) = rootParts item t
        ∧ ∀ c ∈ r.root.children, c.Traced c.label) := by
    refine Keeps.bindValue (keeps_resolveRoot_traced terms item t) fun found hfound =>
      Keeps.pure fun r hr => ?_
    obtain ⟨p, hp, rfl⟩ := Findings.map_eq_ok.1 hr
    exact hfound p hp
  have hvalue := (hkeeps.run (s := b) trivial).1
  rw [h] at hvalue
  exact hvalue r rfl

/-- The slots of a resolved item stand at the ways into its type, in their order. -/
theorem paths_of_resolveItem (h : ((resolveItem terms item t).run.run b).1 = .ok (.ok r)) :
    r.root.children.map (fun c => (c.label, c.type)) = rootParts item t ∧
      r.slots.map (·.path) = (waysInto (rootParts item t)).map (pathOf "") := by
  obtain ⟨hpath, hchildren, htraced⟩ := traced_of_resolveItem h
  refine ⟨hchildren, ?_⟩
  have hpaths := Slot.map_path_preorder hchildren fun c hc => by
    rw [hpath]
    exact (htraced c hc).map_path
  rwa [hpath] at hpaths

/-- A name that can stand between dots. -/
def IsPlainName (name : String) : Prop := name ≠ "" ∧ '.' ∉ name.toList

/-- The names of the parameters, and of the fields and variants anywhere inside the type, can stand
between dots. -/
structure PlainlyNamed (item : ExportItem) (t : InterfaceType) : Prop where
  parameters : item.kind = .function → ∀ name ∈ parameterLabels item, IsPlainName name
  inside : ∀ u, t.Contains u → ∀ name ∈ u.names, IsPlainName name

/-- The names beside each other at the root of an item differ. A parameter also differs from the
error that is returned. -/
def RootApart (item : ExportItem) (t : InterfaceType) : Prop :=
  match item.kind, t with
  | .function, .function _ _ failure _ =>
    (parameterLabels item).Nodup ∧ ((∃ e, failure = .typed e) → "error" ∉ parameterLabels item)
  | _, t => (t.children.map (·.1)).Nodup

/-- Names beside each other differ, at the root and in every record and union inside the type. -/
structure NamedApart (item : ExportItem) (t : InterfaceType) : Prop where
  root : RootApart item t
  inside : ∀ p ∈ t.parts, ∀ u, p.Contains u → u.kind = .record ∨ u.kind = .taggedUnion →
    (u.children.map (·.1)).Nodup

/-- Each parameter of a function item is labelled. -/
def IsLabelled (item : ExportItem) (t : InterfaceType) : Prop :=
  item.kind = .function → ∀ params ret failure holding,
    t = .function params ret failure holding → (parameterLabels item).length = params.length

theorem rootParts_cases (hlabelled : IsLabelled item t) :
    (item.kind = .function ∧ ∃ params ret failure holding,
      t = .function params ret failure holding ∧ (rootParts item t).map (·.1)
        = parameterLabels item ++ "return" :: (InterfaceType.failureParts failure).map (·.1)) ∨
    (rootParts item t = t.children ∧ RootApart item t = (t.children.map (·.1)).Nodup) := by
  unfold IsLabelled at hlabelled
  unfold rootParts RootApart
  cases hkind : item.kind <;> cases t
  case function.function params ret failure holding =>
    have hlength := hlabelled hkind _ _ _ _ rfl
    refine .inl ⟨rfl, params, ret, failure, holding, rfl, ?_⟩
    simp only [positions_eq rfl hlength, List.map_append, List.map_cons]
    rw [List.map_fst_zip hlength.le]
  all_goals exact .inr ⟨rfl, rfl⟩

/-- Whether the names at the root differ is whether its labels do. -/
theorem rootApart_iff (hlabelled : IsLabelled item t) :
    RootApart item t ↔ ((rootParts item t).map (·.1)).Nodup := by
  rcases rootParts_cases hlabelled with ⟨hkind, params, ret, failure, holding, rfl, hlabels⟩ | h
  · have hreturn : "return" ∉ parameterLabels item := by simp [parameterLabels]
    rw [hlabels, nodup_signature_iff]
    simp only [RootApart, hkind, hreturn, not_false_eq_true, true_and]
  · rw [h.1, h.2]

theorem even_rootLabels (hlabelled : IsLabelled item t) (h : PlainlyNamed item t) :
    (∃ n, ∀ label ∈ (rootParts item t).map (·.1), (pieces label).length = n) ∧
      ∀ label ∈ (rootParts item t).map (·.1), label ≠ "" := by
  rcases rootParts_cases hlabelled with ⟨hkind, params, ret, failure, holding, rfl, hlabels⟩ | hroot
  · have hplain : ∀ label ∈ (rootParts item (.function params ret failure holding)).map (·.1),
        IsPlainName label := by
      intro label hlabel
      rw [hlabels, List.mem_append, List.mem_cons] at hlabel
      rcases hlabel with hlabel | rfl | hlabel
      · exact h.parameters hkind label hlabel
      · exact ⟨by decide, by decide⟩
      · rw [eq_of_mem_failureParts hlabel]
        exact ⟨by decide, by decide⟩
    refine ⟨⟨1, fun label hlabel => ?_⟩, fun label hlabel => (hplain label hlabel).1⟩
    rw [pieces_of_dotless (hplain label hlabel).2, List.length_singleton]
  · rw [hroot.1]
    have hnames := h.inside t .refl
    exact ⟨InterfaceType.even_labels fun name hname => (hnames name hname).2,
      InterfaceType.label_ne_empty fun name hname => (hnames name hname).1⟩

theorem map_snd_rootParts (item : ExportItem) (t : InterfaceType) :
    (rootParts item t).map (·.2) = t.parts := by
  unfold rootParts
  cases item.kind <;> cases t
  case function.function params ret failure holding =>
    simp only [List.map_map, Function.comp_def, map_positions item params ret failure holding]
  all_goals rfl

/-- Distinct paths keep the names beside each other apart. -/
theorem namedApart_of_nodup (hlabelled : IsLabelled item t)
    (h : ((waysInto (rootParts item t)).map (pathOf "")).Nodup) : NamedApart item t := by
  obtain ⟨hroot, hinside⟩ := nodup_waysInto_iff.1 h.of_map
  refine ⟨(rootApart_iff hlabelled).2 hroot, fun p hp u hu _ => ?_⟩
  rw [← map_snd_rootParts item t] at hp
  obtain ⟨x, hx, rfl⟩ := List.mem_map.1 hp
  exact nodup_ways_iff.1 (hinside x hx) u hu

/-- Paths are distinct where names beside each other differ and no label stands for another. -/
theorem nodup_of_namedApart (hlabelled : IsLabelled item t) (hplain : PlainlyNamed item t)
    (h : NamedApart item t) : ((waysInto (rootParts item t)).map (pathOf "")).Nodup := by
  obtain ⟨heven, hnonempty⟩ := even_rootLabels hlabelled hplain
  have hroot := (rootApart_iff hlabelled).1 h.root
  have hinside : ∀ x ∈ rootParts item t, ∀ u, x.2.Contains u → Steady (u.children.map (·.1)) := by
    intro x hx u hu
    have hpart : x.2 ∈ t.parts := map_snd_rootParts item t ▸ List.mem_map_of_mem hx
    have hnames := hplain.inside u (InterfaceType.contains_iff.2 (.inr ⟨_, hpart, hu⟩))
    refine ⟨?_, InterfaceType.even_labels fun name hname => (hnames name hname).2⟩
    by_cases hkind : u.kind = .record ∨ u.kind = .taggedUnion
    · exact h.inside x.2 hpart u hu hkind
    · exact InterfaceType.nodup_labels (not_or.1 hkind)
  refine List.Nodup.map_on (fun w hw w' hw' => ?_) (nodup_waysInto_iff.2 ⟨hroot, fun x hx => ?_⟩)
  · exact pathOf_inj ⟨hroot, heven⟩ (fun x hx => hnonempty _ (List.mem_map_of_mem hx)) hinside hw hw'
  · exact nodup_ways_iff.2 fun u hu => (hinside x hx u hu).nodup

end Ownership

open Building Ownership

/-- The slots of an item that builds stand at the ways into its type, each at the path that spells
its way. If no two stand at one path, then no two names beside each other are the same: those of
the parameters, the error beside them, and those of the fields and variants in one record or union.
Where names are neither empty nor dotted, this also keeps all paths apart. -/
theorem paths_distinct (module : NativeModule) (wordBits : Int) (recognizers : RecognizerSet)
    (markers : List String) (items : List ExportItem) {item : ExportItem}
    (hitem : item ∈ (Export.collect module markers).items) {t : InterfaceType}
    (hbuilt : ((Builder.buildItem (.ofModule module wordBits recognizers) item).run.run
      (Builder.after (.ofModule module wordBits recognizers) items)).1 = .ok (.ok t))
    {terms : Terms} {b : Resolver} {r : ResolvedItem}
    (hresolved : ((resolveItem terms item t).run.run b).1 = .ok (.ok r)) :
    r.slots.map (·.path) = (waysInto (rootParts item t)).map (pathOf "") ∧
      ((r.slots.map (·.path)).Nodup → NamedApart item t) ∧
      (PlainlyNamed item t → NamedApart item t → (r.slots.map (·.path)).Nodup) := by
  have hpaths := (paths_of_resolveItem hresolved).2
  have hnodup := NominalIndex.nodup_names_ofModule module
  have hlabelled : IsLabelled item t := by
    rintro hkind params ret failure holding rfl
    obtain ⟨declared, result, receiver, isAsync, isUnsafe, abi, hbody⟩ :=
      Export.exists_function_of_mem_collect hitem hkind
    obtain ⟨params', returned, failure', heq, hparams⟩ :=
      params_of_function hbody hnodup hkind (Builder.yields_of_buildItem hnodup hbuilt)
    obtain ⟨rfl, -⟩ := InterfaceType.function.inj heq
    rw [parameterLabels, labels_of_function hbody, List.length_map]
    exact hparams.length_eq
  rw [hpaths]
  exact ⟨rfl, namedApart_of_nodup hlabelled, nodup_of_namedApart hlabelled⟩

section Examples

def mix (first second : String) : Declaration where
  name := "f"
  visibility := .everyone
  generics := []
  attrs := []
  span := {}
  body := .function [⟨first, .ofNames ["u8"]⟩, ⟨second, .ofNames ["u8"]⟩] none none false false none

/-- A module with a function of two bytes. -/
def mixing (first second : String) : NativeModule where
  name := "crate"
  items := [mix first second]
  children := []
  visibility := .everyone
  span := {}

def mixingItem (first second : String) : ExportItem where
  qualifiedName := "crate::f"
  kind := .function
  isExplicit := false
  symbol := "f"
  index := 0
  modulePath := []
  declaration := mix first second

def mixingModel (first second : String) : TypeModel := .ofModule (mixing first second) 64 .standard

def mixingType : InterfaceType := .function [.int 8 false, .int 8 false] .unit .never .value

theorem parameterLabels_mixing : parameterLabels (mixingItem "a" "b") = ["a", "b"] := rfl

theorem kind_of_mixingType {p u : InterfaceType} (hp : p ∈ mixingType.parts) (hu : p.Contains u) :
    u.kind = .primitive := by
  have hparts : p.kind = .primitive ∧ p.parts = [] := by
    simp only [mixingType, InterfaceType.parts_function, InterfaceType.failureParts, List.map_nil,
      List.cons_append, List.nil_append, List.mem_cons, List.not_mem_nil, or_false] at hp
    rcases hp with rfl | rfl | rfl <;> exact ⟨rfl, rfl⟩
  rcases InterfaceType.contains_iff.1 hu with rfl | ⟨q, hq, -⟩
  · exact hparts.1
  · simp [hparts.2] at hq

theorem plainlyNamed_mixing : PlainlyNamed (mixingItem "a" "b") mixingType := by
  refine ⟨fun _ => ?_, fun u hu => ?_⟩
  · rw [parameterLabels_mixing]
    simp [IsPlainName]
  · rcases InterfaceType.contains_iff.1 hu with rfl | ⟨p, hp, hu⟩
    · simp [mixingType, InterfaceType.names]
    · have hkind := kind_of_mixingType hp hu
      cases u <;> simp_all [InterfaceType.kind, InterfaceType.names]

theorem namedApart_mixing : NamedApart (mixingItem "a" "b") mixingType := by
  refine ⟨?_, fun p hp u hu hkind => ?_⟩
  · have hnodup : (parameterLabels (mixingItem "a" "b")).Nodup := by
      rw [parameterLabels_mixing]
      decide
    exact ⟨hnodup, by rintro ⟨e, ⟨⟩⟩⟩
  · simp [kind_of_mixingType hp hu] at hkind

/-- Two bytes under names of their own have slots of their own. -/
theorem paths_distinct_mixing :
    mixingItem "a" "b" ∈ (Export.collect (mixing "a" "b") []).items
      ∧ ((Builder.buildItem (mixingModel "a" "b") (mixingItem "a" "b")).run.run
          (Builder.after (mixingModel "a" "b") [])).1 = .ok (.ok mixingType)
      ∧ ∃ r, ((resolveItem { capabilities := .dart } (mixingItem "a" "b") mixingType).run.run
            { engine := { word := .bits64 } }).1 = .ok (.ok r)
          ∧ (r.slots.map (·.path)).Nodup := by
  have hitem : mixingItem "a" "b" ∈ (Export.collect (mixing "a" "b") []).items := by
    refine List.mem_of_getElem? (i := 0) ?_
    rfl
  have hbuilt : ((Builder.buildItem (mixingModel "a" "b") (mixingItem "a" "b")).run.run
      (Builder.after (mixingModel "a" "b") [])).1 = .ok (.ok mixingType) := by
    cbv
  have hresolved : ∃ r, ((resolveItem { capabilities := .dart } (mixingItem "a" "b")
      mixingType).run.run { engine := { word := .bits64 } }).1 = .ok (.ok r) := by
    refine ⟨?r, ?resolved⟩
    case resolved =>
      cbv
      rfl
  obtain ⟨r, hr⟩ := hresolved
  obtain ⟨-, -, hdistinct⟩ := paths_distinct (mixing "a" "b") 64 .standard [] [] hitem hbuilt hr
  exact ⟨hitem, hbuilt, r, hr, hdistinct plainlyNamed_mixing namedApart_mixing⟩

/-- Two bytes without names share a path. -/
theorem paths_of_nameless :
    mixingItem "_" "_" ∈ (Export.collect (mixing "_" "_") []).items
      ∧ ((Builder.buildItem (mixingModel "_" "_") (mixingItem "_" "_")).run.run
          (Builder.after (mixingModel "_" "_") [])).1 = .ok (.ok mixingType)
      ∧ ∃ r, ((resolveItem { capabilities := .dart } (mixingItem "_" "_") mixingType).run.run
            { engine := { word := .bits64 } }).1 = .ok (.ok r)
          ∧ r.slots.map (·.path) = ["", "_", "_", "return"]
          ∧ ¬ (r.slots.map (·.path)).Nodup := by
  have hresolved : ∃ r, ((resolveItem { capabilities := .dart } (mixingItem "_" "_")
      mixingType).run.run { engine := { word := .bits64 } }).1 = .ok (.ok r)
      ∧ r.slots.map (·.path) = ["", "_", "_", "return"] := by
    refine ⟨?r, ?resolved, ?paths⟩
    case resolved =>
      cbv
      rfl
    case paths => rfl
  obtain ⟨r, hr, hpaths⟩ := hresolved
  refine ⟨?_, ?_, r, hr, hpaths, ?_⟩
  · refine List.mem_of_getElem? (i := 0) ?_
    rfl
  · cbv
  · rw [hpaths]
    decide

end Examples

end Crossing
