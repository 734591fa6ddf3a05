import Crossing.Proofs.Alias.Inlined
import Crossing.Proofs.Nominal.Graph

/-!
# An index without the mentions of an alias

Where mentions of an alias are replaced by its target, every path still means a nominal type of the
same name (`NominalIndex.rel_resolve`), and every declaration still mentions the same nominal types
behind the same indirections, provided that the alias does not lead to itself
(`Inlining.mentions_eq`): the walk over the mentions sees through an alias, but never opens it
inside its own target. So both indexes have one graph (`Inlining.ofIndex_eq`).
-/

namespace Crossing

namespace NominalIndex

/-- A type mentions the alias of a name: by itself, in one of its parts, or in the target of an
alias that it mentions. -/
inductive Opens (index : NominalIndex) (name : String) : List String → TypeExpr → Prop where
  | here {scope : List String} {e : TypeExpr} {n : Nominal}
      (meaning : (index.resolve e.names scope).nominal? = some n) (isAlias : n.isAlias = true)
      (named : n.name = name) : Opens index name scope e
  | inside {scope : List String} {e t : TypeExpr} {via v : Via} (mem : (v, t) ∈ e.inside via)
      (opens : Opens index name scope t) : Opens index name scope e
  | target {scope : List String} {e t : TypeExpr} {n : Nominal}
      (meaning : (index.resolve e.names scope).nominal? = some n) (target : n.aliasTarget? = some t)
      (opens : Opens index name n.scope t) : Opens index name scope e

/-- The target of the alias leads back to it. -/
def OnAliasCycle (index : NominalIndex) (a : Nominal) : Prop :=
  ∃ t, a.aliasTarget? = some t ∧ index.Opens a.name a.scope t

/-- The second index is the first with mentions of an alias replaced by its target. The alias has no
parameters and does not lead to itself. -/
structure Inlining (index index' : NominalIndex) (a : Nominal) : Prop where
  root : index'.root = index.root
  nominals : List.Forall₂ (Nominal.Inlined index index' a) index.nominals index'.nominals
  nodup : index.names.Nodup
  mem : a ∈ index.nominals
  generics : a.declaration.generics = []
  acyclic : ¬ index.OnAliasCycle a

end NominalIndex

section Names

variable {index index' : NominalIndex} (hroot : index'.root = index.root)
  (hnames : index'.names = index.names)

/-- Nominal types of one name. -/
abbrev SameName (n n' : Nominal) : Prop := n.name = n'.name

include hnames

theorem NominalIndex.forall₂_sameName :
    List.Forall₂ SameName index.nominals index'.nominals := by
  have hequal : List.Forall₂ Eq (index.nominals.map (·.name)) (index'.nominals.map (·.name)) := by
    rw [List.forall₂_eq_eq_eq]
    exact hnames.symm
  rwa [List.forall₂_map_left_iff, List.forall₂_map_right_iff] at hequal

theorem NominalIndex.rel_get? (name : String) :
    Option.Rel SameName (index.get? name) (index'.get? name) :=
  Related.find? (fun n n' hn => by rw [hn]) (forall₂_sameName hnames)

theorem NominalIndex.rel_innermost (scope names : List String) (depth : Nat) :
    Option.Rel SameName (index.innermost scope names depth)
      (index'.innermost scope names depth) := by
  induction depth with
  | zero => exact .none
  | succ depth ih => exact Related.or (rel_get? hnames _) ih

include hroot

/-- A path means nominal types of one name. -/
theorem NominalIndex.rel_resolve (names scope : List String) :
    Option.Rel SameName (index.resolve names scope).nominal?
      (index'.resolve names scope).nominal? := by
  have hoption {o o' : Option Nominal} (ho : Option.Rel SameName o o') :
      Option.Rel SameName (Resolution.ofOption o).nominal? (Resolution.ofOption o').nominal? := by
    cases ho with
    | none => exact .none
    | some hn => exact .some hn
  cases names with
  | nil => exact .none
  | cons first rest =>
    unfold NominalIndex.resolve
    simp only [hroot]
    split
    · exact hoption (rel_get? hnames _)
    split
    · exact hoption (rel_get? hnames _)
    have hinner := rel_innermost hnames scope (first :: rest) scope.length
    generalize index.innermost scope (first :: rest) scope.length = inner,
      index'.innermost scope (first :: rest) scope.length = inner' at hinner
    cases hinner with
    | some hn => exact .some hn
    | none =>
      have hhits := Related.filter_list
        (fun n => endsIn n.name (QualifiedName.join (first :: rest)))
        (fun n => endsIn n.name (QualifiedName.join (first :: rest)))
        (fun n n' hn => by rw [hn]) (forall₂_sameName hnames)
      simp only
      generalize index.nominals.filter _ = hits, index'.nominals.filter _ = hits' at hhits
      rcases hhits with _ | ⟨hn, _ | _⟩
      · exact .none
      · exact .some hn
      · exact .none

/-- Every type is itself with no mention replaced, where the names are the same. -/
theorem TypeExpr.Inlined.refl (a : Nominal) (scope : List String) (e : TypeExpr) :
    e.Inlined index index' a scope scope e := by
  have hmeaning : (index.resolve e.names scope).nominal?.map (·.name)
      = (index'.resolve e.names scope).nominal?.map (·.name) := by
    have hresolve := NominalIndex.rel_resolve hroot hnames e.names scope
    generalize (index.resolve e.names scope).nominal? = r,
      (index'.resolve e.names scope).nominal? = r' at hresolve
    cases hresolve with
    | none => rfl
    | some hn => exact congrArg some hn
  refine .layer (R := fun t t' => t' = t ∧ sizeOf t < sizeOf e) ?_
    (Alike.of_self hmeaning fun via p hp => ⟨rfl, sizeOf_inside_lt hp⟩)
  rintro _ t ⟨rfl, hlt⟩
  exact refl a scope t
termination_by sizeOf e

end Names

namespace Nominal.Inlined

variable {index index' : NominalIndex} {a n n' : Nominal}

theorem aliasTarget? (h : Nominal.Inlined index index' a n n') :
    Option.Rel (TypeExpr.Inlined index index' a n.scope n.scope)
      n.aliasTarget? n'.aliasTarget? := by
  have hbody := h.body
  unfold Nominal.aliasTarget?
  generalize n.declaration.body = body, n'.declaration.body = body' at hbody
  cases hbody with
  | «alias» target => exact .some target
  | _ => exact .none

theorem structFields? (h : Nominal.Inlined index index' a n n') :
    Option.Rel (List.Forall₂ (NativeField.Alike (TypeExpr.Inlined index index' a n.scope n.scope)))
      n.structFields? n'.structFields? := by
  have hbody := h.body
  unfold Nominal.structFields?
  generalize n.declaration.body = body, n'.declaration.body = body' at hbody
  cases hbody with
  | struct fields => exact .some fields
  | _ => exact .none

theorem isAlias (h : Nominal.Inlined index index' a n n') : n.isAlias = n'.isAlias :=
  Related.isSome_eq h.aliasTarget?

theorem hasPrivateFields (h : Nominal.Inlined index index' a n n') :
    n.hasPrivateFields = n'.hasPrivateFields := by
  have hfields := h.structFields?
  unfold Nominal.hasPrivateFields
  generalize n.structFields? = fields, n'.structFields? = fields' at hfields
  cases hfields with
  | none => rfl
  | some hfields =>
    exact Related.any_eq (fun f f' hf => by rw [hf.visibility]) hfields

theorem types (h : Nominal.Inlined index index' a n n') :
    List.Forall₂ (TypeExpr.Inlined index index' a n.scope n.scope) n.types n'.types := by
  have hbody := h.body
  unfold Nominal.types
  generalize n.declaration.body = body, n'.declaration.body = body' at hbody
  cases hbody with
  | struct fields => exact Related.map_list (fun _ _ hf => hf.type) fields
  | enumeration variants =>
    exact Related.flatMap
      (fun _ _ hv => Related.map_list (fun _ _ hf => hf.type) hv.fields) variants
  | «alias» target => exact .cons target .nil
  | _ => exact .nil

end Nominal.Inlined

theorem NominalIndex.mem_aliases_of_opens {index : NominalIndex} {name : String}
    {scope : List String} {e : TypeExpr} (h : index.Opens name scope e) : name ∈ index.aliases := by
  induction h with
  | here meaning isAlias named =>
    obtain ⟨t, ht⟩ := Option.isSome_iff_exists.1 isAlias
    exact named ▸ mem_aliases (resolve_mem meaning) ht
  | inside _ _ ih | target _ _ _ ih => exact ih

/-- A path without arguments has nothing inside. -/
theorem NominalIndex.inside_eq_nil {index : NominalIndex} {scope : List String} {via : Via}
    {e : TypeExpr} {n : Nominal} (hmeaning : (index.resolve e.names scope).nominal? = some n)
    (hargs : e.args = []) : e.inside via = [] := by
  cases e with
  | path ss => simp [TypeExpr.inside, hargs]
  | _ => simp [TypeExpr.names, TypeExpr.segments, resolve, Resolution.nominal?] at hmeaning

theorem NominalIndex.mentions_eq_append (index : NominalIndex) (unopened scope : List String)
    (via : Via) (t : TypeExpr) : index.mentions unopened scope via t
      = (match (index.resolve t.names scope).nominal? with
          | none => []
          | some n =>
            match n.aliasTarget? with
            | none => [(n.name, via)]
            | some target =>
              if n.name ∈ unopened then
                index.mentions (unopened.erase n.name) n.scope via target
              else [])
        ++ (t.inside via).flatMap fun p => index.mentions unopened scope p.1 p.2 := by
  rw [mentions]
  congr 1
  conv_rhs => rw [← List.attach_map_subtype_val (t.inside via), List.flatMap_map]

namespace NominalIndex.Inlining

variable {index index' : NominalIndex} {a : Nominal} (h : Inlining index index' a)
include h

theorem names_eq : index'.names = index.names :=
  (Related.map_eq (fun _ _ hn => hn.name.symm) h.nominals).symm

/-- Nominal types of one name belong together. -/
theorem inlined {n n' : Nominal} (hn : n ∈ index.nominals) (hn' : n' ∈ index'.nominals)
    (hname : n'.name = n.name) : Nominal.Inlined index index' a n n' := by
  obtain ⟨n'', hn'', hinlined⟩ := Related.exists_of_mem h.nominals hn
  have hnodup : index'.names.Nodup := h.names_eq ▸ h.nodup
  rwa [NominalIndex.eq_of_name_eq hnodup hn' hn'' (hname.trans hinlined.name.symm)]

theorem meaning {names names' scope scope' : List String}
    (hmeaning : (index.resolve names scope).nominal?.map (·.name)
      = (index'.resolve names' scope').nominal?.map (·.name)) :
    Option.Rel (Nominal.Inlined index index' a) (index.resolve names scope).nominal?
      (index'.resolve names' scope').nominal? := by
  cases hn : (index.resolve names scope).nominal? with
  | none =>
    rw [hn, Option.map_none, eq_comm, Option.map_eq_none_iff] at hmeaning
    rw [hmeaning]
    exact .none
  | some n =>
    rw [hn, Option.map_some, eq_comm, Option.map_eq_some_iff] at hmeaning
    obtain ⟨n', hn', hname⟩ := hmeaning
    rw [hn']
    exact .some (h.inlined (resolve_mem hn) (resolve_mem hn') hname)

/-- Where mentions are replaced, the same nominal types are mentioned; which aliases are open counts
only for those that are met. -/
theorem mentions_eq {unopened unopened' scope scope' : List String} {via : Via} {e e' : TypeExpr}
    (he : e.Inlined index index' a scope scope' e') (hu : unopened.Nodup) (hu' : unopened'.Nodup)
    (hopen : ∀ name, index.Opens name scope e → (name ∈ unopened ↔ name ∈ unopened'))
    (ha : index.Opens a.name scope e → a.name ∈ unopened) :
    index.mentions unopened scope via e = index'.mentions unopened' scope' via e' := by
  have hne : ∀ {t name}, a.aliasTarget? = some t → index.Opens name a.scope t → name ≠ a.name := by
    rintro t _ htarget hopens rfl
    exact h.acyclic ⟨t, htarget, hopens⟩
  induction unopened, scope, via, e using mentions.induct generalizing unopened' scope' e' with
  | case1 unopened scope via e ihAlias ihInside =>
    rw [mentions_eq_append]
    rcases he.cases with alike | ⟨hmeaning, hargs, -, t, htarget, he⟩
    · rw [mentions_eq_append]
      congr 1
      · have hmeans := h.meaning alike.meaning
        generalize hr : (index.resolve e.names scope).nominal? = r,
          (index'.resolve e'.names scope').nominal? = r' at hmeans
        cases hmeans with
        | none => rfl
        | @some n n' hn =>
          have htargets := hn.aliasTarget?
          generalize ht : n.aliasTarget? = r, ht' : n'.aliasTarget? = r' at htargets
          cases htargets with
          | none => simp only [ht, ht', hn.name]
          | @some t t' hinlined =>
            have halias : n.isAlias = true := by rw [Nominal.isAlias, ht]; rfl
            simp only [ht, ht', hn.name, hn.scope, ← hopen n.name (.here hr halias rfl)]
            split
            · rename_i hmem
              refine ihAlias n t hmem hinlined (hu.erase _) (hu'.erase _) (fun name hopens => ?_)
                fun hopens => ?_
              · rw [hu.mem_erase_iff, hu'.mem_erase_iff, hopen name (.target hr ht hopens)]
              · refine hu.mem_erase_iff.2 ⟨fun hname => ?_, ha (.target hr ht hopens)⟩
                obtain rfl := NominalIndex.eq_of_name_eq h.nodup h.mem (resolve_mem hr) hname
                exact hne ht hopens rfl
            · rfl
      · have hinside := (List.forall₂_and_left _ _).2
          ⟨fun p (hp : p ∈ e.inside via) => hp, alike.inside via⟩
        refine Related.flatMap_eq (fun p p' hp => ?_) hinside
        obtain ⟨hmem, hvia, hinlined⟩ := hp
        rw [hvia]
        exact ihInside p.1 p.2 hmem hinlined hu hu'
          (fun name hopens => hopen name (.inside hmem hopens))
          fun hopens => ha (.inside hmem hopens)
    · have halias : a.isAlias = true := by rw [Nominal.isAlias, htarget]; rfl
      have hinside : e.inside via = [] := inside_eq_nil hmeaning hargs
      have hmem : a.name ∈ unopened := ha (.here hmeaning halias rfl)
      simp only [hmeaning, htarget, if_pos hmem, hinside, List.flatMap_nil, List.append_nil]
      refine ihAlias a t hmem he (hu.erase _) hu' (fun name hopens => ?_) fun hopens =>
        absurd rfl (hne htarget hopens)
      rw [List.mem_erase_of_ne (hne htarget hopens)]
      exact hopen name (.target hmeaning htarget hopens)

theorem aliases_eq : index'.aliases = index.aliases := by
  have haliases := Related.filter_list (·.isAlias) (·.isAlias)
    (fun n n' hn => hn.isAlias) h.nominals
  exact (Related.map_eq (fun n n' hn => hn.name.symm) haliases).symm

theorem edges_eq {n n' : Nominal} (hn : Nominal.Inlined index index' a n n') :
    index'.edges n' = index.edges n := by
  have hnodup : index.aliases.Nodup := h.nodup.sublist (List.filter_sublist.map _)
  unfold edges
  rw [h.aliases_eq, hn.scope]
  refine (Related.flatMap_eq (fun t t' ht => ?_) hn.types).symm
  exact h.mentions_eq ht hnodup hnodup (fun _ _ => Iff.rfl) mem_aliases_of_opens

/-- The nominal types depend on each other alike. -/
theorem ofIndex_eq : NominalGraph.ofIndex index' = NominalGraph.ofIndex index := by
  have hnominals := Related.filter_list (fun n => !n.isAlias) (fun n => !n.isAlias)
    (fun n n' hn => by rw [hn.isAlias]) h.nominals
  have hnames : (index'.nominals.filter fun n => !n.isAlias).map (·.name)
      = (index.nominals.filter fun n => !n.isAlias).map (·.name) :=
    (Related.map_eq (fun n n' hn => hn.name.symm) hnominals).symm
  have hedges : ((index'.nominals.filter fun n => !n.isAlias).map fun n => (n.name, index'.edges n))
      = (index.nominals.filter fun n => !n.isAlias).map fun n => (n.name, index.edges n) :=
    (Related.map_eq (fun n n' hn => by rw [h.edges_eq hn, hn.name]) hnominals).symm
  simp only [NominalGraph.ofIndex, hnames, hedges]

/-- The same nominal types are handed out as handles. -/
theorem handled_eq (g : NominalGraph) : index'.handled g = index.handled g := by
  have hhandled := Related.filter_list
    (fun n => !n.isAlias && (g.isRecursive n.name || n.hasPrivateFields))
    (fun n => !n.isAlias && (g.isRecursive n.name || n.hasPrivateFields))
    (fun n n' hn => by rw [hn.isAlias, hn.hasPrivateFields, hn.name]) h.nominals
  exact (Related.map_eq (fun n n' hn => hn.name.symm) hhandled).symm

end NominalIndex.Inlining

end Crossing
