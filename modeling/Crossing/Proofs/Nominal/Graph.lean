import Crossing.Proofs.Nominal.Index
import Crossing.Proofs.Nominal.Walk

/-!
# Cycles of mentions

A type mentions what its parts mention (`mem_mentions_of_inside`) and what the target of an alias
does (`mem_mentions_of_alias`). Where declarations mention each other in a circle, the graph of the
index has all of them in one recursive component (`sameRecursive_of_cycle`), and a circle of
mentions by value makes them of infinite size (`mem_valueCyclic_of_cycle`).
-/

namespace Crossing

namespace NominalIndex

variable {index : NominalIndex} {unopened scope : List String} {via : Via} {t : TypeExpr}
  {n : Nominal} {x : String × Via}

theorem mem_mentions_of_inside {v : Via} {u : TypeExpr} (hu : (v, u) ∈ t.inside via)
    (h : x ∈ index.mentions unopened scope v u) : x ∈ index.mentions unopened scope via t := by
  rw [mentions]
  exact List.mem_append_right _ (List.mem_flatMap.2 ⟨⟨(v, u), hu⟩, List.mem_attach _ _, h⟩)

theorem mem_mentions_self (hn : (index.resolve t.names scope).nominal? = some n)
    (halias : n.aliasTarget? = none) : (n.name, via) ∈ index.mentions unopened scope via t := by
  rw [mentions, hn]
  simp only [halias]
  exact List.mem_append_left _ (List.mem_singleton_self _)

theorem mem_mentions_of_alias {target : TypeExpr}
    (hn : (index.resolve t.names scope).nominal? = some n) (htarget : n.aliasTarget? = some target)
    (hopen : n.name ∈ unopened)
    (h : x ∈ index.mentions (unopened.erase n.name) n.scope via target) :
    x ∈ index.mentions unopened scope via t := by
  rw [mentions, hn]
  simp only [htarget, if_pos hopen]
  exact List.mem_append_left _ h

theorem mem_aliases {target : TypeExpr} (hn : n ∈ index.nominals)
    (htarget : n.aliasTarget? = some target) : n.name ∈ index.aliases :=
  List.mem_map_of_mem (List.mem_filter.2 ⟨hn, by rw [Nominal.isAlias, htarget]; rfl⟩)

/-- Where more aliases can be seen through, more is mentioned. -/
theorem mentions_mono {more : List String} (hnodup : unopened.Nodup)
    (hmore : ∀ name ∈ index.aliases, name ∈ unopened → name ∈ more)
    (h : x ∈ index.mentions unopened scope via t) : x ∈ index.mentions more scope via t := by
  induction unopened, scope, via, t using mentions.induct generalizing more with
  | case1 unopened scope via t ihAlias ihInside =>
    rw [mentions] at h
    rcases List.mem_append.1 h with h | h
    · split at h
      · simp at h
      rename_i n hn
      split at h
      · rename_i htarget
        obtain rfl := List.mem_singleton.1 h
        exact mem_mentions_self hn htarget
      rename_i target htarget
      split at h
      · rename_i hopen
        have hname := mem_aliases (resolve_mem hn) htarget
        refine mem_mentions_of_alias hn htarget (hmore _ hname hopen) ?_
        refine ihAlias n target hopen (hnodup.erase _) (fun name hname hmem => ?_) h
        have hne : name ≠ n.name := by
          rintro rfl
          exact hnodup.not_mem_erase hmem
        exact (List.mem_erase_of_ne hne).2 (hmore name hname (List.mem_of_mem_erase hmem))
      · simp at h
    · obtain ⟨⟨⟨v, u⟩, hu⟩, -, h⟩ := List.mem_flatMap.1 h
      exact mem_mentions_of_inside hu (ihInside v u hu hnodup hmore h)

/-- A struct or an enumeration of the index mentions another behind `via`. -/
structure Uses (index : NominalIndex) (via : Via) (a b : Nominal) : Prop where
  source_mem : a ∈ index.nominals
  source_alias : a.isAlias = false
  target_mem : b ∈ index.nominals
  target_alias : b.isAlias = false
  mention : (b.name, via) ∈ index.edges a

/-- A struct or an enumeration of the index mentions another. -/
def Mentions (index : NominalIndex) (a b : Nominal) : Prop := ∃ via, index.Uses via a b

end NominalIndex

namespace NominalGraph

open Relation (TransGen ReflTransGen)

variable {index : NominalIndex} {a b : Nominal}

/-- The graph of the mentions of an index that stand behind some of the indirections. -/
def digraph (index : NominalIndex) (keep : Via → Bool) : Digraph :=
  let nominals := index.nominals.filter fun n => !n.isAlias
  ⟨nominals.map (·.name), targets (nominals.map fun n => (n.name, index.edges n)) keep⟩

theorem mem_nodes {keep : Via → Bool} (ha : a ∈ index.nominals) (halias : a.isAlias = false) :
    a.name ∈ (digraph index keep).nodes :=
  List.mem_map_of_mem (List.mem_filter.2 ⟨ha, by rw [halias]; rfl⟩)

variable (hnodup : index.names.Nodup)
include hnodup

theorem targets_eq (keep : Via → Bool) (ha : a ∈ index.nominals) (halias : a.isAlias = false) :
    (digraph index keep).next a.name
      = ((index.edges a).filter fun e => keep e.2).map (·.1) := by
  have hlookup : ∀ nominals : List Nominal, (nominals.map (·.name)).Nodup → a ∈ nominals →
      (nominals.map fun n => (n.name, index.edges n)).lookup a.name = some (index.edges a) := by
    intro nominals hnames hmem
    refine List.lookup_eq_some_iff.2 ?_
    obtain ⟨before, behind, rfl⟩ := List.append_of_mem hmem
    refine ⟨before.map fun n => (n.name, index.edges n), behind.map fun n => (n.name, index.edges n),
      by simp, ?_⟩
    simp only [List.map_append, List.map_cons, List.nodup_append, List.mem_map] at hnames
    simp only [List.mem_map, forall_exists_index, and_imp]
    rintro _ n hn rfl
    have hne := hnames.2.2 n.name ⟨n, hn, rfl⟩ a.name List.mem_cons_self
    simpa using Ne.symm hne
  have hmem : a ∈ index.nominals.filter fun n => !n.isAlias :=
    List.mem_filter.2 ⟨ha, by rw [halias]; rfl⟩
  have hnames : ((index.nominals.filter fun n => !n.isAlias).map (·.name)).Nodup :=
    hnodup.sublist (List.filter_sublist.map _)
  simp only [digraph, targets, hlookup _ hnames hmem]

theorem edge_of_uses {keep : Via → Bool} {via : Via} (h : index.Uses via a b)
    (hkeep : keep via = true) : (digraph index keep).Edge a.name b.name := by
  refine ⟨mem_nodes h.source_mem h.source_alias, mem_nodes h.target_mem h.target_alias, ?_⟩
  rw [targets_eq hnodup keep h.source_mem h.source_alias]
  exact List.mem_map_of_mem (List.mem_filter.2 ⟨h.mention, hkeep⟩)

theorem edge_of_mentions (h : index.Mentions a b) :
    (digraph index fun _ => true).Edge a.name b.name := by
  obtain ⟨via, h⟩ := h
  exact edge_of_uses hnodup h rfl

theorem sameRecursive_of_cycle (hab : TransGen index.Mentions a b)
    (hba : ReflTransGen index.Mentions b a) : (ofIndex index).sameRecursive a.name b.name = true := by
  have hedge := fun a b (h : index.Mentions a b) => edge_of_mentions hnodup h
  have hforth := hab.lift Nominal.name hedge
  have hback := hba.lift Nominal.name hedge
  obtain ⟨c, hc, hcyclic, ha, hb⟩ := Digraph.share_cyclic_iff.2
    ⟨hforth, TransGen.trans_right hback (hforth.trans_left hback)⟩
  refine List.any_eq_true.2 ⟨_, List.mem_map_of_mem hc, ?_⟩
  rw [List.contains_iff_mem.2 ha, List.contains_iff_mem.2 hb, Bool.and_true, Bool.and_true]
  exact hcyclic

theorem mem_valueCyclic_of_cycle (h : TransGen (index.Uses .value) a a) :
    a.name ∈ (ofIndex index).valueCyclic := by
  have hedge : ∀ a b, index.Uses .value a b →
      (digraph index fun via => decide (via = .value)).Edge a.name b.name :=
    fun a b h => edge_of_uses hnodup h (decide_eq_true rfl)
  exact Digraph.mem_cyclic_iff.2 (h.lift Nominal.name hedge)

end NominalGraph

end Crossing
