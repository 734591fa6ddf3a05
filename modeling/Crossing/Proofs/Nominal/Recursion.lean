import Crossing.Proofs.Nominal.Graph

/-!
# Recursive types are the ones on cycles

The components of a graph are its nodes up to mutual reachability (`Digraph.Grouped`). The edges
between names in the graph of an index are the mentions between its structs and enumerations
(`NominalGraph.edge_iff`), and so are the paths (`NominalGraph.transGen_iff`): what the graph says of
recursive and of infinite types is exact (`NominalGraph.recursion_exact`).
-/

namespace Crossing

open Relation (TransGen ReflTransGen)

/-- The groups hold every node once, and two nodes are in one group when edges lead from each to the
other. -/
structure Digraph.Grouped (g : Digraph) (groups : List (List String)) : Prop where
  nonempty : [] ∉ groups
  nodup : groups.flatten.Nodup
  mem_iff : ∀ v, v ∈ groups.flatten ↔ v ∈ g.nodes
  together_iff : ∀ v ∈ g.nodes, ∀ w ∈ g.nodes,
    (∃ group ∈ groups, v ∈ group ∧ w ∈ group) ↔ g.Leads v w ∧ g.Leads w v

theorem Digraph.grouped_components (g : Digraph) : g.Grouped g.components where
  nonempty h := ne_nil_of_mem_components h rfl
  nodup := nodup_components g
  mem_iff _ := (components_perm g).mem_iff.trans List.mem_eraseDups
  together_iff _ hv _ _ := share_component_iff hv

/-- What the graph of an index says of its structs and enumerations is exact. -/
structure NominalGraph.Exact (index : NominalIndex) (graph : NominalGraph) : Prop where
  grouped : (digraph index fun _ => true).Grouped (graph.components.map (·.members))
  member_iff : ∀ name, (∃ c ∈ graph.components, name ∈ c.members) ↔
    ∃ n ∈ index.nominals, n.isAlias = false ∧ n.name = name
  recursive_iff : ∀ c ∈ graph.components,
    c.isRecursive = true ↔ ∃ n, n.name ∈ c.members ∧ TransGen index.Mentions n n
  sameRecursive_iff : ∀ name name', graph.sameRecursive name name' = true ↔
    ∃ m n, m.name = name ∧ n.name = name' ∧
      TransGen index.Mentions m n ∧ TransGen index.Mentions n m
  valueCyclic_iff : ∀ name, name ∈ graph.valueCyclic ↔
    ∃ n, n.name = name ∧ TransGen (index.Uses .value) n n

namespace NominalGraph

variable {index : NominalIndex}

theorem exists_of_mem_nodes {keep : Via → Bool} {name : String}
    (h : name ∈ (digraph index keep).nodes) :
    ∃ n ∈ index.nominals, n.isAlias = false ∧ n.name = name := by
  obtain ⟨n, hn, rfl⟩ := List.mem_map.1 h
  obtain ⟨hmem, halias⟩ := List.mem_filter.1 hn
  exact ⟨n, hmem, by simpa using halias, rfl⟩

variable (hnodup : index.names.Nodup)
include hnodup

/-- The edges of the graph are the mentions behind the indirections that it keeps. -/
theorem edge_iff {keep : Via → Bool} {name name' : String} :
    (digraph index keep).Edge name name' ↔
      ∃ m n, m.name = name ∧ n.name = name' ∧ ∃ via, keep via = true ∧ index.Uses via m n := by
  constructor
  · rintro ⟨hnode, hnode', hnext⟩
    obtain ⟨m, hm, hmalias, rfl⟩ := exists_of_mem_nodes hnode
    obtain ⟨n, hn, hnalias, rfl⟩ := exists_of_mem_nodes hnode'
    rw [targets_eq hnodup keep hm hmalias] at hnext
    obtain ⟨⟨name, via⟩, he, hname⟩ := List.mem_map.1 hnext
    obtain ⟨hmention, hkeep⟩ := List.mem_filter.1 he
    obtain rfl : name = n.name := hname
    exact ⟨m, n, rfl, rfl, via, hkeep, hm, hmalias, hn, hnalias, hmention⟩
  · rintro ⟨m, n, rfl, rfl, via, hkeep, huses⟩
    exact edge_of_uses hnodup huses hkeep

/-- Paths between names are paths between the nominal types that have them. -/
theorem transGen_iff {g : Digraph} {R : Nominal → Nominal → Prop} {name name' : String}
    (hedge : ∀ {name name'}, g.Edge name name' ↔ ∃ m n, m.name = name ∧ n.name = name' ∧ R m n)
    (hmem : ∀ {m n}, R m n → m ∈ index.nominals ∧ n ∈ index.nominals) :
    TransGen g.Edge name name' ↔ ∃ m n, m.name = name ∧ n.name = name' ∧ TransGen R m n := by
  constructor
  · intro h
    induction h with
    | single h =>
      obtain ⟨m, n, hm, hn, hR⟩ := hedge.1 h
      exact ⟨m, n, hm, hn, .single hR⟩
    | tail _ hlast ih =>
      obtain ⟨m, n, hm, hn, hR⟩ := ih
      obtain ⟨n', k, hn', hk, hlast⟩ := hedge.1 hlast
      obtain ⟨_, -, hbefore⟩ := TransGen.tail'_iff.1 hR
      obtain rfl := NominalIndex.eq_of_name_eq hnodup (hmem hbefore).2 (hmem hlast).1
        (hn.trans hn'.symm)
      exact ⟨m, k, hm, hk, hR.tail hlast⟩
  · rintro ⟨m, n, rfl, rfl, hR⟩
    exact hR.lift Nominal.name fun m n h => hedge.2 ⟨m, n, rfl, rfl, h⟩

/-- Paths there and back are between the same two nominal types. -/
theorem cycle_iff {g : Digraph} {R : Nominal → Nominal → Prop} {name name' : String}
    (hedge : ∀ {name name'}, g.Edge name name' ↔ ∃ m n, m.name = name ∧ n.name = name' ∧ R m n)
    (hmem : ∀ {m n}, R m n → m ∈ index.nominals ∧ n ∈ index.nominals) :
    TransGen g.Edge name name' ∧ TransGen g.Edge name' name ↔
      ∃ m n, m.name = name ∧ n.name = name' ∧ TransGen R m n ∧ TransGen R n m := by
  rw [transGen_iff hnodup hedge hmem, transGen_iff hnodup hedge hmem]
  have hends : ∀ {m n}, TransGen R m n → m ∈ index.nominals ∧ n ∈ index.nominals := by
    intro m n h
    obtain ⟨_, hfirst, -⟩ := TransGen.head'_iff.1 h
    obtain ⟨_, -, hlast⟩ := TransGen.tail'_iff.1 h
    exact ⟨(hmem hfirst).1, (hmem hlast).2⟩
  constructor
  · rintro ⟨⟨m, n, hm, hn, hforth⟩, n', m', hn', hm', hback⟩
    obtain rfl := NominalIndex.eq_of_name_eq hnodup (hends hforth).1 (hends hback).2
      (hm.trans hm'.symm)
    obtain rfl := NominalIndex.eq_of_name_eq hnodup (hends hforth).2 (hends hback).1
      (hn.trans hn'.symm)
    exact ⟨m, n, hm, hn, hforth, hback⟩
  · rintro ⟨m, n, hm, hn, hforth, hback⟩
    exact ⟨⟨m, n, hm, hn, hforth⟩, n, m, hn, hm, hback⟩

/-- A cycle through a name is one through the nominal type that has it. -/
theorem cycle_self_iff {g : Digraph} {R : Nominal → Nominal → Prop} {name : String}
    (hedge : ∀ {name name'}, g.Edge name name' ↔ ∃ m n, m.name = name ∧ n.name = name' ∧ R m n)
    (hmem : ∀ {m n}, R m n → m ∈ index.nominals ∧ n ∈ index.nominals) :
    TransGen g.Edge name name ↔ ∃ n, n.name = name ∧ TransGen R n n := by
  rw [← and_self_iff (a := TransGen g.Edge name name), cycle_iff hnodup hedge hmem]
  constructor
  · rintro ⟨m, n, hm, -, hforth, hback⟩
    exact ⟨m, hm, hforth.trans hback⟩
  · rintro ⟨n, hn, hcycle⟩
    exact ⟨n, n, hn, hn, hcycle, hcycle⟩

theorem edge_iff_mentions {name name' : String} : (digraph index fun _ => true).Edge name name' ↔
    ∃ m n, m.name = name ∧ n.name = name' ∧ index.Mentions m n := by
  rw [edge_iff hnodup]
  simp only [true_and, NominalIndex.Mentions]

theorem edge_iff_uses {name name' : String} :
    (digraph index fun via => decide (via = .value)).Edge name name' ↔
      ∃ m n, m.name = name ∧ n.name = name' ∧ index.Uses .value m n := by
  rw [edge_iff hnodup]
  simp only [decide_eq_true_eq, exists_eq_left]

omit hnodup in
theorem mem_of_mentions {m n : Nominal} (h : index.Mentions m n) :
    m ∈ index.nominals ∧ n ∈ index.nominals :=
  have ⟨_, h⟩ := h
  ⟨h.source_mem, h.target_mem⟩

theorem exact_ofIndex : (ofIndex index).Exact index := by
  have hmentions {name : String} :
      TransGen (digraph index fun _ => true).Edge name name ↔
        ∃ n, n.name = name ∧ TransGen index.Mentions n n :=
    cycle_self_iff hnodup (edge_iff_mentions hnodup) mem_of_mentions
  have huses {name : String} :
      TransGen (digraph index fun via => decide (via = .value)).Edge name name ↔
        ∃ n, n.name = name ∧ TransGen (index.Uses .value) n n :=
    cycle_self_iff hnodup (edge_iff_uses hnodup) fun h => ⟨h.source_mem, h.target_mem⟩
  have hgrouped := (digraph index fun _ => true).grouped_components
  constructor
  case grouped =>
    simp only [ofIndex, List.map_map]
    exact (List.map_id _).symm ▸ hgrouped
  case member_iff =>
    intro name
    have hmem := hgrouped.mem_iff name
    rw [List.mem_flatten] at hmem
    constructor
    · rintro ⟨_, hc, hname⟩
      obtain ⟨members, hmembers, rfl⟩ := List.mem_map.1 hc
      exact exists_of_mem_nodes (hmem.1 ⟨members, hmembers, hname⟩)
    · rintro ⟨n, hn, halias, rfl⟩
      obtain ⟨members, hmembers, hname⟩ := hmem.2 (mem_nodes hn halias)
      exact ⟨_, List.mem_map_of_mem hmembers, hname⟩
  case recursive_iff =>
    intro c hc
    obtain ⟨members, hmembers, rfl⟩ := List.mem_map.1 hc
    constructor
    · intro hcyclic
      obtain ⟨name, hname⟩ :=
        List.exists_mem_of_ne_nil _ (Digraph.ne_nil_of_mem_components hmembers)
      obtain ⟨n, rfl, hcycle⟩ := hmentions.1 ((Digraph.isCyclic_iff hmembers hname).1 hcyclic)
      exact ⟨n, hname, hcycle⟩
    · rintro ⟨n, hname, hcycle⟩
      exact (Digraph.isCyclic_iff hmembers hname).2 (hmentions.2 ⟨n, rfl, hcycle⟩)
  case sameRecursive_iff =>
    intro name name'
    rw [← cycle_iff hnodup (edge_iff_mentions hnodup) mem_of_mentions, ← Digraph.share_cyclic_iff]
    simp only [sameRecursive, ofIndex, List.any_map, List.any_eq_true, Function.comp_apply,
      Bool.and_eq_true, List.contains_iff_mem, and_assoc]
    rfl
  case valueCyclic_iff =>
    exact fun name => Digraph.mem_cyclic_iff.trans huses

omit hnodup in
/-- The components of every graph are its nodes grouped by mutual reachability, and what the graph
of every module says of recursive and of infinite types is exact. -/
theorem recursion_exact : (∀ g : Digraph, g.Grouped g.components) ∧ ∀ module : NativeModule,
    (ofIndex (.ofModule module)).Exact (.ofModule module) :=
  ⟨Digraph.grouped_components, fun module =>
    exact_ofIndex (NominalIndex.nodup_names_ofModule module)⟩

end NominalGraph

end Crossing
