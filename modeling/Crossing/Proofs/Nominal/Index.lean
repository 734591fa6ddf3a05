import Crossing.Nominal.Graph
import Mathlib.Data.List.Nodup

/-!
# The nominal types of an index

The index of a module holds no two nominal types of one name (`nodup_names_ofModule`), and what a
path resolves to is one of them (`resolve_mem`): for a path from the root, the one of that name
(`get?_of_resolve`).
-/

namespace Crossing

namespace NominalIndex

theorem nodup_insert {nominals : List Nominal} (h : (nominals.map (·.name)).Nodup) (n : Nominal) :
    ((insert nominals n).map (·.name)).Nodup := by
  unfold insert
  split
  · exact h
  · rename_i hnew
    rw [List.map_append, List.map_singleton, List.nodup_append]
    refine ⟨h, List.nodup_singleton _, fun a ha b hb heq => hnew ?_⟩
    obtain ⟨m, hm, rfl⟩ := List.mem_map.1 ha
    rw [List.mem_singleton.1 hb] at heq
    exact List.any_eq_true.2 ⟨m, hm, beq_iff_eq.2 heq⟩

theorem nodup_names_ofModule (module : NativeModule) : (ofModule module).names.Nodup := by
  have hfold : ∀ (ns acc : List Nominal), (acc.map (·.name)).Nodup →
      ((ns.foldl insert acc).map (·.name)).Nodup := by
    intro ns
    induction ns with
    | nil => exact fun acc h => h
    | cons n ns ih => exact fun acc h => ih _ (nodup_insert h n)
  exact hfold _ [] .nil

theorem eq_of_name_eq {index : NominalIndex} (h : index.names.Nodup) {a b : Nominal}
    (ha : a ∈ index.nominals) (hb : b ∈ index.nominals) (hname : a.name = b.name) : a = b :=
  List.inj_on_of_nodup_map h ha hb hname

theorem get?_mem {index : NominalIndex} {name : String} {n : Nominal}
    (h : index.get? name = some n) : n ∈ index.nominals :=
  List.mem_of_find?_eq_some h

theorem name_of_get? {index : NominalIndex} {name : String} {n : Nominal}
    (h : index.get? name = some n) : n.name = name := by
  have heq := List.find?_some h
  exact eq_of_beq heq

theorem innermost_mem {index : NominalIndex} {scope names : List String} {n : Nominal} :
    ∀ {depth : Nat}, index.innermost scope names depth = some n → n ∈ index.nominals
  | 0, h => by simp [innermost] at h
  | depth + 1, h => by
    rw [innermost, Option.or_eq_some_iff] at h
    rcases h with h | ⟨-, h⟩
    · exact get?_mem h
    · exact innermost_mem h

theorem resolve_mem {index : NominalIndex} {names scope : List String} {n : Nominal}
    (h : (index.resolve names scope).nominal? = some n) : n ∈ index.nominals := by
  have hoption : ∀ {o : Option Nominal}, (Resolution.ofOption o).nominal? = some n → o = some n := by
    intro o ho
    cases o <;> simp_all [Resolution.ofOption, Resolution.nominal?]
  unfold resolve at h
  split at h
  · simp [Resolution.nominal?] at h
  split at h
  · exact get?_mem (hoption h)
  split at h
  · exact get?_mem (hoption h)
  split at h
  · rename_i hinner
    obtain rfl : _ = n := Option.some.inj h
    exact innermost_mem hinner
  simp only at h
  split at h
  · simp [Resolution.nominal?] at h
  · rename_i m hhits
    have hm : m = n := Option.some.inj h
    have hmem := List.mem_singleton.2 hm.symm
    rw [← hhits] at hmem
    exact (List.mem_filter.1 hmem).1
  · simp [Resolution.nominal?] at h

/-- A path from the root means the nominal type of that name. -/
theorem get?_of_resolve {index : NominalIndex} {rest scope : List String} {n : Nominal}
    (h : (index.resolve (index.root :: rest) scope).nominal? = some n) :
    index.get? (QualifiedName.join (index.root :: rest)) = some n := by
  rw [NominalIndex.resolve, beq_self_eq_true, Bool.or_true, if_pos rfl] at h
  cases hget : index.get? (QualifiedName.join (index.root :: rest)) with
  | none => simp [hget, Resolution.ofOption, Resolution.nominal?] at h
  | some n' => simpa [hget, Resolution.ofOption, Resolution.nominal?] using h

end NominalIndex

end Crossing
