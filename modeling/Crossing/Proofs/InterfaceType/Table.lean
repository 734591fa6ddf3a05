import Crossing.InterfaceType.Table
import Crossing.Proofs.InterfaceType.Parts
import Crossing.Proofs.Nominal.Walk
import Mathlib.Data.List.Induction

/-!
# The table over a run

A table is asked to intern types, to reserve names and for handles, in any order. Its lists are
what was asked for, each entry once and in the order of the first requests (`nominals_after`,
`types_after`), and they grow at their ends only (`extends_after`). So a place in them means the
same from then on, and a request that is repeated gets the answer it got and changes nothing
(`Has.perform`).
-/

namespace Crossing

namespace TypeTable

/-! ### Lists that are filed into -/

section Filed

variable {α : Type} [DecidableEq α] {x y : α} {xs ys : List α}

/-- A list with an entry, which is put behind the others unless it is there. -/
def filed (xs : List α) (x : α) : List α := if x ∈ xs then xs else xs ++ [x]

theorem filed_of_mem (h : x ∈ xs) : filed xs x = xs := if_pos h

theorem filed_of_not_mem (h : x ∉ xs) : filed xs x = xs ++ [x] := if_neg h

theorem mem_filed : y ∈ filed xs x ↔ y ∈ xs ∨ y = x := by
  unfold filed
  split
  · exact ⟨.inl, fun h => h.elim id fun h => h ▸ ‹_›⟩
  · simp

theorem prefix_filed : xs <+: filed xs x := by
  unfold filed
  split
  · exact List.prefix_rfl
  · exact List.prefix_append xs [x]

theorem eraseDups_concat : (xs ++ [x]).eraseDups = filed xs.eraseDups x := by
  rw [List.eraseDups_append]
  by_cases h : x ∈ xs
  · rw [filed_of_mem (List.mem_eraseDups.2 h)]
    simp [List.removeAll, h]
  · rw [filed_of_not_mem (mt List.mem_eraseDups.1 h)]
    simp [List.removeAll, h, List.eraseDups_cons]

theorem prefix_eraseDups : xs.eraseDups <+: (xs ++ ys).eraseDups := by
  rw [List.eraseDups_append]
  exact List.prefix_append ..

theorem idxOf_of_prefix (h : xs <+: ys) (hx : x ∈ xs) : ys.idxOf x = xs.idxOf x := by
  obtain ⟨zs, rfl⟩ := h
  exact List.idxOf_append_of_mem hx

end Filed

variable {table next : TypeTable} {t u : InterfaceType} {name : String}

/-! ### Single operations -/

theorem types_intern (table : TypeTable) (t : InterfaceType) :
    (table.intern t).types = filed table.types t := by
  unfold intern filed
  split <;> rfl

theorem nominals_intern (table : TypeTable) (t : InterfaceType) :
    (table.intern t).nominals = table.nominals := by
  unfold intern
  split <;> rfl

theorem nominals_foldl_intern (ts : List InterfaceType) (table : TypeTable) :
    (ts.foldl intern table).nominals = table.nominals := by
  induction ts generalizing table with
  | nil => rfl
  | cons t ts ih => exact (ih _).trans (nominals_intern table t)

theorem nominals_internAll (table : TypeTable) (t : InterfaceType) :
    (table.internAll t).nominals = table.nominals :=
  nominals_foldl_intern t.postorder table

theorem intern_of_mem (h : t ∈ table.types) : table.intern t = table := if_pos h

theorem mem_intern : u ∈ (table.intern t).types ↔ u ∈ table.types ∨ u = t := by
  rw [types_intern, mem_filed]

theorem mem_foldl_intern {ts : List InterfaceType} :
    u ∈ (ts.foldl intern table).types ↔ u ∈ table.types ∨ u ∈ ts := by
  induction ts generalizing table with
  | nil => simp
  | cons t ts ih => rw [List.foldl_cons, ih, mem_intern, List.mem_cons, or_assoc]

theorem mem_internAll : u ∈ (table.internAll t).types ↔ u ∈ table.types ∨ t.Contains u := by
  rw [internAll, mem_foldl_intern, InterfaceType.mem_postorder]

theorem types_reserve (table : TypeTable) (name : String) :
    (table.reserve name).2.types = table.types := by
  unfold reserve
  split <;> rfl

theorem reserve_of_idxOf? {number : Nat} (h : table.nominals.idxOf? name = some number) :
    table.reserve name = (number, table) := by
  unfold reserve
  rw [h]

theorem reserve_of_mem (h : name ∈ table.nominals) :
    table.reserve name = (table.nominals.idxOf name, table) := by
  obtain ⟨number, hnumber⟩ :=
    Option.ne_none_iff_exists'.1 (mt List.idxOf?_eq_none_iff.1 (not_not.2 h))
  rw [List.idxOf_eq_getD_idxOf?, hnumber, Option.getD_some, reserve_of_idxOf? hnumber]

theorem reserve_of_not_mem (h : name ∉ table.nominals) :
    table.reserve name
      = (table.nominals.length, { table with nominals := table.nominals ++ [name] }) := by
  unfold reserve
  rw [List.idxOf?_eq_none_iff.2 h]

theorem nominals_reserve (table : TypeTable) (name : String) :
    (table.reserve name).2.nominals = filed table.nominals name := by
  by_cases h : name ∈ table.nominals
  · rw [reserve_of_mem h, filed_of_mem h]
  · rw [reserve_of_not_mem h, filed_of_not_mem h]

/-- Distinct names are reserved in their order. -/
theorem nominals_foldl_reserve (names : List String) (table : TypeTable)
    (h : (table.nominals ++ names).Nodup) :
    (names.foldl (fun table name => (table.reserve name).2) table).nominals
      = table.nominals ++ names := by
  induction names generalizing table with
  | nil => simp
  | cons name names ih =>
    have hnew : name ∉ table.nominals := fun hmem =>
      List.disjoint_of_nodup_append h hmem List.mem_cons_self
    have hreserve : (table.reserve name).2.nominals = table.nominals ++ [name] := by
      rw [nominals_reserve, filed_of_not_mem hnew]
    rw [List.foldl_cons, ih]
    · rw [hreserve, List.append_assoc, List.singleton_append]
    · rwa [hreserve, List.append_assoc]

theorem types_foldl_reserve (names : List String) (table : TypeTable) :
    (names.foldl (fun table name => (table.reserve name).2) table).types = table.types := by
  induction names generalizing table with
  | nil => rfl
  | cons name names ih => exact (ih _).trans (table.types_reserve name)

/-- A name has its place in the registry as its number. -/
theorem number_reserve (table : TypeTable) (name : String) :
    (table.reserve name).1 = (table.reserve name).2.nominals.idxOf name := by
  by_cases h : name ∈ table.nominals
  · rw [reserve_of_mem h]
  · rw [reserve_of_not_mem h, List.idxOf_append, if_neg h]
    simp

theorem nominal?_natCast (table : TypeTable) (number : Nat) :
    table.nominal? number = table.nominals[number]?.map (number, ·) := by
  have h : ¬(number : Int) < 0 := by omega
  simp [nominal?, h]

theorem nominal?_idxOf (h : name ∈ table.nominals) :
    table.nominal? (table.nominals.idxOf name) = some (table.nominals.idxOf name, name) := by
  rw [nominal?_natCast, List.getElem?_idxOf h, Option.map_some]

/-! ### Closed tables -/

/-- With every type, its parts are registered. -/
def Closed (table : TypeTable) : Prop := ∀ t ∈ table.types, ∀ u ∈ t.parts, u ∈ table.types

theorem Closed.intern (h : table.Closed) (ht : ∀ u ∈ t.parts, u ∈ table.types) :
    (table.intern t).Closed := by
  intro v hv u hu
  rw [mem_intern] at hv ⊢
  rcases hv with hv | rfl
  · exact .inl (h v hv u hu)
  · exact .inl (ht u hu)

theorem Closed.internAll (h : table.Closed) (t : InterfaceType) : (table.internAll t).Closed := by
  intro v hv u hu
  rw [mem_internAll] at hv ⊢
  exact hv.imp (fun hv => h v hv u hu) (·.tail hu)

theorem Closed.contains (h : table.Closed) (ht : t ∈ table.types) (hu : t.Contains u) :
    u ∈ table.types := by
  induction hu with
  | refl => exact ht
  | tail _ hpart ih => exact h _ ih _ hpart

/-! ### Requests -/

/-- What a table is asked for. -/
inductive Request
  | intern (t : InterfaceType)
  | reserve (name : String)
  | handle (name : String)

/-- What comes back: a number, or a type of the table. The table has no two types that are equal, so
a type of it is told by its place. -/
inductive Answer
  | number (number : Nat)
  | place (place : Nat)

/-- A type of a table by its place. -/
def placed (result : InterfaceType × TypeTable) : Answer × TypeTable :=
  (.place (result.2.types.idxOf result.1), result.2)

def Request.perform : Request → TypeTable → Answer × TypeTable
  | .intern t, table => placed (t, table.intern t)
  | .reserve name, table => (.number (table.reserve name).1, (table.reserve name).2)
  | .handle name, table => placed (table.handle name)

/-- The table after some requests. -/
def after (requests : List Request) : TypeTable :=
  requests.foldl (fun table request => (request.perform table).2) empty

theorem after_concat (requests : List Request) (request : Request) :
    after (requests ++ [request]) = (request.perform (after requests)).2 := by
  simp [after]

/-- The name that a request needs in the registry. -/
def Request.name? : Request → Option String
  | .intern _ => none
  | .reserve name | .handle name => some name

/-- The type that a request needs in a table. A handle has the place of its name as its number. -/
def Request.type? (nominals : List String) : Request → Option InterfaceType
  | .intern t => some t
  | .reserve _ => none
  | .handle name => some (.handle (nominals.idxOf name : Nat) name)

/-- What a request that finds all it needs is answered. -/
def Request.answer (table : TypeTable) (request : Request) : Answer :=
  match request with
  | .intern t => .place (table.types.idxOf t)
  | .reserve name => .number (table.nominals.idxOf name)
  | .handle name => .place (table.types.idxOf (.handle (table.nominals.idxOf name : Nat) name))

/-- The table has all that a request needs. -/
structure Has (table : TypeTable) (request : Request) : Prop where
  name : ∀ name ∈ request.name?, name ∈ table.nominals
  type : ∀ t ∈ request.type? table.nominals, t ∈ table.types

/-- A table grows at the ends of its lists. -/
structure Extends (table next : TypeTable) : Prop where
  types : table.types <+: next.types
  nominals : table.nominals <+: next.nominals

theorem handle_eq (table : TypeTable) (name : String) :
    table.handle name = (.handle ((table.reserve name).2.nominals.idxOf name : Nat) name,
      (table.reserve name).2.intern
        (.handle ((table.reserve name).2.nominals.idxOf name : Nat) name)) := by
  rw [← number_reserve]
  rfl

theorem nominals_perform (request : Request) (table : TypeTable) :
    (request.perform table).2.nominals
      = request.name?.elim table.nominals (filed table.nominals) := by
  cases request with
  | intern t => exact nominals_intern table t
  | reserve name => exact nominals_reserve table name
  | handle name => exact (nominals_intern _ _).trans (nominals_reserve table name)

theorem types_perform (request : Request) (table : TypeTable) :
    (request.perform table).2.types
      = (request.type? (request.perform table).2.nominals).elim table.types
          (filed table.types) := by
  cases request with
  | intern t => exact types_intern table t
  | reserve name => exact types_reserve table name
  | handle name =>
    simp only [Request.perform, placed, handle_eq, Request.type?, nominals_intern, types_intern,
      types_reserve, Option.elim_some]

theorem extends_perform (request : Request) (table : TypeTable) :
    table.Extends (request.perform table).2 := by
  constructor
  · rw [types_perform]
    cases request.type? _ with
    | none => exact List.prefix_rfl
    | some t => exact prefix_filed
  · rw [nominals_perform]
    cases request.name? with
    | none => exact List.prefix_rfl
    | some name => exact prefix_filed

theorem has_perform (request : Request) (table : TypeTable) :
    (request.perform table).2.Has request := by
  constructor
  · intro name hname
    rw [nominals_perform, Option.mem_def.1 hname]
    exact mem_filed.2 (.inr rfl)
  · intro t ht
    rw [types_perform, Option.mem_def.1 ht]
    exact mem_filed.2 (.inr rfl)

theorem answer_perform (request : Request) (table : TypeTable) :
    (request.perform table).1 = request.answer (request.perform table).2 := by
  cases request with
  | intern t => rfl
  | reserve name => exact congrArg Answer.number (number_reserve table name)
  | handle name =>
    simp only [Request.perform, placed, handle_eq, Request.answer, nominals_intern]

/-- A table that has all that is needed answers and stays as it is. -/
theorem Has.perform {request : Request} (h : table.Has request) :
    request.perform table = (request.answer table, table) := by
  cases request with
  | intern t => simp only [Request.perform, placed, intern_of_mem (h.type t rfl), Request.answer]
  | reserve name => simp only [Request.perform, reserve_of_mem (h.name name rfl), Request.answer]
  | handle name =>
    simp only [Request.perform, placed, handle_eq, reserve_of_mem (h.name name rfl),
      intern_of_mem (h.type _ rfl), Request.answer]

theorem Extends.trans {last : TypeTable} (h : table.Extends next) (h' : next.Extends last) :
    table.Extends last :=
  ⟨h.types.trans h'.types, h.nominals.trans h'.nominals⟩

/-- What is needed is needed in a table that has grown, -/
theorem Extends.type? {request : Request} (h : table.Extends next) (hhas : table.Has request) :
    request.type? next.nominals = request.type? table.nominals := by
  cases request with
  | intern t => rfl
  | reserve name => rfl
  | handle name =>
    rw [Request.type?, idxOf_of_prefix h.nominals (hhas.name name rfl), Request.type?]

theorem Extends.has {request : Request} (h : table.Extends next) (hhas : table.Has request) :
    next.Has request :=
  ⟨fun name hname => h.nominals.subset (hhas.name name hname),
    fun t ht => h.types.subset (hhas.type t (h.type? hhas ▸ ht))⟩

theorem Extends.answer {request : Request} (h : table.Extends next) (hhas : table.Has request) :
    request.answer next = request.answer table := by
  cases request with
  | intern t => rw [Request.answer, idxOf_of_prefix h.types (hhas.type t rfl), Request.answer]
  | reserve name =>
    rw [Request.answer, idxOf_of_prefix h.nominals (hhas.name name rfl), Request.answer]
  | handle name =>
    rw [Request.answer, idxOf_of_prefix h.nominals (hhas.name name rfl),
      idxOf_of_prefix h.types (hhas.type _ rfl), Request.answer]

/-! ### Runs -/

theorem extends_after (requests later : List Request) :
    (after requests).Extends (after (requests ++ later)) := by
  induction later using List.reverseRecOn with
  | nil =>
    rw [List.append_nil]
    exact ⟨List.prefix_rfl, List.prefix_rfl⟩
  | append_singleton later request ih =>
    rw [← List.append_assoc, after_concat]
    exact ih.trans (extends_perform request _)

/-- The names that are asked for, each where it is asked for first. -/
def registry (requests : List Request) : List String :=
  (requests.filterMap Request.name?).eraseDups

/-- The types that are asked for, each where it is asked for first. -/
def register (requests : List Request) : List InterfaceType :=
  (requests.filterMap (Request.type? (registry requests))).eraseDups

theorem nominals_after (requests : List Request) :
    (after requests).nominals = registry requests := by
  induction requests using List.reverseRecOn with
  | nil => rfl
  | append_singleton requests request ih =>
    rw [after_concat, nominals_perform, ih, registry, registry, List.filterMap_append]
    cases hname : request.name? with
    | none => simp [hname]
    | some name =>
      rw [List.filterMap_cons_some hname, List.filterMap_nil, eraseDups_concat, Option.elim_some]

/-- What was needed before is needed with a registry that has grown. -/
theorem filterMap_type? (requests : List Request) (request : Request) :
    requests.filterMap (Request.type? (registry (requests ++ [request])))
      = requests.filterMap (Request.type? (registry requests)) := by
  refine List.filterMap_congr fun earlier hearlier => ?_
  cases earlier with
  | intern t => rfl
  | reserve name => rfl
  | handle name =>
    have hname : name ∈ registry requests :=
      List.mem_eraseDups.2 (List.mem_filterMap.2 ⟨_, hearlier, rfl⟩)
    have hprefix : registry requests <+: registry (requests ++ [request]) := by
      rw [registry, registry, List.filterMap_append]
      exact prefix_eraseDups
    rw [Request.type?, Request.type?, idxOf_of_prefix hprefix hname]

theorem types_after (requests : List Request) : (after requests).types = register requests := by
  induction requests using List.reverseRecOn with
  | nil => rfl
  | append_singleton requests request ih =>
    rw [after_concat, types_perform, ← after_concat, nominals_after, ih, register, register,
      List.filterMap_append, filterMap_type?]
    cases ht : request.type? (registry (requests ++ [request])) with
    | none => simp [ht]
    | some t =>
      rw [List.filterMap_cons_some ht, List.filterMap_nil, eraseDups_concat, Option.elim_some]

/-- What an answer stands for in a table. -/
inductive Means (table : TypeTable) : Request → Answer → Prop
  | intern {t : InterfaceType} {place : Nat} : table.types[place]? = some t →
    Means table (.intern t) (.place place)
  | reserve {name : String} {number : Nat} : table.nominal? number = some (number, name) →
    Means table (.reserve name) (.number number)
  | handle {name : String} {number place : Nat} : table.nominal? number = some (number, name) →
    table.types[place]? = some (.handle number name) → Means table (.handle name) (.place place)

theorem Has.means {request : Request} (h : table.Has request) :
    table.Means request (request.answer table) := by
  cases request with
  | intern t => exact .intern (List.getElem?_idxOf (h.type t rfl))
  | reserve name => exact .reserve (nominal?_idxOf (h.name name rfl))
  | handle name =>
    exact .handle (nominal?_idxOf (h.name name rfl)) (List.getElem?_idxOf (h.type _ rfl))

/-- What a table is throughout a run. It has every type and every name that was asked for once, in
the order of the first requests. A request adds what it needs if it is not there, and whatever is
asked for later, its answer stands for the same and would be given again with nothing added. -/
theorem table_throughout (requests : List Request) (request : Request) (later : List Request) :
    let table := after requests
    let answered := request.perform table
    let last := after (requests ++ request :: later)
    (table.types.Nodup ∧ table.types = register requests)
      ∧ (table.nominals.Nodup ∧ table.nominals = registry requests)
      ∧ answered.2.nominals = request.name?.elim table.nominals (filed table.nominals)
      ∧ answered.2.types
          = (request.type? answered.2.nominals).elim table.types (filed table.types)
      ∧ last.Means request answered.1
      ∧ request.perform last = (answered.1, last) := by
  intro table answered last
  have hgrown : answered.2.Extends last := by
    have h := extends_after (requests ++ [request]) later
    rwa [after_concat, List.append_assoc, List.singleton_append] at h
  have hhas : answered.2.Has request := has_perform request table
  have hanswer : request.answer last = answered.1 :=
    (hgrown.answer hhas).trans (answer_perform request table).symm
  refine ⟨⟨?_, types_after requests⟩, ⟨?_, nominals_after requests⟩, nominals_perform request table,
    types_perform request table, ?_, ?_⟩
  · exact types_after requests ▸ nodup_eraseDups _
  · exact nominals_after requests ▸ nodup_eraseDups _
  · rw [← hanswer]
    exact (hgrown.has hhas).means
  · rw [(hgrown.has hhas).perform, hanswer]

end TypeTable

end Crossing
