import Mathlib
import Crossing.Proofs.Building.Declared

/-!
# What a path means

A nominal type stands at a position: the names of the modules around it and its own. A path of
plain names means the type at the longest start of its scope with the names behind it, or else the
only one whose position properly ends in the names (`Means`); `crate`, the name of the root, `self`
and `super` fix a position (`Fixes`). Paths are looked up by names with separators in them, and as
long as no name holds a separator or begins with a colon this comes to the same
(`resolve_by_position`). What is declared in another order is found all the same, and only the order
of candidates changes (`resolve_alike`).
-/

namespace Crossing

open QualifiedName (IsPart join join_inj exists_append_of_join toList_join_concat)

namespace Nominal

/-- The names of the modules around a type, and its own. -/
def position (n : Nominal) : List String := n.scope ++ [n.declaration.name]

/-- The position properly ends in the names. -/
def EndsIn (n : Nominal) (names : List String) : Prop := names <:+ n.position ∧ names ≠ n.position

instance (n : Nominal) (names : List String) : Decidable (n.EndsIn names) :=
  inferInstanceAs (Decidable (_ ∧ _))

/-- The type stands at a start of the scope with the names behind it. -/
def IsAround (n : Nominal) (scope names : List String) : Prop :=
  ∃ base, base ≠ [] ∧ base <+: scope ∧ n.position = base ++ names

end Nominal

/-- Of several types at one position, the first. -/
def firsts : List Nominal → List Nominal
  | [] => []
  | n :: ns => n :: (firsts ns).filter (·.position ≠ n.position)

namespace NativeModule

/-- The structs, enumerations and aliases of a module tree, in the order of their declaration. -/
def nominals (m : NativeModule) : List Nominal :=
  (m.declarations.filter fun d => d.2.body.isNominal).map fun (scope, d) =>
    ⟨scope.qualify d.name, scope.modules, d⟩

/-- The types that paths can mean. -/
def nominalTypes (m : NativeModule) : List Nominal := firsts m.nominals

/-- Every name on the way to a nominal type can stand between separators. -/
structure NamedInParts (m : NativeModule) : Prop where
  root : IsPart m.name
  nominals : ∀ n ∈ m.nominals, ∀ part ∈ n.position, IsPart part

end NativeModule

/-- The type that stands at the longest start of the scope with the names behind it. -/
structure IsInnermost (types : List Nominal) (scope names : List String) (n : Nominal) : Prop where
  mem : n ∈ types
  around : n.IsAround scope names
  longest : ∀ n' ∈ types, n'.IsAround scope names → n'.position.length ≤ n.position.length

/-- What a path of plain names means from a scope. -/
inductive Means (types : List Nominal) (scope names : List String) : Resolution → Prop where
  | innermost {n : Nominal} (innermost : IsInnermost types scope names n) :
      Means types scope names (.found n)
  | only {n : Nominal} (outside : ∀ n' ∈ types, ¬ n'.IsAround scope names)
      (hits : types.filter (·.EndsIn names) = [n]) : Means types scope names (.found n)
  | several {hits : List Nominal} (outside : ∀ n' ∈ types, ¬ n'.IsAround scope names)
      (hits_eq : types.filter (·.EndsIn names) = hits) (several : 2 ≤ hits.length) :
      Means types scope names (.ambiguous (join names) (hits.map (·.name)))
  | missing (outside : ∀ n' ∈ types, ¬ n'.IsAround scope names)
      (hits : types.filter (·.EndsIn names) = []) : Means types scope names .missing

/-- The path begins with none of the names that fix a place. -/
structure IsRelative (root : String) (names : List String) : Prop where
  ne_nil : names ≠ []
  head : ∀ first ∈ names.head?, first ≠ "crate" ∧ first ≠ root ∧ first ≠ "self" ∧ first ≠ "super"

/-- The path fixes a position: `crate` or the name of the root is the root, and each `super` goes
one module out as long as there is one. -/
inductive Fixes (root : String) (scope : List String) : List String → List String → Prop where
  | root {first : String} {rest : List String} (opening : first = "crate" ∨ first = root) :
      Fixes root scope (first :: rest) (root :: rest)
  | climb {steps rest : List String} (nonempty : steps ≠ []) (away : steps.head? ≠ some root)
      (steps_mem : ∀ step ∈ steps, step = "self" ∨ step = "super")
      (rest_head : ∀ first ∈ rest.head?, first ≠ "self" ∧ first ≠ "super") :
      Fixes root scope (steps ++ rest) (scope.take (scope.length - steps.count "super") ++ rest)

/-- What a position means. -/
inductive Stands (types : List Nominal) (position : List String) : Resolution → Prop where
  | found {n : Nominal} (mem : n ∈ types) (position_eq : n.position = position) :
      Stands types position (.found n)
  | missing (empty : ∀ n ∈ types, n.position ≠ position) : Stands types position .missing

/-- Two meanings differ at most in the order of candidates. -/
inductive Resolution.Alike : Resolution → Resolution → Prop where
  | found (n : Nominal) : Alike (.found n) (.found n)
  | ambiguous (path : String) {candidates candidates' : List String}
      (perm : candidates.Perm candidates') :
      Alike (.ambiguous path candidates) (.ambiguous path candidates')
  | missing : Alike .missing .missing

theorem Nominal.endsIn_iff {n : Nominal} {names : List String} :
    n.EndsIn names ↔ ∃ around, around ≠ [] ∧ n.position = around ++ names := by
  constructor
  · rintro ⟨⟨around, h⟩, hne⟩
    refine ⟨around, ?_, h.symm⟩
    rintro rfl
    exact hne h
  · rintro ⟨around, hne, h⟩
    refine ⟨⟨around, h.symm⟩, fun heq => hne ?_⟩
    rwa [h, List.self_eq_append_left] at heq

section Firsts

variable {ns : List Nominal} {n n' : Nominal}

theorem mem_of_mem_firsts (h : n ∈ firsts ns) : n ∈ ns := by
  induction ns with
  | nil => exact h
  | cons m ns ih =>
    rw [firsts, List.mem_cons, List.mem_filter] at h
    rcases h with rfl | ⟨h, -⟩
    · exact List.mem_cons_self
    · exact .tail _ (ih h)

theorem nodup_position_firsts : ((firsts ns).map (·.position)).Nodup := by
  induction ns with
  | nil => exact .nil
  | cons n ns ih =>
    rw [firsts, List.map_cons, List.nodup_cons]
    refine ⟨?_, ih.sublist (List.filter_sublist.map _)⟩
    simp

theorem eq_of_position_eq (hn : n ∈ firsts ns) (hn' : n' ∈ firsts ns)
    (h : n.position = n'.position) : n = n' :=
  List.inj_on_of_nodup_map nodup_position_firsts hn hn' h

/-- Where names agree as positions do, an index keeps the first type at each position. -/
theorem foldl_insert_eq {acc : List Nominal} (h : ∀ a ∈ acc ++ ns, ∀ b ∈ acc ++ ns,
      a.name = b.name ↔ a.position = b.position) :
    ns.foldl NominalIndex.insert acc
      = acc ++ (firsts ns).filter fun n => acc.all (·.position ≠ n.position) := by
  induction ns generalizing acc with
  | nil => simp [firsts]
  | cons n ns ih =>
    have htaken : acc.any (·.name == n.name) = true ↔ ∃ a ∈ acc, a.position = n.position := by
      rw [List.any_eq_true]
      refine exists_congr fun a => and_congr_right fun ha => ?_
      rw [beq_iff_eq]
      exact h a (List.mem_append_left _ ha) n (List.mem_append_right _ List.mem_cons_self)
    rw [List.foldl_cons, NominalIndex.insert, firsts, List.filter_cons, List.filter_filter]
    by_cases htook : ∃ a ∈ acc, a.position = n.position
    · have hnot : (acc.all fun a => decide (a.position ≠ n.position)) = false := by
        simpa using htook
      rw [if_pos (htaken.2 htook), hnot, if_neg Bool.false_ne_true, ih (by grind)]
      congr 1
      refine List.filter_congr fun m _ => ?_
      obtain ⟨a, ha, hpos⟩ := htook
      grind
    · have hall : (acc.all fun a => decide (a.position ≠ n.position)) = true := by
        simpa using htook
      rw [if_neg (mt htaken.1 htook), hall, if_pos rfl, ih (by grind), List.append_assoc,
        List.singleton_append]
      congr 2
      refine List.filter_congr fun m _ => ?_
      rw [List.all_append]
      grind

end Firsts

namespace NativeModule

variable {module : NativeModule} {n n' : Nominal}

theorem name_of_mem_nominals (h : n ∈ module.nominals) : n.name = join n.position := by
  obtain ⟨p, -, rfl⟩ := List.mem_map.1 h
  rfl

theorem scope_ne_nil_of_mem_nominals (h : n ∈ module.nominals) : n.scope ≠ [] := by
  obtain ⟨p, hp, rfl⟩ := List.mem_map.1 h
  obtain ⟨rest, hrest⟩ := modules_of_mem_declarations (List.mem_of_mem_filter hp)
  simp [hrest]

theorem name_eq_iff (h : module.NamedInParts) (hn : n ∈ module.nominals)
    (hn' : n' ∈ module.nominals) : n.name = n'.name ↔ n.position = n'.position := by
  rw [name_of_mem_nominals hn, name_of_mem_nominals hn']
  refine ⟨fun heq => ?_, congrArg join⟩
  exact join_inj (h.nominals n hn) (h.nominals n' hn') (by simp [Nominal.position])
    (by simp [Nominal.position]) heq

/-- The index of a module holds the types that paths can mean. -/
theorem nominals_ofModule (h : module.NamedInParts) :
    (NominalIndex.ofModule module).nominals = module.nominalTypes := by
  have hfold : module.nominals.foldl NominalIndex.insert [] = module.nominalTypes := by
    rw [foldl_insert_eq fun a ha b hb => name_eq_iff h ha hb]
    simp [nominalTypes]
  exact hfold

/-- No type has an empty name. -/
theorem name_ne_empty (h : n ∈ module.nominals) : n.name ≠ join [] := by
  rw [name_of_mem_nominals h]
  intro heq
  have hchars := congrArg String.toList heq
  rw [Nominal.position, toList_join_concat (scope_ne_nil_of_mem_nominals h)] at hchars
  simp [join] at hchars

end NativeModule

namespace NominalIndex

section Lookup

variable {index : NominalIndex} {name : String} {n : Nominal}

theorem get?_eq_some_iff (h : index.names.Nodup) :
    index.get? name = some n ↔ n ∈ index.nominals ∧ n.name = name := by
  refine ⟨fun hget => ⟨get?_mem hget, name_of_get? hget⟩, ?_⟩
  rintro ⟨hmem, rfl⟩
  have hsome : (index.get? n.name).isSome :=
    List.find?_isSome.2 ⟨n, hmem, beq_self_eq_true _⟩
  obtain ⟨n', hn'⟩ := Option.isSome_iff_exists.1 hsome
  rw [hn', eq_of_name_eq h (get?_mem hn') hmem (name_of_get? hn')]

/-- A name ends in another behind a separator exactly when its parts properly end in the parts of
the other. -/
theorem endsIn_join_iff {ps names : List String} (hp : ∀ p ∈ ps, IsPart p)
    (hnames : ∀ q ∈ names, IsPart q) (hne : names ≠ []) :
    endsIn (join ps) (join names) = true ↔ ∃ around, around ≠ [] ∧ ps = around ++ names := by
  rw [endsIn, List.isSuffixOf_iff_suffix]
  constructor
  · rintro ⟨before, h⟩
    exact exists_append_of_join hp hnames hne h.symm
  · rintro ⟨around, haround, rfl⟩
    refine ⟨(join around).toList, ?_⟩
    rw [join, join, join, String.intercalate_append_of_ne_nil haround hne]
    simp

end Lookup

section Positions

variable {module : NativeModule} {scope names : List String} {n : Nominal}

/-- A name with parts is that of the type at the position. -/
theorem get?_join_iff (h : module.NamedInParts) {position : List String}
    (hposition : ∀ part ∈ position, IsPart part) :
    (ofModule module).get? (join position) = some n
      ↔ n ∈ module.nominalTypes ∧ n.position = position := by
  rw [get?_eq_some_iff (nodup_names_ofModule module), NativeModule.nominals_ofModule h]
  refine and_congr_right fun hmem => ?_
  have hn := mem_of_mem_firsts hmem
  constructor
  · intro hname
    have hne : position ≠ [] := by
      rintro rfl
      exact NativeModule.name_ne_empty hn hname
    rw [NativeModule.name_of_mem_nominals hn] at hname
    exact join_inj (h.nominals n hn) hposition (by simp [Nominal.position]) hne hname
  · rintro rfl
    exact NativeModule.name_of_mem_nominals hn

theorem get?_join_eq_none (h : module.NamedInParts) {position : List String}
    (hposition : ∀ part ∈ position, IsPart part) :
    (ofModule module).get? (join position) = none
      ↔ ∀ n ∈ module.nominalTypes, n.position ≠ position := by
  simp only [Option.eq_none_iff_forall_ne_some, ne_eq, get?_join_iff h hposition, not_and]

theorem stands_ofOption (h : module.NamedInParts) {position : List String}
    (hposition : ∀ part ∈ position, IsPart part) :
    Stands module.nominalTypes position
      (.ofOption ((ofModule module).get? (join position))) := by
  cases hget : (ofModule module).get? (join position) with
  | some n =>
    obtain ⟨hmem, hn⟩ := (get?_join_iff h hposition).1 hget
    exact .found hmem hn
  | none => exact .missing ((get?_join_eq_none h hposition).1 hget)

theorem isPart_take (hscope : ∀ part ∈ scope, IsPart part) (hnames : ∀ part ∈ names, IsPart part)
    (k : Nat) : ∀ part ∈ scope.take k ++ names, IsPart part :=
  List.forall_mem_append.2 ⟨fun part hpart => hscope part (List.mem_of_mem_take hpart), hnames⟩

/-- Of the scopes that are tried, the type that is found stands in the longest. -/
theorem of_innermost_eq_some (h : module.NamedInParts) (hscope : ∀ part ∈ scope, IsPart part)
    (hnames : ∀ part ∈ names, IsPart part) {depth : Nat}
    (hfound : (ofModule module).innermost scope names depth = some n) :
    n ∈ module.nominalTypes ∧ ∃ k < depth, n.position = scope.take (k + 1) ++ names ∧
      ∀ j < depth, ∀ n' ∈ module.nominalTypes,
        n'.position = scope.take (j + 1) ++ names → j ≤ k := by
  induction depth with
  | zero => simp [innermost] at hfound
  | succ depth ih =>
    have hparts := isPart_take hscope hnames (depth + 1)
    rw [innermost, Option.or_eq_some_iff] at hfound
    rcases hfound with hget | ⟨hnone, hfound⟩
    · obtain ⟨hmem, hn⟩ := (get?_join_iff h hparts).1 hget
      exact ⟨hmem, depth, Nat.lt_succ_self _, hn, fun j hj _ _ _ => Nat.le_of_lt_succ hj⟩
    · obtain ⟨hmem, k, hk, hn, hlast⟩ := ih hfound
      refine ⟨hmem, k, Nat.lt_succ_of_lt hk, hn, fun j hj n' hn' hposition => ?_⟩
      rcases Nat.lt_succ_iff_lt_or_eq.1 hj with hj | rfl
      · exact hlast j hj n' hn' hposition
      · exact absurd hposition ((get?_join_eq_none h hparts).1 hnone n' hn')

theorem of_innermost_eq_none (h : module.NamedInParts) (hscope : ∀ part ∈ scope, IsPart part)
    (hnames : ∀ part ∈ names, IsPart part) {depth : Nat}
    (hnone : (ofModule module).innermost scope names depth = none) :
    ∀ k < depth, ∀ n ∈ module.nominalTypes, n.position ≠ scope.take (k + 1) ++ names := by
  induction depth with
  | zero => intro k hk; omega
  | succ depth ih =>
    have hparts := isPart_take hscope hnames (depth + 1)
    rw [innermost, Option.or_eq_none_iff] at hnone
    intro k hk
    rcases Nat.lt_succ_iff_lt_or_eq.1 hk with hk | rfl
    · exact ih hnone.2 k hk
    · exact (get?_join_eq_none h hparts).1 hnone.1

end Positions

end NominalIndex

theorem Nominal.isAround_iff {n : Nominal} {scope names : List String} :
    n.IsAround scope names ↔ ∃ k < scope.length, n.position = scope.take (k + 1) ++ names := by
  constructor
  · rintro ⟨base, hne, hprefix, h⟩
    obtain ⟨k, hk⟩ := Nat.exists_eq_succ_of_ne_zero (List.length_pos_of_ne_nil hne).ne'
    refine ⟨k, ?_, ?_⟩
    · have := hprefix.length_le
      omega
    · rw [h, ← Nat.succ_eq_add_one, ← hk, ← List.prefix_iff_eq_take.1 hprefix]
  · rintro ⟨k, hk, h⟩
    refine ⟨scope.take (k + 1), ?_, List.take_prefix _ _, h⟩
    rw [← List.length_pos_iff, List.length_take]
    omega

section Resolve

variable {module : NativeModule} {scope names : List String}

theorem isInnermost_of_innermost (h : module.NamedInParts) (hscope : ∀ part ∈ scope, IsPart part)
    (hnames : ∀ part ∈ names, IsPart part) {n : Nominal}
    (hfound : (NominalIndex.ofModule module).innermost scope names scope.length = some n) :
    IsInnermost module.nominalTypes scope names n := by
  obtain ⟨hmem, k, hk, hn, hlast⟩ := NominalIndex.of_innermost_eq_some h hscope hnames hfound
  refine ⟨hmem, Nominal.isAround_iff.2 ⟨k, hk, hn⟩, fun n' hn' haround => ?_⟩
  obtain ⟨j, hj, hn''⟩ := Nominal.isAround_iff.1 haround
  have hle := hlast j hj n' hn' hn''
  rw [hn, hn'', List.length_append, List.length_append, List.length_take, List.length_take]
  omega

theorem filter_endsIn (h : module.NamedInParts) (hnames : ∀ part ∈ names, IsPart part)
    (hne : names ≠ []) :
    (NominalIndex.ofModule module).nominals.filter
        (fun n => NominalIndex.endsIn n.name (join names))
      = module.nominalTypes.filter (·.EndsIn names) := by
  rw [NativeModule.nominals_ofModule h]
  refine List.filter_congr fun n hmem => ?_
  have hn := mem_of_mem_firsts hmem
  rw [NativeModule.name_of_mem_nominals hn, Bool.eq_iff_iff, decide_eq_true_iff,
    Nominal.endsIn_iff, NominalIndex.endsIn_join_iff (h.nominals n hn) hnames hne]

theorem means_resolve (h : module.NamedInParts) (hscope : ∀ part ∈ scope, IsPart part)
    (hnames : ∀ part ∈ names, IsPart part) (hrelative : IsRelative module.name names) :
    Means module.nominalTypes scope names
      ((NominalIndex.ofModule module).resolve names scope) := by
  obtain ⟨first, rest, rfl⟩ := List.exists_cons_of_ne_nil hrelative.ne_nil
  obtain ⟨hcrate, hroot, hself, hsuper⟩ := hrelative.head first rfl
  have hroot' : first ≠ (NominalIndex.ofModule module).root := hroot
  simp only [NominalIndex.resolve, beq_iff_eq, hcrate, hroot', hself, hsuper, Bool.or_eq_true,
    or_self, if_false]
  cases hinner : (NominalIndex.ofModule module).innermost scope (first :: rest) scope.length with
  | some n => exact .innermost (isInnermost_of_innermost h hscope hnames hinner)
  | none =>
    have houtside : ∀ n ∈ module.nominalTypes, ¬ n.IsAround scope (first :: rest) := by
      intro n hn haround
      obtain ⟨k, hk, hposition⟩ := Nominal.isAround_iff.1 haround
      exact NominalIndex.of_innermost_eq_none h hscope hnames hinner k hk n hn hposition
    simp only [filter_endsIn h hnames hrelative.ne_nil]
    split
    · exact .missing houtside ‹_›
    · exact .only houtside ‹_›
    · rename_i hnil hsingle
      refine .several houtside rfl ?_
      generalize module.nominalTypes.filter (·.EndsIn (first :: rest)) = hits at hnil hsingle
      rcases hits with _ | ⟨n, _ | ⟨n', hits⟩⟩
      · exact absurd rfl hnil
      · exact absurd rfl (hsingle n)
      · simp

/-- A path of plain names has one meaning. -/
theorem Means.unique {ns : List Nominal} {r r' : Resolution} (h : Means (firsts ns) scope names r)
    (h' : Means (firsts ns) scope names r') : r = r' := by
  cases h with
  | @innermost n hn =>
    cases h' with
    | @innermost n' hn' =>
      have hlength := (hn'.longest n hn.mem hn.around).antisymm (hn.longest n' hn'.mem hn'.around)
      obtain ⟨base, -, hprefix, hbase⟩ := hn.around
      obtain ⟨base', -, hprefix', hbase'⟩ := hn'.around
      have hsame : base = base' := by
        rw [hbase, hbase', List.length_append, List.length_append] at hlength
        exact (List.prefix_of_prefix_length_le hprefix hprefix' (by omega)).eq_of_length (by omega)
      rw [eq_of_position_eq hn.mem hn'.mem (by rw [hbase, hbase', hsame])]
    | only houtside => exact absurd hn.around (houtside n hn.mem)
    | several houtside => exact absurd hn.around (houtside n hn.mem)
    | missing houtside => exact absurd hn.around (houtside n hn.mem)
  | only houtside hhits =>
    cases h' with
    | innermost hn' => exact absurd hn'.around (houtside _ hn'.mem)
    | only _ hhits' =>
      rw [hhits] at hhits'
      rw [(List.cons.inj hhits').1]
    | several _ heq htwo => simp [← heq, hhits] at htwo
    | missing _ hnil => simp [hhits] at hnil
  | several houtside heq htwo =>
    cases h' with
    | innermost hn' => exact absurd hn'.around (houtside _ hn'.mem)
    | only _ hhits' => simp [← heq, hhits'] at htwo
    | several _ heq' => rw [← heq, ← heq']
    | missing _ hnil => simp [← heq, hnil] at htwo
  | missing houtside hnil =>
    cases h' with
    | innermost hn' => exact absurd hn'.around (houtside _ hn'.mem)
    | only _ hhits' => simp [hnil] at hhits'
    | several _ heq htwo => simp [← heq, hnil] at htwo
    | missing => rfl

theorem climb_append {base steps rest : List String}
    (hsteps : ∀ step ∈ steps, step = "self" ∨ step = "super")
    (hrest : ∀ first ∈ rest.head?, first ≠ "self" ∧ first ≠ "super") :
    NominalIndex.climb base (steps ++ rest)
      = (base.take (base.length - steps.count "super"), rest) := by
  induction steps generalizing base with
  | nil =>
    cases rest with
    | nil => simp [NominalIndex.climb]
    | cons first rest =>
      obtain ⟨hself, hsuper⟩ := hrest first rfl
      simp [NominalIndex.climb, hself, hsuper]
  | cons step steps ih =>
    rw [List.forall_mem_cons] at hsteps
    rcases hsteps.1 with rfl | rfl
    · rw [List.cons_append, NominalIndex.climb, if_pos (beq_self_eq_true _), ih hsteps.2]
      simp
    · rw [List.cons_append, NominalIndex.climb, if_neg (by decide), if_pos (beq_self_eq_true _),
        ih hsteps.2]
      rw [List.dropLast_eq_take, List.take_take, List.length_take, List.count_cons_self]
      congr 2
      omega

theorem stands_resolve (h : module.NamedInParts) (hscope : ∀ part ∈ scope, IsPart part)
    (hnames : ∀ part ∈ names, IsPart part) {position : List String}
    (hfixes : Fixes module.name scope names position) :
    Stands module.nominalTypes position
      ((NominalIndex.ofModule module).resolve names scope) := by
  cases hfixes with
  | @root first rest hopening =>
    have hopens : (first == "crate" || first == (NominalIndex.ofModule module).root) = true := by
      simpa [NominalIndex.ofModule] using hopening
    rw [NominalIndex.resolve, if_pos hopens]
    refine NominalIndex.stands_ofOption h ?_
    exact List.forall_mem_cons.2 ⟨h.root, (List.forall_mem_cons.1 hnames).2⟩
  | @climb steps rest hne haway hsteps hrest =>
    obtain ⟨step, steps, rfl⟩ := List.exists_cons_of_ne_nil hne
    have hstep := hsteps step List.mem_cons_self
    have hnot : (step == "crate" || step == (NominalIndex.ofModule module).root) = false := by
      have hroot : step ≠ (NominalIndex.ofModule module).root := by
        simpa [NominalIndex.ofModule] using haway
      rcases hstep with rfl | rfl <;> simp [hroot]
    have hclimbs : (step == "self" || step == "super") = true := by simpa using hstep
    have hclimb : NominalIndex.climb scope (step :: (steps ++ rest))
        = (scope.take (scope.length - (step :: steps).count "super"), rest) :=
      climb_append hsteps hrest
    rw [List.cons_append, NominalIndex.resolve, hnot, if_neg Bool.false_ne_true, if_pos hclimbs,
      hclimb]
    exact NominalIndex.stands_ofOption h
      (NominalIndex.isPart_take hscope (List.forall_mem_append.1 hnames).2 _)

/-- A position has one meaning. -/
theorem Stands.unique {ns : List Nominal} {position : List String} {r r' : Resolution}
    (h : Stands (firsts ns) position r) (h' : Stands (firsts ns) position r') : r = r' := by
  cases h with
  | found hn hposition =>
    cases h' with
    | found hn' hposition' => rw [eq_of_position_eq hn hn' (hposition.trans hposition'.symm)]
    | missing hempty => exact absurd hposition (hempty _ hn)
  | missing hempty =>
    cases h' with
    | found hn' hposition' => exact absurd hposition' (hempty _ hn')
    | missing => rfl

/-- A path that is not relative fixes a position. -/
theorem exists_fixes {root : String} (hne : names ≠ []) (h : ¬ IsRelative root names) :
    ∃ position, Fixes root scope names position := by
  obtain ⟨first, rest, rfl⟩ := List.exists_cons_of_ne_nil hne
  by_cases hopening : first = "crate" ∨ first = root
  · exact ⟨_, .root hopening⟩
  have hstep : first = "self" ∨ first = "super" := by
    by_contra hstep
    refine h ⟨hne, ?_⟩
    simp only [List.head?_cons, Option.mem_def, Option.some.injEq, forall_eq']
    tauto
  have hsplit := List.takeWhile_append_dropWhile (p := fun s => decide (s = "self" ∨ s = "super"))
    (l := first :: rest)
  rw [List.takeWhile_cons_of_pos (by simpa using hstep)] at hsplit
  rw [← hsplit]
  refine ⟨_, .climb (List.cons_ne_nil _ _) ?_ ?_ ?_⟩
  · simpa using fun heq => hopening (.inr heq)
  · rw [List.forall_mem_cons]
    refine ⟨hstep, fun step hmem => ?_⟩
    simpa using List.mem_takeWhile_imp hmem
  · intro next hnext
    have hnot := List.head?_dropWhile_not (fun s => decide (s = "self" ∨ s = "super"))
      (first :: rest)
    rw [Option.mem_def.1 hnext] at hnot
    simpa using hnot

end Resolve

section Order

variable {index index' : NominalIndex}

namespace NominalIndex

theorem get?_perm (h : index.names.Nodup) (hperm : index.nominals.Perm index'.nominals)
    (name : String) : index.get? name = index'.get? name := by
  refine Option.ext fun n => ?_
  rw [get?_eq_some_iff h, get?_eq_some_iff ((hperm.map _).nodup_iff.1 h), hperm.mem_iff]

theorem innermost_perm (h : index.names.Nodup) (hperm : index.nominals.Perm index'.nominals)
    (scope names : List String) (depth : Nat) :
    index.innermost scope names depth = index'.innermost scope names depth := by
  induction depth with
  | zero => rfl
  | succ depth ih => rw [innermost, innermost, get?_perm h hperm, ih]

end NominalIndex

theorem Resolution.alike_refl (r : Resolution) : Alike r r := by
  cases r with
  | found n => exact .found n
  | ambiguous path candidates => exact .ambiguous path (.refl _)
  | missing => exact .missing

/-- In another order the same types are found, as long as their names are distinct. -/
theorem resolve_alike (hroot : index.root = index'.root) (h : index.names.Nodup)
    (hperm : index.nominals.Perm index'.nominals) (names scope : List String) :
    (index.resolve names scope).Alike (index'.resolve names scope) := by
  cases names with
  | nil => exact .missing
  | cons first rest =>
    simp only [NominalIndex.resolve, ← hroot, ← NominalIndex.get?_perm h hperm,
      ← NominalIndex.innermost_perm h hperm]
    split
    · exact Resolution.alike_refl _
    split
    · exact Resolution.alike_refl _
    split
    · exact .found _
    have hits := hperm.filter fun n => NominalIndex.endsIn n.name (join (first :: rest))
    split
    · rename_i hnil
      rw [hnil] at hits
      rw [hits.symm.eq_nil]
      exact .missing
    · rename_i n hone
      rw [hone] at hits
      rw [hits.symm.eq_singleton]
      exact .found n
    · rename_i hnil hone
      split
      · rename_i hnil'
        rw [hnil'] at hits
        exact absurd hits.eq_nil hnil
      · rename_i n hone'
        rw [hone'] at hits
        exact absurd hits.eq_singleton (hone n)
      · exact .ambiguous _ (hits.map _)

end Order

/-- As long as no name holds a separator or begins with a colon, a relative path means the type at
the longest start of the scope with the names behind it, or else the only type whose position
properly ends in the names; several such types are a problem that lists them. Every other path
fixes a position, and means the type there if there is one. In a module with the same types in
another order it means the same, but for the order of candidates. -/
theorem resolve_by_position {module : NativeModule} (h : module.NamedInParts)
    {scope names : List String} (hscope : ∀ part ∈ scope, IsPart part)
    (hnames : ∀ part ∈ names, IsPart part) (hne : names ≠ []) :
    (IsRelative module.name names → ∀ r, (NominalIndex.ofModule module).resolve names scope = r
      ↔ Means module.nominalTypes scope names r) ∧
    (¬ IsRelative module.name names → ∃ position, Fixes module.name scope names position) ∧
    (∀ position, Fixes module.name scope names position →
      ∀ r, (NominalIndex.ofModule module).resolve names scope = r
        ↔ Stands module.nominalTypes position r) ∧
    (∀ module' : NativeModule, module'.name = module.name →
      (module.nominals.map (·.name)).Nodup → module.nominals.Perm module'.nominals →
      ((NominalIndex.ofModule module).resolve names scope).Alike
        ((NominalIndex.ofModule module').resolve names scope)) := by
  refine ⟨fun hrelative r => ⟨?_, ?_⟩, exists_fixes hne,
    fun position hfixes r => ⟨?_, ?_⟩, fun module' hroot hnodup hperm => ?_⟩
  · rintro rfl
    exact means_resolve h hscope hnames hrelative
  · exact (means_resolve h hscope hnames hrelative).unique
  · rintro rfl
    exact stands_resolve h hscope hnames hfixes
  · exact (stands_resolve h hscope hnames hfixes).unique
  · have hfold : ∀ {m : NativeModule}, (m.nominals.map (·.name)).Nodup →
        (NominalIndex.ofModule m).nominals = m.nominals := by
      intro m hm
      exact @NominalIndex.foldl_insert m.nominals [] hm
    refine resolve_alike hroot.symm (NominalIndex.nodup_names_ofModule module) ?_ names scope
    rwa [hfold hnodup, hfold ((hperm.map _).nodup_iff.1 hnodup)]

section Examples

def unitStruct (name : String) : Declaration where
  name
  visibility := .everyone
  generics := []
  attrs := []
  span := {}
  body := .struct [] .unit

def branch (name : String) (items : List Declaration) (children : List NativeModule) :
    NativeModule where
  name
  items
  children
  visibility := .everyone
  span := {}

/-- A module in which the names of types are repeated at several depths. -/
def chart : NativeModule :=
  branch "crate" [unitStruct "Point"]
    [branch "a" [unitStruct "Line", unitStruct "Point"] [branch "b" [] []],
      branch "c" [unitStruct "Line"] []]

/-- The same module with its children in another order. -/
def turnedChart : NativeModule :=
  branch "crate" [unitStruct "Point"]
    [branch "c" [unitStruct "Line"] [],
      branch "a" [unitStruct "Line", unitStruct "Point"] [branch "b" [] []]]

theorem nominals_chart : chart.nominals =
    [⟨"crate::Point", ["crate"], unitStruct "Point"⟩,
      ⟨"crate::a::Line", ["crate", "a"], unitStruct "Line"⟩,
      ⟨"crate::a::Point", ["crate", "a"], unitStruct "Point"⟩,
      ⟨"crate::c::Line", ["crate", "c"], unitStruct "Line"⟩] := rfl

theorem nominals_turnedChart : turnedChart.nominals =
    [⟨"crate::Point", ["crate"], unitStruct "Point"⟩,
      ⟨"crate::c::Line", ["crate", "c"], unitStruct "Line"⟩,
      ⟨"crate::a::Line", ["crate", "a"], unitStruct "Line"⟩,
      ⟨"crate::a::Point", ["crate", "a"], unitStruct "Point"⟩] := rfl

theorem namedInParts_chart : chart.NamedInParts := by
  refine ⟨by decide, ?_⟩
  rw [nominals_chart]
  decide

/-- From the innermost module the nearer of two types is meant, from the outermost two types of one
name are a problem, and a path that climbs may end nowhere. -/
theorem meanings_in_chart :
    Means chart.nominalTypes ["crate", "a", "b"] ["Point"]
        (.found ⟨"crate::a::Point", ["crate", "a"], unitStruct "Point"⟩) ∧
      Means chart.nominalTypes ["crate"] ["Line"]
        (.ambiguous "Line" ["crate::a::Line", "crate::c::Line"]) ∧
      Fixes "crate" ["crate", "a", "b"] ["super", "super", "Line"] ["crate", "Line"] ∧
      Stands chart.nominalTypes ["crate", "Line"] .missing ∧
      ((NominalIndex.ofModule chart).resolve ["Line"] ["crate"]).Alike
        ((NominalIndex.ofModule turnedChart).resolve ["Line"] ["crate"]) := by
  have houter : ∀ part ∈ ["crate"], IsPart part := by decide
  have hinner : ∀ part ∈ ["crate", "a", "b"], IsPart part := by decide
  have hpoint := resolve_by_position namedInParts_chart hinner
    (show ∀ part ∈ ["Point"], IsPart part by decide) (by decide)
  have hline := resolve_by_position namedInParts_chart houter
    (show ∀ part ∈ ["Line"], IsPart part by decide) (by decide)
  have hsuper := resolve_by_position namedInParts_chart hinner
    (show ∀ part ∈ ["super", "super", "Line"], IsPart part by decide) (by decide)
  have hfixes : Fixes "crate" ["crate", "a", "b"] ["super", "super", "Line"] ["crate", "Line"] :=
    .climb (show ["super", "super"] ≠ [] by decide) (by decide) (by decide) (by decide)
  have horder : (chart.nominals.map (·.name)).Nodup ∧
      chart.nominals.Perm turnedChart.nominals := by
    rw [nominals_chart, nominals_turnedChart]
    exact ⟨by decide, .cons _ (@List.perm_append_comm _ [_, _] [_])⟩
  refine ⟨?near, ?two, hfixes, ?nowhere, hline.2.2.2 _ rfl horder.1 horder.2⟩
  case near => exact (hpoint.1 ⟨by decide, by decide⟩ _).1 rfl
  case two => exact (hline.1 ⟨by decide, by decide⟩ _).1 rfl
  case nowhere => exact (hsuper.2.2.1 _ hfixes _).1 rfl

/-- A module whose only type has a name that begins with a colon. -/
def colon : NativeModule := branch "crate" [unitStruct ":Point"] []

/-- A module with two types at one position. -/
def twins : NativeModule :=
  branch "crate" [] [branch "a" [unitStruct "Point", unitStruct "Point"] []]

theorem resolve_colon : (NominalIndex.ofModule colon).resolve ["Point"] ["crate"]
    = .found ⟨"crate:::Point", ["crate"], unitStruct ":Point"⟩ := rfl

theorem resolve_twins : (NominalIndex.ofModule twins).resolve ["Point"] ["crate"]
    = .found ⟨"crate::a::Point", ["crate", "a"], unitStruct "Point"⟩ := rfl

/-- A name that begins with a colon ends in the name behind the colon, and two types at one position
are no problem: neither is what a relative path means among all declarations, although no name
holds a separator. -/
theorem not_means_among_declarations :
    (∀ module ∈ [colon, twins], ∀ n ∈ module.nominals, ∀ part ∈ n.position,
      ¬ [':', ':'] <:+: part.toList) ∧
    (∀ module ∈ [colon, twins], IsRelative module.name ["Point"]) ∧
    ∀ module ∈ [colon, twins], ¬ Means module.nominals ["crate"] ["Point"]
      ((NominalIndex.ofModule module).resolve ["Point"] ["crate"]) := by
  have hrelative : IsRelative "crate" ["Point"] := ⟨by decide, by decide⟩
  refine ⟨by decide, by simpa [colon, twins, branch] using hrelative, ?_⟩
  simp only [List.forall_mem_cons, resolve_colon, resolve_twins]
  refine ⟨fun h => ?_, fun h => ?_, List.forall_mem_nil _⟩
  · have hends : colon.nominals.filter (·.EndsIn ["Point"]) = [] := by decide
    cases h with
    | innermost h =>
      obtain ⟨base, -, -, heq⟩ := h.around
      have hlast := congrArg List.getLast? heq
      simp [Nominal.position, unitStruct] at hlast
    | only _ hits => simp [hends] at hits
  · have hends : (twins.nominals.filter (·.EndsIn ["Point"])).length = 2 := by decide
    cases h with
    | innermost h =>
      obtain ⟨k, hk, heq⟩ := Nominal.isAround_iff.1 h.around
      have hzero : k = 0 := by simpa using hk
      simp [hzero, Nominal.position, unitStruct] at heq
    | only _ hits => simp [hits] at hends

end Examples

end Crossing
