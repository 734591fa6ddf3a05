import Mathlib
import Crossing.Ownership.Slot
import Crossing.Proofs.InterfaceType.Parts

/-!
# Ways into a type

A way leads from a type to something inside it by the labels of the parts on it (`ways`). There are
no two ways of the same labels when no two parts of a type inside have one label (`nodup_ways_iff`).
A way is written with dots between its labels (`pathOf`). A label may hold dots itself, but the
labels beside each other hold equally many of them when the names they are made of hold none, and
then a spelling tells its way (`pathOf_inj`).
-/

namespace Crossing

namespace InterfaceType

/-- The ways from a type to what is inside it, each by its labels. -/
def ways (t : InterfaceType) : List (List String) :=
  [] :: t.children.attach.flatMap fun ⟨(label, u), _⟩ => u.ways.map (label :: ·)
termination_by sizeOf t
decreasing_by
  exact sizeOf_part_lt (List.mem_map_of_mem ‹_›)

end InterfaceType

/-- The ways into labelled types, with the one that stays outside. -/
def waysInto (parts : List (String × InterfaceType)) : List (List String) :=
  [] :: parts.flatMap fun x => x.2.ways.map (x.1 :: ·)

/-- A way as it is written behind a path. -/
def pathOf (path : String) (way : List String) : String := way.foldl Slot.under path

/-- What stands between the dots of a label. -/
def pieces (label : String) : List (List Char) := label.toList.splitOn '.'

/-- No two labels are equal, and all hold equally many dots. -/
structure Steady (labels : List String) : Prop where
  nodup : labels.Nodup
  even : ∃ n, ∀ label ∈ labels, (pieces label).length = n

namespace InterfaceType

/-- The names that the labels of the parts are made of. -/
def names : InterfaceType → List String
  | .record _ fs => fs.map (·.name)
  | .taggedUnion _ vs => vs.flatMap fun v => v.name :: v.fields.map (·.name)
  | _ => []

theorem ways_eq (t : InterfaceType) : t.ways = waysInto t.children := by
  have hinside : t.children.attach.map (fun x => x.1.2.ways.map (x.1.1 :: ·))
      = t.children.map fun x => x.2.ways.map (x.1 :: ·) :=
    List.attach_map_val (f := fun x : String × InterfaceType => x.2.ways.map (x.1 :: ·))
  rw [ways, waysInto, List.flatMap_def, List.flatMap_def, ← hinside]

theorem nil_mem_ways (t : InterfaceType) : [] ∈ t.ways := by
  rw [ways]
  exact List.mem_cons_self

end InterfaceType

section Ways

variable {parts : List (String × InterfaceType)}

theorem nodup_waysInto_iff : (waysInto parts).Nodup ↔
    (parts.map (·.1)).Nodup ∧ ∀ x ∈ parts, x.2.ways.Nodup := by
  have hnil : [] ∉ parts.flatMap fun x => x.2.ways.map (x.1 :: ·) := by simp
  have hapart : ∀ x y : String × InterfaceType,
      (x.2.ways.map (x.1 :: ·)).Disjoint (y.2.ways.map (y.1 :: ·)) ↔ x.1 ≠ y.1 := by
    intro x y
    constructor
    · intro h heq
      exact h (List.mem_map_of_mem x.2.nil_mem_ways) (heq ▸ List.mem_map_of_mem y.2.nil_mem_ways)
    · intro hne way hx hy
      obtain ⟨v, -, rfl⟩ := List.mem_map.1 hx
      obtain ⟨v', -, heq⟩ := List.mem_map.1 hy
      exact hne (List.cons.inj heq).1.symm
  rw [waysInto, List.nodup_cons, and_iff_right hnil, List.nodup_flatMap, and_comm]
  refine and_congr ?_ (forall₂_congr fun x _ => List.nodup_map_iff (List.cons_injective))
  rw [List.Nodup, List.pairwise_map]
  exact List.Pairwise.iff hapart

/-- The ways into a type are distinct exactly when the labels beside each other are. -/
theorem nodup_ways_iff {t : InterfaceType} :
    t.ways.Nodup ↔ ∀ u, t.Contains u → (u.children.map (·.1)).Nodup := by
  induction t using InterfaceType.parts_induction with
  | h t ih =>
    have hparts : (∀ x ∈ t.children, x.2.ways.Nodup) ↔
        ∀ p ∈ t.parts, ∀ u, p.Contains u → (u.children.map (·.1)).Nodup := by
      rw [InterfaceType.parts, List.forall_mem_map]
      exact forall₂_congr fun x hx => ih x.2 (List.mem_map_of_mem hx)
    rw [InterfaceType.ways_eq, nodup_waysInto_iff, hparts]
    constructor
    · rintro ⟨hlabels, hinside⟩ u hu
      rcases InterfaceType.contains_iff.1 hu with rfl | ⟨p, hp, hu⟩
      · exact hlabels
      · exact hinside p hp u hu
    · intro h
      exact ⟨h t .refl, fun p hp u hu => h u (InterfaceType.contains_iff.2 (.inr ⟨p, hp, hu⟩))⟩

end Ways

section Spelling

theorem pieces_ne_nil (label : String) : pieces label ≠ [] := List.splitOn_ne_nil _ _

theorem pieces_inj {a b : String} (h : pieces a = pieces b) : a = b := by
  have hchars := congrArg ['.'].intercalate h
  rwa [pieces, pieces, List.intercalate_splitOn, List.intercalate_splitOn,
    String.toList_inj] at hchars

theorem pieces_dotted (a b : String) : pieces (a ++ "." ++ b) = pieces a ++ pieces b := by
  have hchars : (a ++ "." ++ b).toList = a.toList ++ '.' :: b.toList := by simp
  rw [pieces, hchars, List.splitOn_append_cons_self, pieces, pieces]

theorem pieces_of_dotless {name : String} (h : '.' ∉ name.toList) :
    pieces name = [name.toList] := by
  have hsplit := List.splitOn_intercalate '.' (List.forall_mem_singleton.2 h) (List.cons_ne_nil _ _)
  rwa [List.intercalate_singleton] at hsplit

theorem under_of_ne {path : String} (hpath : path ≠ "") (label : String) :
    Slot.under path label = path ++ "." ++ label := by
  rw [Slot.under, if_neg]
  simpa using hpath

theorem pathOf_ne_empty {path : String} (hpath : path ≠ "") (way : List String) :
    pathOf path way ≠ "" := by
  induction way generalizing path with
  | nil => exact hpath
  | cons label way ih =>
    refine ih ?_
    rw [under_of_ne hpath]
    simp

theorem pieces_pathOf {path : String} (hpath : path ≠ "") (way : List String) :
    pieces (pathOf path way) = pieces path ++ way.flatMap pieces := by
  induction way generalizing path with
  | nil => simp [pathOf]
  | cons label way ih =>
    have hunder := under_of_ne hpath label
    rw [pathOf, List.foldl_cons, ← pathOf, ih (by rw [hunder]; simp), hunder, pieces_dotted,
      List.flatMap_cons, List.append_assoc]

variable {parts : List (String × InterfaceType)}

/-- Where labels are steady beside each other, ways of the same pieces are the same. -/
theorem eq_of_flatMap_pieces (hsteady : Steady (parts.map (·.1)))
    (hinside : ∀ x ∈ parts, ∀ w ∈ x.2.ways, ∀ w' ∈ x.2.ways,
      w.flatMap pieces = w'.flatMap pieces → w = w')
    {w w' : List String} (hw : w ∈ waysInto parts) (hw' : w' ∈ waysInto parts)
    (h : w.flatMap pieces = w'.flatMap pieces) : w = w' := by
  rw [waysInto, List.mem_cons, List.mem_flatMap] at hw hw'
  rcases hw with rfl | ⟨x, hx, hw⟩ <;> rcases hw' with rfl | ⟨y, hy, hw'⟩
  · rfl
  · obtain ⟨v', -, rfl⟩ := List.mem_map.1 hw'
    exact absurd (List.append_eq_nil_iff.1 h.symm).1 (pieces_ne_nil _)
  · obtain ⟨v, -, rfl⟩ := List.mem_map.1 hw
    exact absurd (List.append_eq_nil_iff.1 h).1 (pieces_ne_nil _)
  · obtain ⟨v, hv, rfl⟩ := List.mem_map.1 hw
    obtain ⟨v', hv', rfl⟩ := List.mem_map.1 hw'
    obtain ⟨n, heven⟩ := hsteady.even
    have hlength : (pieces x.1).length = (pieces y.1).length :=
      (heven _ (List.mem_map_of_mem hx)).trans (heven _ (List.mem_map_of_mem hy)).symm
    rw [List.flatMap_cons, List.flatMap_cons] at h
    obtain ⟨hlabel, hrest⟩ := List.append_inj h hlength
    obtain rfl : x = y := List.inj_on_of_nodup_map hsteady.nodup hx hy (pieces_inj hlabel)
    rw [hinside x hx v hv v' hv' hrest]

theorem eq_of_mem_ways {t : InterfaceType}
    (h : ∀ u, t.Contains u → Steady (u.children.map (·.1))) :
    ∀ w ∈ t.ways, ∀ w' ∈ t.ways, w.flatMap pieces = w'.flatMap pieces → w = w' := by
  induction t using InterfaceType.parts_induction with
  | h t ih =>
    rw [InterfaceType.ways_eq]
    intro w hw w' hw'
    refine eq_of_flatMap_pieces (h t .refl) (fun x hx => ?_) hw hw'
    have hpart : x.2 ∈ t.parts := List.mem_map_of_mem hx
    exact ih x.2 hpart fun u hu => h u (InterfaceType.contains_iff.2 (.inr ⟨_, hpart, hu⟩))

/-- Where labels are steady beside each other and those outside are not empty, a spelling tells its
way. -/
theorem pathOf_inj (hsteady : Steady (parts.map (·.1))) (hnonempty : ∀ x ∈ parts, x.1 ≠ "")
    (hinside : ∀ x ∈ parts, ∀ u, x.2.Contains u → Steady (u.children.map (·.1)))
    {w w' : List String} (hw : w ∈ waysInto parts) (hw' : w' ∈ waysInto parts)
    (h : pathOf "" w = pathOf "" w') : w = w' := by
  have hpieces : ∀ w ∈ waysInto parts, w ≠ [] →
      pathOf "" w ≠ "" ∧ pieces (pathOf "" w) = w.flatMap pieces := by
    intro w hw hne
    obtain ⟨x, hx, hw⟩ := List.mem_flatMap.1 ((List.mem_cons.1 hw).resolve_left hne)
    obtain ⟨v, -, rfl⟩ := List.mem_map.1 hw
    exact ⟨pathOf_ne_empty (hnonempty x hx) v, pieces_pathOf (hnonempty x hx) v⟩
  by_cases hne : w = [] <;> by_cases hne' : w' = []
  · rw [hne, hne']
  · rw [hne] at h
    exact absurd h.symm (hpieces w' hw' hne').1
  · rw [hne'] at h
    exact absurd h (hpieces w hw hne).1
  · refine eq_of_flatMap_pieces hsteady (fun x hx => eq_of_mem_ways (hinside x hx)) hw hw' ?_
    rw [← (hpieces w hw hne).2, ← (hpieces w' hw' hne').2, h]

end Spelling

section Labels

theorem exists_of_mem_numbered {label : Nat → String} {first : Nat} {ts : List InterfaceType}
    {x : String × InterfaceType} (h : x ∈ InterfaceType.numbered label first ts) :
    ∃ i, first ≤ i ∧ x.1 = label i := by
  induction ts generalizing first with
  | nil => simp [InterfaceType.numbered] at h
  | cons t ts ih =>
    rw [InterfaceType.numbered, List.mem_cons] at h
    rcases h with rfl | h
    · exact ⟨first, le_rfl, rfl⟩
    · obtain ⟨i, hi, hx⟩ := ih h
      exact ⟨i, by omega, hx⟩

theorem nodup_numbered {label : Nat → String} (hlabel : label.Injective) (first : Nat)
    (ts : List InterfaceType) : ((InterfaceType.numbered label first ts).map (·.1)).Nodup := by
  induction ts generalizing first with
  | nil => exact .nil
  | cons t ts ih =>
    rw [InterfaceType.numbered, List.map_cons, List.nodup_cons]
    refine ⟨fun hmem => ?_, ih (first + 1)⟩
    obtain ⟨x, hx, hfirst⟩ := List.mem_map.1 hmem
    obtain ⟨i, hi, hx⟩ := exists_of_mem_numbered hx
    have := hlabel (hfirst.symm.trans hx)
    omega

theorem toString_injective : (fun n : Nat => toString n).Injective := by
  intro m n h
  have hdigits : Nat.toDigits 10 m = Nat.toDigits 10 n := by
    simpa [Nat.toString_eq_repr, Nat.toList_repr] using congrArg String.toList h
  have hvalue := congrArg (Nat.ofDigitChars 10 · 0) hdigits
  simpa only [Nat.ofDigitChars_toDigits (show 1 < 10 by decide) (by decide)] using hvalue

theorem not_dot_mem_toString (n : Nat) : '.' ∉ (toString n).toList := by
  intro h
  have hdigit := Nat.isDigit_of_mem_toDigits (b := 10) (n := n) (by decide) (by decide)
    (show '.' ∈ Nat.toDigits 10 n by simpa using h)
  exact absurd hdigit (by decide)

/-- The label of a parameter of a callback. -/
def argumentLabel (i : Nat) : String := "arg" ++ toString i

theorem argumentLabel_injective : argumentLabel.Injective := by
  intro i j h
  refine toString_injective ?_
  simpa [argumentLabel] using h

theorem pieces_argumentLabel (i : Nat) : (pieces (argumentLabel i)).length = 1 := by
  rw [pieces_of_dotless, List.length_singleton]
  rw [argumentLabel, String.toList_append, List.mem_append, not_or]
  exact ⟨by decide, not_dot_mem_toString i⟩

theorem eq_of_mem_failureParts {failure : Failure InterfaceType} {label : String}
    (h : label ∈ (InterfaceType.failureParts failure).map (·.1)) : label = "error" := by
  cases failure <;> simp_all [InterfaceType.failureParts]

/-- The labels of a signature are distinct when those of its parameters are, and differ from those
of what the function returns. -/
theorem nodup_signature_iff {labels : List String} {failure : Failure InterfaceType} :
    (labels ++ "return" :: (InterfaceType.failureParts failure).map (·.1)).Nodup ↔
      labels.Nodup ∧ "return" ∉ labels ∧ ((∃ e, failure = .typed e) → "error" ∉ labels) := by
  have hreturn : ∀ {behind : List String}, "return" ∉ behind → behind.Nodup →
      ((labels ++ "return" :: behind).Nodup ↔
        labels.Nodup ∧ "return" ∉ labels ∧ ∀ label ∈ behind, label ∉ labels) := by
    intro behind hnot hbehind
    rw [List.nodup_append', List.nodup_cons, List.disjoint_cons_right]
    simp only [hnot, hbehind, not_false_eq_true, and_self, true_and, List.Disjoint]
    exact and_congr_right fun _ => and_congr_right fun _ =>
      ⟨fun h label hb hl => h hl hb, fun h label hl hb => h label hb hl⟩
  cases failure with
  | never | untyped => simpa [InterfaceType.failureParts] using hreturn List.not_mem_nil .nil
  | typed e =>
    simpa [InterfaceType.failureParts] using
      hreturn (show "return" ∉ ["error"] by decide) (List.nodup_singleton _)

namespace InterfaceType

variable {t : InterfaceType}

/-- Labels beside each other hold equally many dots when the names that they are made of hold
none. -/
theorem even_labels (h : ∀ name ∈ t.names, '.' ∉ name.toList) :
    ∃ n, ∀ label ∈ t.children.map (·.1), (pieces label).length = n := by
  cases t with
  | primitive | text | handle => exact ⟨0, by simp [children]⟩
  | pointer target nullable holding mutable =>
    exact ⟨1, by simp [children, pieces_of_dotless (show '.' ∉ "*".toList by decide)]⟩
  | buffer element holding | array element holding length =>
    exact ⟨1, by simp [children, pieces_of_dotless (show '.' ∉ "[]".toList by decide)]⟩
  | record name fs =>
    refine ⟨1, fun label hlabel => ?_⟩
    rw [children, List.map_map] at hlabel
    rw [pieces_of_dotless (h label hlabel), List.length_singleton]
  | taggedUnion name vs =>
    refine ⟨2, fun label hlabel => ?_⟩
    obtain ⟨x, hx, rfl⟩ := List.mem_map.1 hlabel
    obtain ⟨v, hv, hx⟩ := List.mem_flatMap.1 hx
    obtain ⟨f, hf, rfl⟩ := List.mem_map.1 hx
    have hvariant : v.name ∈ names (.taggedUnion name vs) :=
      List.mem_flatMap.2 ⟨v, hv, List.mem_cons_self⟩
    have hfield : f.name ∈ names (.taggedUnion name vs) :=
      List.mem_flatMap.2 ⟨v, hv, .tail _ (List.mem_map_of_mem hf)⟩
    rw [pieces_dotted, pieces_of_dotless (h _ hvariant), pieces_of_dotless (h _ hfield)]
    rfl
  | function params ret failure holding =>
    refine ⟨1, fun label hlabel => ?_⟩
    rw [children, List.map_append, List.mem_append, List.map_cons, List.mem_cons] at hlabel
    rcases hlabel with hlabel | rfl | hlabel
    · obtain ⟨x, hx, rfl⟩ := List.mem_map.1 hlabel
      obtain ⟨i, -, hi⟩ := exists_of_mem_numbered hx
      rw [hi]
      exact pieces_argumentLabel i
    · rw [pieces_of_dotless (show '.' ∉ "return".toList by decide), List.length_singleton]
    · obtain rfl := eq_of_mem_failureParts hlabel
      rw [pieces_of_dotless (show '.' ∉ "error".toList by decide), List.length_singleton]

theorem label_ne_empty (h : ∀ name ∈ t.names, name ≠ "") :
    ∀ label ∈ t.children.map (·.1), label ≠ "" := by
  intro label hlabel
  cases t with
  | primitive | text | handle => cases hlabel
  | pointer | buffer | array =>
    rw [List.mem_singleton.1 hlabel]
    simp
  | record name fs =>
    rw [children, List.map_map] at hlabel
    exact h label hlabel
  | taggedUnion name vs =>
    obtain ⟨x, hx, rfl⟩ := List.mem_map.1 hlabel
    obtain ⟨v, -, hx⟩ := List.mem_flatMap.1 hx
    obtain ⟨f, -, rfl⟩ := List.mem_map.1 hx
    simp
  | function params ret failure holding =>
    rw [children, List.map_append, List.mem_append, List.map_cons, List.mem_cons] at hlabel
    rcases hlabel with hlabel | rfl | hlabel
    · obtain ⟨x, hx, rfl⟩ := List.mem_map.1 hlabel
      obtain ⟨i, -, hi⟩ := exists_of_mem_numbered hx
      simp [hi]
    · simp
    · simp [eq_of_mem_failureParts hlabel]

/-- The labels of a callback are distinct in any case, and so is a label that stands alone. -/
theorem nodup_labels (h : t.kind ≠ .record ∧ t.kind ≠ .taggedUnion) :
    (t.children.map (·.1)).Nodup := by
  cases t with
  | primitive | text | handle => exact .nil
  | pointer | buffer | array => exact List.nodup_singleton _
  | record => exact absurd rfl h.1
  | taggedUnion => exact absurd rfl h.2
  | function params ret failure holding =>
    have hother : ∀ {label : String}, label.toList.head? ≠ some 'a' →
        label ∉ (numbered argumentLabel 0 params).map (·.1) := by
      intro label hhead hmem
      obtain ⟨x, hx, rfl⟩ := List.mem_map.1 hmem
      obtain ⟨i, -, hi⟩ := exists_of_mem_numbered hx
      exact hhead (by rw [hi, argumentLabel, String.toList_append]; rfl)
    rw [children, List.map_append, List.map_cons, nodup_signature_iff]
    exact ⟨nodup_numbered argumentLabel_injective 0 params, hother (by decide),
      fun _ => hother (by decide)⟩

end InterfaceType

end Labels

end Crossing
