import Mathlib
import Crossing.QualifiedName

/-!
# Splitting and joining qualified names

Joining the parts that a name splits into gives the name back (`join_split`), whatever it holds. The
first part is what stands before the first separator, if no colon stands there
(`split_join_cons`). A name determines the parts that it was joined of when none of them holds a
separator or begins with a colon (`join_inj`), and then it ends only in parts
(`exists_append_of_join`).
-/

namespace Crossing.QualifiedName

theorem splitChars_ne_nil (cs : List Char) : splitChars cs ≠ [] := by
  unfold splitChars
  split
  · simp
  · simp
  · split <;> simp

theorem intercalate_splitChars (cs : List Char) :
    "::".toList.intercalate (splitChars cs) = cs := by
  induction cs using splitChars.induct with
  | case1 => rfl
  | case2 rest ih =>
    rw [splitChars, List.intercalate_cons_of_ne_nil (splitChars_ne_nil _), ih]
    rfl
  | case3 c rest hsep hnil ih => exact absurd hnil (splitChars_ne_nil _)
  | case4 c rest hsep part parts hparts ih =>
    rw [splitChars, hparts]
    · rw [hparts] at ih
      rw [List.intercalate_cons_cons_left, ih]
    · exact hsep

theorem join_split (name : String) : join (split name) = name := by
  refine String.toList_inj.1 ?_
  rw [join, split, String.toList_intercalate, List.map_map]
  have hid : (String.toList ∘ String.ofList) = id := by
    funext cs
    exact String.toList_ofList
  rw [hid, List.map_id, intercalate_splitChars]

theorem splitChars_append_separator {cs : List Char} (h : ':' ∉ cs) (rest : List Char) :
    splitChars (cs ++ ':' :: ':' :: rest) = cs :: splitChars rest := by
  induction cs with
  | nil => rw [List.nil_append, splitChars]
  | cons c cs ih =>
    rw [List.mem_cons, not_or] at h
    rw [List.cons_append, splitChars, ih h.2]
    rintro rest' rfl
    exact absurd rfl h.1

/-- The first part of a joined name, when no colon stands in it. -/
theorem split_join_cons {root : String} (h : ':' ∉ root.toList) {parts : List String}
    (hne : parts ≠ []) : split (join (root :: parts)) = root :: split (join parts) := by
  have hlist : (join (root :: parts)).toList
      = root.toList ++ ':' :: ':' :: (join parts).toList := by
    rw [join, String.intercalate_cons_of_ne_nil hne]
    simp [join]
  rw [split, hlist, splitChars_append_separator h, List.map_cons, String.ofList_toList, split]

/-- A name that can stand between separators: it holds none, and it does not begin with a colon,
which would make one with the separator before it. -/
structure IsPart (part : String) : Prop where
  whole : ¬ [':', ':'] <:+: part.toList
  opening : part.toList.head? ≠ some ':'

instance (part : String) : Decidable (IsPart part) :=
  decidable_of_iff (¬ [':', ':'] <:+: part.toList ∧ part.toList.head? ≠ some ':')
    ⟨fun h => ⟨h.1, h.2⟩, fun h => ⟨h.whole, h.opening⟩⟩

theorem toList_join_concat {parts : List String} (hne : parts ≠ []) (part : String) :
    (join (parts ++ [part])).toList = (join parts).toList ++ ':' :: ':' :: part.toList := by
  rw [join, String.intercalate_append_of_ne_nil hne (List.cons_ne_nil _ _)]
  simp [join]

/-- The last part of a name begins behind the last place where a separator can stand. -/
theorem eq_nil_of_part {before behind : List Char} {part : String} (h : IsPart part)
    (heq : ':' :: ':' :: part.toList = before ++ ':' :: ':' :: behind) : before = [] := by
  match before with
  | [] => rfl
  | [c] =>
    simp only [List.singleton_append, List.cons.injEq] at heq
    exact absurd (by rw [heq.2.2]; rfl) h.opening
  | c :: d :: before =>
    simp only [List.cons_append, List.cons.injEq] at heq
    exact absurd ⟨before, behind, by rw [heq.2.2]; simp⟩ h.whole

theorem eq_of_append_separator {xs ys : List Char} {p q : String} (hp : IsPart p) (hq : IsPart q)
    (h : xs ++ ':' :: ':' :: p.toList = ys ++ ':' :: ':' :: q.toList) : xs = ys ∧ p = q := by
  rcases List.append_eq_append_iff.1 h with ⟨zs, rfl, hzs⟩ | ⟨zs, rfl, hzs⟩
  · obtain rfl := eq_nil_of_part hp hzs
    exact ⟨(List.append_nil _).symm, String.toList_inj.1 (by simpa using hzs)⟩
  · obtain rfl := eq_nil_of_part hq hzs
    exact ⟨List.append_nil _, String.toList_inj.1 (by simpa using hzs.symm)⟩

theorem ne_append_separator {xs rest : List Char} {p : String} (hp : IsPart p) :
    p.toList ≠ xs ++ ':' :: ':' :: rest := by
  intro h
  exact hp.whole ⟨xs, rest, by simp [h]⟩

@[simp]
theorem join_singleton (part : String) : join [part] = part := String.intercalate_singleton

/-- A name determines its parts. -/
theorem join_inj {ps qs : List String} (hp : ∀ p ∈ ps, IsPart p) (hq : ∀ q ∈ qs, IsPart q)
    (hps : ps ≠ []) (hqs : qs ≠ []) (h : join ps = join qs) : ps = qs := by
  induction ps using List.reverseRecOn generalizing qs with
  | nil => exact absurd rfl hps
  | append_singleton ps p ih =>
    obtain ⟨qs, q, rfl⟩ := (List.eq_nil_or_concat' qs).resolve_left hqs
    rw [List.forall_mem_append, List.forall_mem_singleton] at hp hq
    have hchars := congrArg String.toList h
    by_cases hlone : ps = [] <;> by_cases hlone' : qs = []
    · simpa [hlone, hlone'] using h
    · rw [toList_join_concat hlone', hlone, List.nil_append, join_singleton] at hchars
      exact absurd hchars (ne_append_separator hp.2)
    · rw [toList_join_concat hlone, hlone', List.nil_append, join_singleton] at hchars
      exact absurd hchars.symm (ne_append_separator hq.2)
    · rw [toList_join_concat hlone, toList_join_concat hlone'] at hchars
      obtain ⟨hjoin, rfl⟩ := eq_of_append_separator hp.2 hq.2 hchars
      rw [ih hp.1 hq.1 hlone hlone' (String.toList_inj.1 hjoin)]

/-- A name that ends in a separator and another name has the parts of the other at its end. -/
theorem exists_append_of_join {ps names : List String} (hp : ∀ p ∈ ps, IsPart p)
    (hnames : ∀ q ∈ names, IsPart q) (hne : names ≠ []) {before : List Char}
    (h : (join ps).toList = before ++ ':' :: ':' :: (join names).toList) :
    ∃ around, around ≠ [] ∧ ps = around ++ names := by
  induction names using List.reverseRecOn generalizing ps with
  | nil => exact absurd rfl hne
  | append_singleton names q ih =>
    rw [List.forall_mem_append, List.forall_mem_singleton] at hnames
    obtain rfl | ⟨ps, p, rfl⟩ := List.eq_nil_or_concat' ps
    · simp [join] at h
    rw [List.forall_mem_append, List.forall_mem_singleton] at hp
    by_cases hps : ps = []
    · rw [hps, List.nil_append, join_singleton] at h
      exact absurd h (ne_append_separator hp.2)
    rw [toList_join_concat hps] at h
    by_cases hlone : names = []
    · rw [hlone, List.nil_append, join_singleton] at h
      obtain ⟨-, rfl⟩ := eq_of_append_separator hp.2 hnames.2 h
      exact ⟨ps, hps, by rw [hlone, List.nil_append]⟩
    · rw [toList_join_concat hlone, ← List.cons_append, ← List.cons_append,
        ← List.append_assoc] at h
      obtain ⟨hjoin, rfl⟩ := eq_of_append_separator hp.2 hnames.2 h
      obtain ⟨around, haround, heq⟩ := ih hp.1 hnames.1 hlone hjoin
      exact ⟨around, haround, by rw [heq, List.append_assoc]⟩

end Crossing.QualifiedName
