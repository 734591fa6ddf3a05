import Mathlib
import Crossing.Identifier.Style

/-!
# Snake case tells the words apart

The words of an identifier are not empty, and no underscore is in one (`mem_words`). So the
snake case of an identifier tells what its words are, and nothing else about it
(`toSnake_eq_iff`).
-/

namespace Crossing

namespace Text

variable {sep : Char → Bool} {s : List Char}

theorem mem_runsFrom (sep : Char → Bool) (s : List Char) :
    (∀ c ∈ (runsFrom sep s).1, sep c = false) ∧
      ∀ run ∈ (runsFrom sep s).2, run ≠ [] ∧ ∀ c ∈ run, sep c = false := by
  induction s with
  | nil => simp [runsFrom]
  | cons c rest ih =>
    obtain ⟨hrun, hothers⟩ := ih
    unfold runsFrom
    simp only
    split
    · refine ⟨by simp, ?_⟩
      split
      · exact hothers
      · rename_i hempty
        exact List.forall_mem_cons.2 ⟨⟨by simpa using hempty, hrun⟩, hothers⟩
    · rename_i hsep
      exact ⟨List.forall_mem_cons.2 ⟨by simpa using hsep, hrun⟩, hothers⟩

/-- A run is not empty, and no separator is in it. -/
theorem mem_runs {run : List Char} (h : run ∈ runs sep s) :
    run ≠ [] ∧ ∀ c ∈ run, sep c = false := by
  obtain ⟨hrun, hothers⟩ := mem_runsFrom sep s
  unfold runs at h
  simp only at h
  split at h
  · exact hothers run h
  · rename_i hempty
    rcases List.mem_cons.1 h with rfl | h
    · exact ⟨by simpa using hempty, hrun⟩
    · exact hothers run h

/-- No shift of a table reaches a point. -/
def misses (table : List Shift) (point : Nat) : Bool :=
  table.all fun s => !s.contains (point - s.distance).toNat

theorem shifted_ne {table : List Shift} {c target : Char} (hc : c ≠ target)
    (h : misses table target.toNat = true) (htarget : target.toNat ≠ 0) :
    shifted table c ≠ target := by
  unfold shifted
  split
  · rename_i s hs
    intro heq
    have hpoint := congrArg Char.toNat heq
    rw [Char.toNat_ofNat] at hpoint
    split at hpoint
    -- The character would be the target moved back, which no shift has.
    · have hback : ((target.toNat : Int) - s.distance).toNat = c.toNat := by omega
      have hmisses := List.all_eq_true.1 h s (List.mem_of_find?_eq_some hs)
      rw [hback, List.find?_some hs] at hmisses
      cases hmisses
    · exact htarget hpoint.symm
  · exact hc

theorem misses_underscore : misses toLowerShifts '_'.toNat = true := by
  decide

theorem lowerOf_ne_nil (c : Char) : lowerOf c ≠ [] := by
  unfold lowerOf
  split
  · simp
  · split <;> simp

/-- The small form of another character has no underscore. -/
theorem not_mem_lowerOf {c : Char} (hc : c ≠ '_') : '_' ∉ lowerOf c := by
  unfold lowerOf
  split
  · split
    · rename_i hupper
      simp only [isAsciiUpper, Bool.and_eq_true, decide_eq_true_eq] at hupper
      intro hmem
      have hpoint := congrArg Char.toNat (List.mem_singleton.1 hmem).symm
      rw [Char.toNat_ofNat, if_pos (.inl (by omega))] at hpoint
      have h95 : '_'.toNat = 95 := rfl
      omega
    · simpa using Ne.symm hc
  · split
    · decide
    · intro hmem
      exact shifted_ne hc misses_underscore (by decide) (List.mem_singleton.1 hmem).symm

theorem not_mem_lowerAfter {before s : List Char} (h : '_' ∉ s) : '_' ∉ lowerAfter before s := by
  induction s generalizing before with
  | nil => exact h
  | cons c rest ih =>
    rw [List.mem_cons, not_or] at h
    rw [lowerAfter, List.mem_append, not_or]
    refine ⟨?_, ih h.2⟩
    split
    · split <;> decide
    · exact not_mem_lowerOf (Ne.symm h.1)

theorem lower_ne_nil {s : List Char} (h : s ≠ []) : lower s ≠ [] := by
  cases s with
  | nil => exact absurd rfl h
  | cons c rest =>
    rw [lower, lowerAfter]
    refine List.append_ne_nil_of_left_ne_nil ?_ _
    split
    · simp
    · exact lowerOf_ne_nil c

end Text

namespace Identifier

variable {name name' : List Char}

theorem mem_cutAfter (before : Char) (s : List Char) :
    (∀ c ∈ (cutAfter before s).1, c ∈ s) ∧
      ∀ word ∈ (cutAfter before s).2, word ≠ [] ∧ ∀ c ∈ word, c ∈ s := by
  induction s generalizing before with
  | nil => simp [cutAfter]
  | cons c rest ih =>
    obtain ⟨hword, hothers⟩ := ih c
    have hfirst : ∀ d ∈ c :: (cutAfter c rest).1, d ∈ c :: rest := fun d hd =>
      (List.mem_cons.1 hd).elim (· ▸ List.mem_cons_self) fun hd => .tail _ (hword d hd)
    have hlater : ∀ word ∈ (cutAfter c rest).2, word ≠ [] ∧ ∀ d ∈ word, d ∈ c :: rest :=
      fun word h => ⟨(hothers word h).1, fun d hd => .tail _ ((hothers word h).2 d hd)⟩
    unfold cutAfter
    simp only
    split
    · exact ⟨by simp, List.forall_mem_cons.2 ⟨⟨by simp, hfirst⟩, hlater⟩⟩
    · exact ⟨hfirst, hlater⟩

/-- The words of a text without separators are not empty, and made of its characters. -/
theorem mem_cut {s word : List Char} (h : word ∈ cut s) : word ≠ [] ∧ ∀ c ∈ word, c ∈ s := by
  cases s with
  | nil => simp [cut] at h
  | cons c rest =>
    obtain ⟨hword, hothers⟩ := mem_cutAfter c rest
    rw [cut] at h
    rcases List.mem_cons.1 h with rfl | h
    · refine ⟨by simp, fun d hd => ?_⟩
      exact (List.mem_cons.1 hd).elim (· ▸ List.mem_cons_self) fun hd => .tail _ (hword d hd)
    · exact ⟨(hothers word h).1, fun d hd => .tail _ ((hothers word h).2 d hd)⟩

/-- A word is not empty, and no underscore is in it. -/
theorem mem_words {word : List Char} (h : word ∈ words name) : word ≠ [] ∧ '_' ∉ word := by
  obtain ⟨spelled, hspelled, rfl⟩ := List.mem_map.1 h
  obtain ⟨run, hrun, hspelled⟩ := List.mem_flatMap.1 hspelled
  obtain ⟨hne, hsub⟩ := mem_cut hspelled
  refine ⟨Text.lower_ne_nil hne, Text.not_mem_lowerAfter fun hmem => ?_⟩
  have hsep := (Text.mem_runs hrun).2 _ (hsub _ hmem)
  simp [isSeparator] at hsep

/-- Texts, at least one, with a separator between them that is in none of them can be told apart. -/
theorem joined_inj_of_ne_nil {sep : Char} {ws vs : List (List Char)} (hws : ∀ w ∈ ws, sep ∉ w)
    (hvs : ∀ v ∈ vs, sep ∉ v) (hw : ws ≠ []) (hv : vs ≠ [])
    (h : joined [sep] ws = joined [sep] vs) : ws = vs := by
  rw [← List.splitOn_intercalate sep hws hw, ← List.splitOn_intercalate sep hvs hv]
  exact congrArg (List.splitOn sep) h

/-- Words with a separator between them that is in none of them can be told apart. -/
theorem joined_inj {sep : Char} {ws vs : List (List Char)} (hws : ∀ w ∈ ws, w ≠ [] ∧ sep ∉ w)
    (hvs : ∀ v ∈ vs, v ≠ [] ∧ sep ∉ v) (h : joined [sep] ws = joined [sep] vs) : ws = vs := by
  have hempty : ∀ {us : List (List Char)}, (∀ u ∈ us, u ≠ [] ∧ sep ∉ u) →
      joined [sep] us = [] → us = [] := by
    intro us hus hnil
    by_contra hne
    -- Words joined to nothing would be one empty word.
    have hblank : us = [[]] :=
      joined_inj_of_ne_nil (fun u hu => (hus u hu).2) (by simp) hne (by simp) hnil
    exact (hus [] (hblank ▸ List.mem_singleton_self _)).1 rfl
  by_cases hw : ws = []
  · subst hw
    exact (hempty hvs h.symm).symm
  · have hv : vs ≠ [] := by
      rintro rfl
      exact hw (hempty hws h)
    exact joined_inj_of_ne_nil (fun w h => (hws w h).2) (fun v h => (hvs v h).2) hw hv h

/-- The snake case of an identifier tells what its words are. -/
theorem toSnake_eq_iff : toSnake name = toSnake name' ↔ words name = words name' :=
  ⟨joined_inj (fun _ => mem_words) (fun _ => mem_words), fun h => by rw [toSnake, toSnake, h]⟩

end Identifier

end Crossing
