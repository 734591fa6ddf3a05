import Mathlib
import Crossing.Proofs.Identifier.Words

/-!
# Snake case keeps the words

The words of an ASCII identifier are made of its characters between the separators, in small letters
(`exists_of_mem_words`). Small letters begin no word inside a word and are as they are in small
letters (`IsSettled`), so words of them are read back as they were joined (`words_joined`). Hence the
snake case of an identifier has the words of the identifier, and every conversion gives the same
for both (`words_toSnake`). Where the words are made of letters and digits, it is snake case.
-/

namespace Crossing

namespace Text

section Runs

variable {sep : Char → Bool} {c : Char} {run rest s : List Char}

/-- The runs hold what is no separator, in order. -/
theorem flatten_runs (sep : Char → Bool) (s : List Char) :
    (runs sep s).flatten = s.filter fun c => !sep c := by
  have hfrom : (runsFrom sep s).1 ++ (runsFrom sep s).2.flatten = s.filter fun c => !sep c := by
    induction s with
    | nil => rfl
    | cons c rest ih =>
      rw [runsFrom]
      by_cases hsep : sep c <;> simp only [hsep, ↓reduceIte, Bool.false_eq_true]
      · rw [List.filter_cons_of_neg (by simp [hsep]), ← ih]
        split <;> simp_all
      · rw [List.filter_cons_of_pos (by simp [hsep]), ← ih, List.cons_append]
  rw [runs, ← hfrom]
  simp only
  split <;> simp_all

theorem runsFrom_append (hrun : ∀ d ∈ run, sep d = false) :
    runsFrom sep (run ++ rest) = (run ++ (runsFrom sep rest).1, (runsFrom sep rest).2) := by
  induction run with
  | nil => rfl
  | cons d run ih =>
    rw [List.forall_mem_cons] at hrun
    rw [List.cons_append, runsFrom, ih hrun.2]
    simp [hrun.1]

theorem runs_of_clean (hne : run ≠ []) (hrun : ∀ d ∈ run, sep d = false) :
    runs sep run = [run] := by
  have hfrom : runsFrom sep (run ++ []) = (run, []) := by
    rw [runsFrom_append hrun, runsFrom, List.append_nil]
  rw [List.append_nil] at hfrom
  rw [runs, hfrom]
  simp [hne]

/-- A separator behind a run ends it. -/
theorem runs_append_cons (hne : run ≠ []) (hrun : ∀ d ∈ run, sep d = false) (hc : sep c = true) :
    runs sep (run ++ c :: rest) = run :: runs sep rest := by
  rw [runs, runsFrom_append hrun, runsFrom]
  simp [hc, hne, runs]

end Runs

/-- Without a sigma, each character has a small form of its own. -/
theorem lower_eq_flatMap {s : List Char} (h : 'Σ' ∉ s) : lower s = s.flatMap lowerOf := by
  have hafter : ∀ before, lowerAfter before s = s.flatMap lowerOf := by
    induction s with
    | nil => exact fun _ => rfl
    | cons c rest ih =>
      intro before
      rw [List.mem_cons, not_or] at h
      rw [lowerAfter, if_neg (Ne.symm h.1), ih h.2, List.flatMap_cons]
  exact hafter []

theorem lowerOf_of_ascii {c : Char} (h : c.toNat < 128) :
    lowerOf c = [if isAsciiUpper c then Char.ofNat (c.toNat + 32) else c] := if_pos h

end Text

namespace Identifier

/-- A character that stays in its word and is as it is when the word is read again. -/
structure IsSettled (c : Char) : Prop where
  small : Text.isUpper c = false
  lower : Text.lowerOf c = [c]
  inside : isSeparator c = false

theorem IsSettled.ne_sigma {c : Char} (h : IsSettled c) : 'Σ' ≠ c := by
  rintro rfl
  exact absurd h.small (by decide)

section Reading

variable {ws : List (List Char)} {word s : List Char}

/-- Nothing but a capital begins a word inside a text. -/
theorem cut_of_small (hne : s ≠ []) (h : ∀ c ∈ s, Text.isUpper c = false) : cut s = [s] := by
  have hafter : ∀ (rest : List Char) before, (∀ c ∈ rest, Text.isUpper c = false) →
      cutAfter before rest = (rest, []) := by
    intro rest
    induction rest with
    | nil => exact fun _ _ => rfl
    | cons c rest ih =>
      intro before hrest
      rw [List.forall_mem_cons] at hrest
      rw [cutAfter, ih c hrest.2]
      simp [startsWord, hrest.1]
  cases s with
  | nil => exact absurd rfl hne
  | cons c rest => rw [cut, hafter rest c (List.forall_mem_cons.1 h).2]

theorem lower_of_settled (h : ∀ c ∈ word, IsSettled c) : Text.lower word = word := by
  rw [Text.lower_eq_flatMap fun hmem => (h _ hmem).ne_sigma rfl,
    List.flatMap_congr fun c hc => (h c hc).lower, List.flatMap_singleton']

theorem runs_joined (h : ∀ w ∈ ws, w ≠ [] ∧ ∀ c ∈ w, IsSettled c) :
    Text.runs isSeparator (joined ['_'] ws) = ws := by
  induction ws with
  | nil => rfl
  | cons w ws ih =>
    obtain ⟨⟨hne, hw⟩, hws⟩ := List.forall_mem_cons.1 h
    have hclean : ∀ c ∈ w, isSeparator c = false := fun c hc => (hw c hc).inside
    cases ws with
    | nil =>
      rw [joined, List.intercalate_singleton]
      exact Text.runs_of_clean hne hclean
    | cons v ws =>
      rw [joined, List.intercalate_cons_of_ne_nil (List.cons_ne_nil v ws), List.append_assoc,
        List.singleton_append, Text.runs_append_cons hne hclean rfl]
      exact congrArg _ (ih hws)

/-- Words of settled characters are read back as they were joined. -/
theorem words_joined (h : ∀ w ∈ ws, w ≠ [] ∧ ∀ c ∈ w, IsSettled c) :
    words (joined ['_'] ws) = ws := by
  have hcut : ws.flatMap cut = ws.flatMap fun w => [w] :=
    List.flatMap_congr fun w hw => cut_of_small (h w hw).1 fun c hc => ((h w hw).2 c hc).small
  rw [words, runs_joined h, hcut, List.flatMap_singleton']
  calc ws.map Text.lower = ws.map id := List.map_congr_left fun w hw => lower_of_settled (h w hw).2
    _ = ws := List.map_id ws

theorem isSnakeFrom_append {begun : Bool} (hne : word ≠ [])
    (h : ∀ c ∈ word, isSnakeChar c = true) :
    isSnakeFrom begun (word ++ s) = isSnakeFrom true s := by
  induction word generalizing begun with
  | nil => exact absurd rfl hne
  | cons c word ih =>
    rw [List.forall_mem_cons] at h
    rw [List.cons_append, isSnakeFrom, if_pos h.1]
    by_cases hnil : word = []
    · rw [hnil, List.nil_append]
    · exact ih hnil h.2

theorem mem_joined {separator : List Char} {c : Char} (h : c ∈ joined separator ws) :
    c ∈ separator ∨ ∃ w ∈ ws, c ∈ w := by
  induction ws with
  | nil => cases h
  | cons w ws ih =>
    by_cases hnil : ws = []
    · subst hnil
      exact .inr ⟨w, List.mem_cons_self, by simpa [joined] using h⟩
    · rw [joined, List.intercalate_cons_of_ne_nil hnil, List.mem_append, List.mem_append] at h
      rcases h with (h | h) | h
      · exact .inr ⟨w, List.mem_cons_self, h⟩
      · exact .inl h
      · exact (ih h).imp_right fun ⟨v, hv, hc⟩ => ⟨v, .tail _ hv, hc⟩

/-- Words of small letters and digits are in snake case when they are joined. -/
theorem isSnake_joined (hne : ws ≠ []) (h : ∀ w ∈ ws, w ≠ [] ∧ ∀ c ∈ w, isSnakeChar c = true) :
    isSnake (joined ['_'] ws) = true := by
  have hnewline : (joined ['_'] ws).getLast? ≠ some '\n' := by
    intro hlast
    rcases mem_joined (List.mem_of_getLast? hlast) with hmem | ⟨w, hw, hmem⟩
    · exact absurd hmem (by decide)
    · exact absurd ((h w hw).2 _ hmem) (by decide)
  rw [isSnake, dropNewline, if_neg hnewline]
  clear hnewline
  induction ws with
  | nil => exact absurd rfl hne
  | cons w ws ih =>
    obtain ⟨⟨hw, hsnake⟩, hws⟩ := List.forall_mem_cons.1 h
    cases ws with
    | nil =>
      rw [joined, List.intercalate_singleton, ← List.append_nil w]
      exact isSnakeFrom_append hw hsnake
    | cons v ws =>
      rw [joined, List.intercalate_cons_cons, List.append_assoc, isSnakeFrom_append hw hsnake]
      exact ih (List.cons_ne_nil v ws) hws

end Reading

section Letters

variable {c d : Char} {name word : List Char}

theorem isSettled_of_small (h : Text.isAsciiLower c = true) : IsSettled c := by
  simp only [Text.isAsciiLower, Bool.and_eq_true, decide_eq_true_eq] at h
  have hascii : c.toNat < 128 := by omega
  have hsmall : Text.isAsciiUpper c = false := by
    simp only [Text.isAsciiUpper, Bool.and_eq_false_iff, decide_eq_false_iff_not]
    omega
  refine ⟨?_, ?_, ?_⟩
  · rw [Text.isUpper, if_pos hascii, hsmall]
  · rw [Text.lowerOf_of_ascii hascii, hsmall]
    rfl
  · have hmark : c ≠ '_' ∧ c ≠ ':' := by
      constructor <;> rintro rfl <;> revert h <;> decide
    have hblank : Text.isBlank c = false := by
      simp only [Text.isBlank, hascii, if_true, Bool.or_eq_false_iff, Bool.and_eq_false_iff,
        decide_eq_false_iff_not]
      omega
    simp [isSeparator, hmark, hblank]

/-- The small form of an ASCII letter is a small letter; other ASCII characters are their own. -/
theorem lowerOf_cases (hd : d.toNat < 128) (hc : c ∈ Text.lowerOf d) :
    Text.isAsciiUpper d = true ∧ Text.isAsciiLower c = true ∨
      Text.isAsciiUpper d = false ∧ c = d := by
  rw [Text.lowerOf_of_ascii hd, List.mem_singleton] at hc
  cases hupper : Text.isAsciiUpper d with
  | false => exact .inr ⟨rfl, by simpa [hupper] using hc⟩
  | true =>
    refine .inl ⟨rfl, ?_⟩
    simp only [Text.isAsciiUpper, Bool.and_eq_true, decide_eq_true_eq] at hupper
    rw [if_pos (by simpa [Text.isAsciiUpper] using hupper)] at hc
    have hpoint := congrArg Char.toNat hc
    rw [Char.toNat_ofNat, if_pos (.inl (by omega))] at hpoint
    simp only [Text.isAsciiLower, hpoint, Bool.and_eq_true, decide_eq_true_eq]
    omega

theorem isSettled_of_lowerOf (hd : d.toNat < 128) (hinside : isSeparator d = false)
    (hc : c ∈ Text.lowerOf d) : IsSettled c := by
  rcases lowerOf_cases hd hc with ⟨-, hsmall⟩ | ⟨hsmall, rfl⟩
  · exact isSettled_of_small hsmall
  · refine ⟨?_, ?_, hinside⟩
    · rw [Text.isUpper, if_pos hd, hsmall]
    · rw [Text.lowerOf_of_ascii hd, hsmall]
      rfl

/-- The words hold the small forms of the characters between the separators. -/
theorem exists_of_mem_words (hname : 'Σ' ∉ name) (hword : word ∈ words name) (hc : c ∈ word) :
    ∃ d ∈ name, isSeparator d = false ∧ c ∈ Text.lowerOf d := by
  obtain ⟨spelled, hspelled, rfl⟩ := List.mem_map.1 hword
  obtain ⟨run, hrun, hspelled⟩ := List.mem_flatMap.1 hspelled
  have hinside : ∀ d ∈ spelled, d ∈ name ∧ isSeparator d = false := by
    intro d hd
    have hmem := List.mem_flatten_of_mem hrun ((mem_cut hspelled).2 d hd)
    rw [Text.flatten_runs] at hmem
    simpa using hmem
  rw [Text.lower_eq_flatMap fun hmem => hname (hinside _ hmem).1] at hc
  obtain ⟨d, hd, hc⟩ := List.mem_flatMap.1 hc
  exact ⟨d, (hinside d hd).1, (hinside d hd).2, hc⟩

theorem isSnakeChar_of_lowerOf (hd : Text.isAsciiLetter d = true ∨ Text.isAsciiDigit d = true)
    (hc : c ∈ Text.lowerOf d) : isSnakeChar c = true := by
  have hascii : d.toNat < 128 := by
    simp only [Text.isAsciiLetter, Text.isAsciiUpper, Text.isAsciiLower, Text.isAsciiDigit,
      Bool.or_eq_true, Bool.and_eq_true, decide_eq_true_eq] at hd
    omega
  rw [isSnakeChar, Bool.or_eq_true]
  rcases lowerOf_cases hascii hc with ⟨-, hsmall⟩ | ⟨hsmall, rfl⟩
  · exact .inl hsmall
  · simpa [Text.isAsciiLetter, hsmall] using hd

end Letters

/-- The snake case of an ASCII text has the words of the text, so that every conversion gives the same
for both. Of a text of ASCII letters and digits and of separators it is in snake case, unless there
are separators only and it is empty. -/
theorem words_toSnake (name : List Char) :
    ((∀ c ∈ name, c.toNat < 128) →
        words (toSnake name) = words name ∧ toSnake (toSnake name) = toSnake name
          ∧ toCamel (toSnake name) = toCamel name ∧ toPascal (toSnake name) = toPascal name)
      ∧ ((∀ c ∈ name, Text.isAsciiLetter c = true ∨ Text.isAsciiDigit c = true
          ∨ c = '_' ∨ c = ':' ∨ Text.isBlank c = true) →
        toSnake name = [] ∨ isSnake (toSnake name) = true) := by
  constructor
  · intro hascii
    have hsigma : 'Σ' ∉ name := fun h => absurd (hascii _ h) (by decide)
    have hwords : words (toSnake name) = words name := by
      refine words_joined fun word hword => ⟨(mem_words hword).1, fun c hc => ?_⟩
      obtain ⟨d, hd, hinside, hlower⟩ := exists_of_mem_words hsigma hword hc
      exact isSettled_of_lowerOf (hascii d hd) hinside hlower
    refine ⟨hwords, ?_, ?_, ?_⟩
    · exact congrArg (joined ['_']) hwords
    · unfold toCamel
      rw [hwords]
    · unfold toPascal
      rw [hwords]
  · intro hletters
    have hsigma : 'Σ' ∉ name := fun h => absurd (hletters _ h) (by decide)
    by_cases hnil : words name = []
    · exact .inl (congrArg (joined ['_']) hnil)
    · refine .inr (isSnake_joined hnil fun word hword => ⟨(mem_words hword).1, fun c hc => ?_⟩)
      obtain ⟨d, hd, hinside, hlower⟩ := exists_of_mem_words hsigma hword hc
      refine isSnakeChar_of_lowerOf ?_ hlower
      -- A separator is in no word, so the letters and digits are left.
      simp only [isSeparator, Bool.or_eq_false_iff, beq_eq_false_iff_ne] at hinside
      rcases hletters d hd with hletter | hdigit | hmark | hmark | hblank
      · exact .inl hletter
      · exact .inr hdigit
      · exact absurd hmark hinside.1.1
      · exact absurd hmark hinside.1.2
      · rw [hinside.2] at hblank
        cases hblank

/-- An acronym, a digit and three kinds of separators. -/
theorem words_toSnake_acronym :
    let name := ['a', ':', ':', 'H', 'T', 'T', 'P', 'G', 'o', '2', 'B', ' ', '_', 'x']
    let snake := ['a', '_', 'h', 't', 't', 'p', '_', 'g', 'o', '2', '_', 'b', '_', 'x']
    toSnake name = snake ∧ words snake = words name ∧ toSnake snake = snake
      ∧ toCamel snake = toCamel name ∧ toPascal snake = toPascal name ∧ isSnake snake = true := by
  intro name snake
  have hsnake : toSnake name = snake := by decide
  obtain ⟨hkeeps, hstyle⟩ := words_toSnake name
  rw [hsnake] at hkeeps hstyle
  obtain ⟨hwords, hagain, hcamel, hpascal⟩ := hkeeps (List.all_iff_forall_prop.1 (by decide))
  refine ⟨hsnake, hwords, hagain, hcamel, hpascal, ?_⟩
  exact (hstyle (List.all_iff_forall_prop.1 (by decide))).resolve_left nofun

end Identifier

end Crossing
