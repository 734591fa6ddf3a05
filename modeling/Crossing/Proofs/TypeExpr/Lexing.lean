import Crossing.TypeExpr.Token
import Mathlib.Data.List.TakeWhile

/-!
# Splitting a text into tokens

`Lexeme` says how the tokens are spelled and `Lexes` how a text is split into them: always the longest
spelling that the text goes on with, and blanks between the spellings. The scanner finds exactly these
tokens (`scan_eq_some_iff`).
-/

namespace Crossing

def Mark.spelling : Mark → List Char
  | .pathSep => [':', ':']
  | .arrow => ['-', '>']
  | .less => ['<']
  | .greater => ['>']
  | .comma => [',']
  | .semicolon => [';']
  | .plus => ['+']
  | .question => ['?']
  | .ampersand => ['&']
  | .star => ['*']
  | .bang => ['!']
  | .openParen => ['(']
  | .closeParen => [')']
  | .openBracket => ['[']
  | .closeBracket => [']']

namespace Token

/-- Letters, digits and underscores, of which the first is no digit. -/
def IsName (w : List Char) : Prop :=
  ∃ c cs, w = c :: cs ∧ isNameStart c = true ∧ ∀ d ∈ cs, isNameChar d = true

/-- The spellings of the tokens. A name that spells a keyword is the keyword. -/
inductive Lexeme : List Char → Token → Prop where
  | name {w : List Char} (h : IsName w) : Lexeme w (ofName (String.ofList w))
  | number {c : Char} {digits suffix : List Char} (first : Text.isAsciiDigit c = true)
      (others : ∀ d ∈ digits, isNumberChar d = true) (behind : suffix = [] ∨ suffix ∈ suffixes) :
      Lexeme (c :: digits ++ suffix) (.number (String.ofList (c :: digits ++ suffix)))
  | lifetime {w : List Char} (h : IsName w) :
      Lexeme ('\'' :: w) (.lifetime (String.ofList ('\'' :: w)))
  | quoted {w : List Char} (h : '"' ∉ w) : Lexeme ('"' :: w ++ ['"']) (.quoted (String.ofList w))
  | mark (m : Mark) : Lexeme m.spelling (.mark m)

/-- No longer spelling starts the text. -/
def Longest (w rest : List Char) : Prop :=
  ∀ w' token, Lexeme w' token → w' <+: w ++ rest → w'.length ≤ w.length

/-- How a text is split into tokens. -/
inductive Lexes : List Char → List Token → Prop where
  | nil : Lexes [] []
  | blank {c : Char} {s : List Char} {tokens : List Token} (space : isSpace c = true)
      (rest : Lexes s tokens) : Lexes (c :: s) tokens
  | token {w s : List Char} {token : Token} {tokens : List Token} (lexeme : Lexeme w token)
      (longest : Longest w s) (rest : Lexes s tokens) : Lexes (w ++ s) (token :: tokens)

section Lexeme

variable {c : Char} {w cs behind : List Char} {token : Token}

theorem isNameChar_of_isNumberChar (h : isNumberChar c = true) : isNameChar c = true := by
  unfold isNumberChar at h
  unfold isNameChar isNameStart
  grind

theorem not_isNameStart_of_digit (h : Text.isAsciiDigit c = true) : isNameStart c = false := by
  have hne : c ≠ '_' := by
    rintro rfl
    exact absurd h (by decide)
  simp only [Text.isAsciiDigit, isNameStart, Text.isAsciiLetter, Text.isAsciiUpper,
    Text.isAsciiLower, Bool.and_eq_true, decide_eq_true_eq, Bool.or_eq_false_iff,
    Bool.and_eq_false_iff, decide_eq_false_iff_not] at h ⊢
  exact ⟨⟨by omega, by omega⟩, hne⟩

/-- No mark begins with a letter, a digit or a quote. -/
theorem spelling_cons (m : Mark) : ∃ c cs, m.spelling = c :: cs ∧ isNameStart c = false
    ∧ Text.isAsciiDigit c = false ∧ c ≠ '\'' ∧ c ≠ '"' ∧ isSpace c = false := by
  cases m <;> exact ⟨_, _, rfl, by decide⟩

/-- The first character of a mark tells which one it is. -/
theorem mark_of_head {m m' : Mark} (h : m.spelling.head? = m'.spelling.head?) : m = m' := by
  cases m <;> cases m' <;> first | rfl | simp [Mark.spelling] at h

theorem Lexeme.of_nameStart (h : Lexeme (c :: cs) token) (hc : isNameStart c = true) :
    (∀ d ∈ cs, isNameChar d = true) ∧ token = ofName (String.ofList (c :: cs)) := by
  generalize hw : c :: cs = w at h
  cases h with
  | name h =>
    obtain ⟨d, ds, rfl, -, hds⟩ := h
    obtain ⟨rfl, rfl⟩ := List.cons.inj hw
    exact ⟨hds, rfl⟩
  | number first others behind =>
    obtain ⟨rfl, -⟩ := List.cons.inj hw
    simp [not_isNameStart_of_digit first] at hc
  | lifetime h | quoted h =>
    obtain ⟨rfl, -⟩ := List.cons.inj hw
    exact absurd hc (by decide)
  | mark m =>
    obtain ⟨d, ds, hm, hd, -⟩ := spelling_cons m
    obtain ⟨rfl, -⟩ := List.cons.inj (hw.trans hm)
    simp [hd] at hc

theorem Lexeme.of_digit (h : Lexeme (c :: cs) token) (hc : Text.isAsciiDigit c = true) :
    token = .number (String.ofList (c :: cs)) ∧ ∃ digits suffix, cs = digits ++ suffix ∧
      (∀ d ∈ digits, isNumberChar d = true) ∧ (suffix = [] ∨ suffix ∈ suffixes) := by
  generalize hw : c :: cs = w at h
  cases h with
  | name h =>
    obtain ⟨d, ds, rfl, hd, -⟩ := h
    obtain ⟨rfl, -⟩ := List.cons.inj hw
    simp [not_isNameStart_of_digit hc] at hd
  | @number d digits suffix first others behind =>
    obtain ⟨rfl, rfl⟩ := List.cons.inj hw
    exact ⟨rfl, digits, suffix, rfl, others, behind⟩
  | lifetime h | quoted h =>
    obtain ⟨rfl, -⟩ := List.cons.inj hw
    exact absurd hc (by decide)
  | mark m =>
    obtain ⟨d, ds, hm, -, hd, -⟩ := spelling_cons m
    obtain ⟨rfl, -⟩ := List.cons.inj (hw.trans hm)
    simp [hd] at hc

theorem Lexeme.of_apostrophe (h : Lexeme ('\'' :: cs) token) :
    IsName cs ∧ token = .lifetime (String.ofList ('\'' :: cs)) := by
  generalize hw : '\'' :: cs = w at h
  cases h with
  | name h =>
    obtain ⟨d, ds, rfl, hd, -⟩ := h
    obtain ⟨rfl, -⟩ := List.cons.inj hw
    exact absurd hd (by decide)
  | number first others behind =>
    obtain ⟨rfl, -⟩ := List.cons.inj hw
    exact absurd first (by decide)
  | lifetime h =>
    obtain ⟨-, rfl⟩ := List.cons.inj hw
    exact ⟨h, rfl⟩
  | quoted h => simp at hw
  | mark m => cases m <;> simp [Mark.spelling] at hw

theorem Lexeme.of_quote (h : Lexeme ('"' :: cs) token) :
    ∃ body, cs = body ++ ['"'] ∧ '"' ∉ body ∧ token = .quoted (String.ofList body) := by
  generalize hw : '"' :: cs = w at h
  cases h with
  | name h =>
    obtain ⟨d, ds, rfl, hd, -⟩ := h
    obtain ⟨rfl, -⟩ := List.cons.inj hw
    exact absurd hd (by decide)
  | number first others behind =>
    obtain ⟨rfl, -⟩ := List.cons.inj hw
    exact absurd first (by decide)
  | lifetime h => simp at hw
  | quoted h =>
    obtain ⟨-, rfl⟩ := List.cons.inj hw
    exact ⟨_, rfl, h, rfl⟩
  | mark m => cases m <;> simp [Mark.spelling] at hw

theorem Lexeme.of_other (h : Lexeme (c :: cs) token) (hname : isNameStart c = false)
    (hdigit : Text.isAsciiDigit c = false) (hapostrophe : c ≠ '\'') (hquote : c ≠ '"') :
    ∃ m : Mark, c :: cs = m.spelling ∧ token = .mark m := by
  generalize hw : c :: cs = w at h
  cases h with
  | name h =>
    obtain ⟨d, ds, rfl, hd, -⟩ := h
    obtain ⟨rfl, -⟩ := List.cons.inj hw
    simp [hd] at hname
  | number first others behind =>
    obtain ⟨rfl, -⟩ := List.cons.inj hw
    simp [first] at hdigit
  | lifetime h => exact absurd (List.cons.inj hw).1 hapostrophe
  | quoted h => exact absurd (List.cons.inj hw).1 hquote
  | mark m => exact ⟨m, rfl, rfl⟩

theorem classes_of_isSpace (h : isSpace c = true) :
    isNameStart c = false ∧ Text.isAsciiDigit c = false := by
  simp only [isSpace, Bool.or_eq_true, decide_eq_true_eq] at h
  rcases h with (((rfl | rfl) | rfl) | rfl) | rfl <;> decide

theorem Lexeme.exists_cons (h : Lexeme w token) : ∃ c cs, w = c :: cs ∧ isSpace c = false := by
  cases h with
  | name h =>
    obtain ⟨c, cs, rfl, hc, -⟩ := h
    exact ⟨c, cs, rfl, Bool.eq_false_iff.2 fun h => by simp [(classes_of_isSpace h).1] at hc⟩
  | @number c digits suffix first others behind =>
    exact ⟨_, _, rfl, Bool.eq_false_iff.2 fun h => by simp [(classes_of_isSpace h).2] at first⟩
  | lifetime h => exact ⟨_, _, rfl, rfl⟩
  | quoted h => exact ⟨_, _, rfl, rfl⟩
  | mark m =>
    obtain ⟨c, cs, hm, -, -, -, -, hc⟩ := spelling_cons m
    exact ⟨c, cs, hm, hc⟩

/-- A spelling is that of one token only. -/
theorem Lexeme.unique {token' : Token} (h : Lexeme w token) (h' : Lexeme w token') :
    token' = token := by
  obtain ⟨c, cs, rfl, -⟩ := h.exists_cons
  by_cases hname : isNameStart c = true
  · rw [(h.of_nameStart hname).2, (h'.of_nameStart hname).2]
  by_cases hdigit : Text.isAsciiDigit c = true
  · rw [(h.of_digit hdigit).1, (h'.of_digit hdigit).1]
  by_cases hapostrophe : c = '\''
  · subst hapostrophe
    rw [h.of_apostrophe.2, h'.of_apostrophe.2]
  by_cases hquote : c = '"'
  · subst hquote
    obtain ⟨body, rfl, -, rfl⟩ := h.of_quote
    obtain ⟨body', hbody, -, rfl⟩ := h'.of_quote
    rw [List.append_cancel_right hbody]
  · simp only [Bool.not_eq_true] at hname hdigit
    obtain ⟨m, hm, rfl⟩ := h.of_other hname hdigit hapostrophe hquote
    obtain ⟨m', hm', rfl⟩ := h'.of_other hname hdigit hapostrophe hquote
    rw [mark_of_head (congrArg List.head? (hm.symm.trans hm'))]

end Lexeme

section Longest

variable {c : Char} {rest behind : List Char} {token : Token}

theorem length_le_takeWhile {p : Char → Bool} {ds s : List Char} (hinitial : ds <+: s)
    (hds : ∀ d ∈ ds, p d = true) : ds.length ≤ (s.takeWhile p).length := by
  obtain ⟨t, rfl⟩ := hinitial
  rw [List.takeWhile_append_of_pos hds, List.length_append]
  omega

theorem longest_name (hc : isNameStart c = true) :
    Longest (c :: rest.takeWhile isNameChar) (rest.dropWhile isNameChar) := by
  intro w' token' h hinitial
  rw [List.cons_append, List.takeWhile_append_dropWhile] at hinitial
  obtain ⟨d, ds, rfl, -⟩ := h.exists_cons
  obtain ⟨rfl, hds⟩ := List.cons_prefix_cons.1 hinitial
  have hlength := length_le_takeWhile hds (h.of_nameStart hc).1
  simpa using hlength

theorem longest_lifetime :
    Longest ('\'' :: rest.takeWhile isNameChar) (rest.dropWhile isNameChar) := by
  intro w' token' h hinitial
  rw [List.cons_append, List.takeWhile_append_dropWhile] at hinitial
  obtain ⟨_, ds, rfl, -⟩ := h.exists_cons
  obtain ⟨rfl, hds⟩ := List.cons_prefix_cons.1 hinitial
  obtain ⟨⟨e, es, rfl, he, hes⟩, -⟩ := h.of_apostrophe
  have hall : ∀ x ∈ e :: es, isNameChar x = true :=
    List.forall_mem_cons.2 ⟨by simp [isNameChar, he], hes⟩
  have hlength := length_le_takeWhile hds hall
  simpa using hlength

/-- At most one suffix starts a text. -/
theorem suffixOf_append {suffix s : List Char} (h : suffix ∈ suffixes) :
    suffixOf (suffix ++ s) = suffix := by
  simp only [suffixes, List.mem_cons, List.not_mem_nil, or_false] at h
  rcases h with rfl | rfl | rfl | rfl | rfl <;> simp [suffixOf, suffixes]

theorem not_isNumberChar_of_suffix {suffix : List Char} (h : suffix ∈ suffixes) :
    ∃ cs, suffix = 'u' :: cs := by
  simp only [suffixes, List.mem_cons, List.not_mem_nil, or_false] at h
  rcases h with rfl | rfl | rfl | rfl | rfl <;> exact ⟨_, rfl⟩

theorem suffixOf_cases (s : List Char) :
    (suffixOf s = [] ∨ suffixOf s ∈ suffixes) ∧ suffixOf s <+: s := by
  unfold suffixOf
  cases hfind : suffixes.find? (·.isPrefixOf s) with
  | none => exact ⟨.inl rfl, List.nil_prefix⟩
  | some suffix =>
    have hinitial := List.find?_some hfind
    exact ⟨.inr (List.mem_of_find?_eq_some hfind), List.isPrefixOf_iff_prefix.1 hinitial⟩

/-- The digits are as many as there are, and so the suffix is the one behind them. -/
theorem longest_number (hc : Text.isAsciiDigit c = true) {digits behind : List Char}
    (hdigits : digits = rest.takeWhile isNumberChar) (hbehind : behind = rest.dropWhile isNumberChar) :
    Longest (c :: digits ++ suffixOf behind) (behind.drop (suffixOf behind).length) := by
  have hrest : digits ++ behind = rest := by
    rw [hdigits, hbehind, List.takeWhile_append_dropWhile]
  have hsuffix : suffixOf behind ++ behind.drop (suffixOf behind).length = behind :=
    List.prefix_iff_eq_append.1 (suffixOf_cases behind).2
  intro w' token' h hinitial
  rw [List.append_assoc, hsuffix, List.cons_append, hrest] at hinitial
  obtain ⟨_, ds, rfl, -⟩ := h.exists_cons
  obtain ⟨rfl, hds⟩ := List.cons_prefix_cons.1 hinitial
  obtain ⟨-, digits', suffix', rfl, hdigits', hsuffix'⟩ := h.of_digit hc
  obtain ⟨t, ht⟩ := hds
  have htake : digits = digits' ++ (suffix' ++ t).takeWhile isNumberChar := by
    rw [hdigits, ← ht, List.append_assoc, List.takeWhile_append_of_pos hdigits']
  have hdrop : behind = (suffix' ++ t).dropWhile isNumberChar := by
    rw [hbehind, ← ht, List.append_assoc, List.dropWhile_append_of_pos hdigits']
  rcases hsuffix' with rfl | hsuffix'
  · rw [htake]
    simp only [List.length_append, List.length_cons, List.length_nil]
    omega
  · obtain ⟨cs, hu⟩ := not_isNumberChar_of_suffix hsuffix'
    have hdrop' : behind = suffix' ++ t := by
      rw [hdrop, hu]
      rfl
    have hequal : suffixOf behind = suffix' := by rw [hdrop', suffixOf_append hsuffix']
    rw [hequal, htake]
    simp only [List.length_append, List.length_cons]
    omega

theorem takeWhile_quote {body s : List Char} (h : '"' ∉ body) :
    (body ++ '"' :: s).takeWhile (· != '"') = body := by
  have hall : ∀ c ∈ body, (c != '"') = true := fun c hc => bne_iff_ne.2 fun heq => h (heq ▸ hc)
  simp [List.takeWhile_append_of_pos hall]

theorem longest_quoted {body : List Char} (h : '"' ∉ body) :
    Longest ('"' :: body ++ ['"']) behind := by
  intro w' token' hlexeme hinitial
  obtain ⟨_, ds, rfl, -⟩ := hlexeme.exists_cons
  obtain ⟨rfl, t, ht⟩ := List.cons_prefix_cons.1 hinitial
  obtain ⟨body', rfl, hbody', -⟩ := hlexeme.of_quote
  have heq : body' ++ '"' :: t = body ++ '"' :: behind := by simpa using ht
  have hbody : body' = body := by
    rw [← takeWhile_quote (s := t) hbody', heq, takeWhile_quote h]
  rw [hbody]
  simp

theorem longest_mark (m : Mark) : Longest m.spelling behind := by
  intro w' token' h hinitial
  obtain ⟨c, cs, hm, hname, hdigit, hapostrophe, hquote, -⟩ := spelling_cons m
  obtain ⟨d, ds, rfl, -⟩ := h.exists_cons
  rw [hm] at hinitial
  obtain ⟨rfl, -⟩ := List.cons_prefix_cons.1 hinitial
  obtain ⟨m', hm', -⟩ := h.of_other hname hdigit hapostrophe hquote
  have hsame : m' = m := mark_of_head (by rw [← hm', hm]; rfl)
  rw [hm', hsame]

end Longest

section Next

variable {c : Char} {rest behind w : List Char} {token : Token}

theorem isName_takeWhile (hc : isNameStart c = true) :
    IsName ((c :: rest).takeWhile isNameChar) := by
  have hname : isNameChar c = true := by rw [isNameChar, hc, Bool.true_or]
  exact ⟨c, rest.takeWhile isNameChar, List.takeWhile_cons_of_pos hname, hc,
    fun d hd => List.mem_takeWhile_imp hd⟩

theorem append_quote (h : rest.dropWhile (· != '"') = c :: behind) :
    rest = rest.takeWhile (· != '"') ++ '"' :: behind := by
  have hne : rest.dropWhile (· != '"') ≠ [] := by simp [h]
  have hc := List.head_dropWhile_not (· != '"') hne
  simp only [h, List.head_cons, bne_eq_false_iff_eq] at hc
  subst hc
  rw [← h, List.takeWhile_append_dropWhile]

theorem spelling_of_markOf {m : Mark} (h : markOf? c = some m) : m.spelling = [c] := by
  by_cases hmem : c ∈ ['<', '>', ',', ';', '+', '?', '&', '*', '!', '(', ')', '[', ']']
  · simp only [List.mem_cons, List.not_mem_nil, or_false] at hmem
    rcases hmem with rfl | rfl | rfl | rfl | rfl | rfl | rfl | rfl | rfl | rfl | rfl | rfl | rfl <;>
      · obtain rfl := Option.some.inj h
        rfl
  · simp only [List.mem_cons, List.not_mem_nil, or_false, not_or] at hmem
    simp [markOf?, hmem] at h

/-- What the scanner finds first in a text is spelled as long as possible. -/
theorem next_eq_some (h : next c rest = some (token, behind)) :
    ∃ w, c :: rest = w ++ behind ∧ Lexeme w token ∧ Longest w behind := by
  unfold next at h
  split at h
  · rename_i hname
    obtain ⟨rfl, rfl⟩ := Prod.mk.inj (Option.some.inj h)
    have hall : ∀ d ∈ rest.takeWhile isNameChar, isNameChar d = true :=
      fun d hd => List.mem_takeWhile_imp hd
    exact ⟨_, by rw [List.cons_append, List.takeWhile_append_dropWhile],
      .name ⟨c, _, rfl, hname, hall⟩, longest_name hname⟩
  split at h
  · rename_i hdigit
    obtain ⟨rfl, rfl⟩ := Prod.mk.inj (Option.some.inj h)
    have hcases := suffixOf_cases (rest.dropWhile isNumberChar)
    have hall : ∀ d ∈ rest.takeWhile isNumberChar, isNumberChar d = true :=
      fun d hd => List.mem_takeWhile_imp hd
    refine ⟨_, ?_, .number hdigit hall hcases.1, longest_number hdigit rfl rfl⟩
    rw [List.append_assoc, List.prefix_iff_eq_append.1 hcases.2, List.cons_append,
      List.takeWhile_append_dropWhile]
  split at h
  · rename_i hc
    subst hc
    split at h
    · split at h
      · rename_i d ds hname
        obtain ⟨rfl, rfl⟩ := Prod.mk.inj (Option.some.inj h)
        exact ⟨_, by rw [List.cons_append, List.takeWhile_append_dropWhile],
          .lifetime (isName_takeWhile hname), longest_lifetime⟩
      · simp at h
    · simp at h
  split at h
  · rename_i hc
    subst hc
    split at h
    · rename_i behind' hdrop
      obtain ⟨rfl, rfl⟩ := Prod.mk.inj (Option.some.inj h)
      have hbody : '"' ∉ rest.takeWhile (· != '"') := fun hmem => by
        simpa using List.mem_takeWhile_imp hmem
      refine ⟨_, ?_, .quoted hbody, longest_quoted hbody⟩
      rw [List.append_assoc, List.cons_append, List.singleton_append, ← append_quote hdrop]
    · simp at h
  split at h
  · rename_i hc
    subst hc
    split at h
    · obtain ⟨rfl, rfl⟩ := Prod.mk.inj (Option.some.inj h)
      exact ⟨_, rfl, .mark .pathSep, longest_mark _⟩
    · simp at h
  split at h
  · rename_i hc
    subst hc
    split at h
    · obtain ⟨rfl, rfl⟩ := Prod.mk.inj (Option.some.inj h)
      exact ⟨_, rfl, .mark .arrow, longest_mark _⟩
    · simp at h
  · obtain ⟨m, hm, heq⟩ := Option.map_eq_some_iff.1 h
    obtain ⟨rfl, rfl⟩ := Prod.mk.inj heq
    exact ⟨m.spelling, by rw [spelling_of_markOf hm]; rfl, .mark m, longest_mark m⟩

theorem markOf_of_spelling {m : Mark} {cs : List Char} (h : m.spelling = c :: cs) :
    (c = ':' ∧ cs = [':']) ∨ (c = '-' ∧ cs = ['>']) ∨ markOf? c = some m := by
  cases m <;> obtain ⟨rfl, rfl⟩ := List.cons.inj h <;> simp [markOf?]

/-- The scanner finds something wherever a spelling starts. -/
theorem next_ne_none (h : Lexeme w token) (hinitial : w <+: c :: rest) : next c rest ≠ none := by
  obtain ⟨_, ds, rfl, -⟩ := h.exists_cons
  obtain ⟨rfl, hds⟩ := List.cons_prefix_cons.1 hinitial
  rename_i c
  intro hnone
  unfold next at hnone
  split at hnone
  · simp at hnone
  rename_i hname
  split at hnone
  · simp at hnone
  rename_i hdigit
  split at hnone
  · rename_i hc
    subst hc
    obtain ⟨⟨d, es, rfl, hd, -⟩, -⟩ := h.of_apostrophe
    obtain ⟨t, rfl⟩ := hds
    simp [hd] at hnone
  rename_i hapostrophe
  split at hnone
  · rename_i hc
    subst hc
    obtain ⟨body, rfl, hbody, -⟩ := h.of_quote
    obtain ⟨t, rfl⟩ := hds
    have hall : ∀ d ∈ body, (d != '"') = true := fun d hd => bne_iff_ne.2 fun heq => hbody (heq ▸ hd)
    simp [List.dropWhile_append_of_pos hall] at hnone
  rename_i hquote
  simp only [Bool.not_eq_true] at hname hdigit
  obtain ⟨m, hm, -⟩ := h.of_other hname hdigit hapostrophe hquote
  obtain ⟨t, rfl⟩ := hds
  rcases markOf_of_spelling hm.symm with ⟨rfl, rfl⟩ | ⟨rfl, rfl⟩ | hmark
  · simp at hnone
  · simp at hnone
  · split at hnone
    · rename_i hc
      subst hc
      simp [markOf?] at hmark
    split at hnone
    · rename_i hc
      subst hc
      simp [markOf?] at hmark
    · simp [hmark] at hnone

theorem next_of_longest (h : Lexeme w token) (hlongest : Longest w behind)
    (heq : c :: rest = w ++ behind) : next c rest = some (token, behind) := by
  have hinitial : w <+: c :: rest := heq ▸ List.prefix_append w behind
  obtain ⟨⟨token', behind'⟩, hnext⟩ := Option.ne_none_iff_exists'.1 (next_ne_none h hinitial)
  obtain ⟨w', heq', h', hlongest'⟩ := next_eq_some hnext
  have hinitial' : w' <+: c :: rest := heq' ▸ List.prefix_append w' behind'
  have hle := hlongest w' token' h' (heq ▸ hinitial')
  have hge := hlongest' w token h (heq' ▸ hinitial)
  obtain ⟨rfl, rfl⟩ := List.append_inj (heq.symm.trans heq') (Nat.le_antisymm hge hle)
  rw [hnext, h'.unique h]

end Next

section Lexes

variable {c : Char} {s w behind : List Char} {token : Token} {tokens : List Token}

theorem lexes_nil_iff : Lexes [] tokens ↔ tokens = [] := by
  refine ⟨fun h => ?_, fun h => h ▸ .nil⟩
  generalize hs : [] = s at h
  cases h with
  | nil => rfl
  | blank => simp at hs
  | token lexeme =>
    obtain ⟨c, cs, rfl, -⟩ := lexeme.exists_cons
    simp at hs

theorem lexes_blank_iff (hc : isSpace c = true) : Lexes (c :: s) tokens ↔ Lexes s tokens := by
  refine ⟨fun h => ?_, .blank hc⟩
  generalize hs : c :: s = s' at h
  cases h with
  | nil => simp at hs
  | blank space rest =>
    obtain ⟨-, rfl⟩ := List.cons.inj hs
    exact rest
  | token lexeme =>
    obtain ⟨d, ds, rfl, hd⟩ := lexeme.exists_cons
    obtain ⟨rfl, -⟩ := List.cons.inj hs
    simp [hc] at hd

theorem lexes_token_iff (hc : isSpace c = false) : Lexes (c :: s) tokens ↔
    ∃ token tokens', tokens = token :: tokens' ∧ ∃ w behind, c :: s = w ++ behind ∧
      Lexeme w token ∧ Longest w behind ∧ Lexes behind tokens' := by
  constructor
  · intro h
    generalize hs : c :: s = s' at h
    cases h with
    | nil => simp at hs
    | blank space rest =>
      obtain ⟨rfl, -⟩ := List.cons.inj hs
      simp [hc] at space
    | token lexeme longest rest => exact ⟨_, _, rfl, _, _, rfl, lexeme, longest, rest⟩
  · rintro ⟨token, tokens', rfl, w, behind, hs, lexeme, longest, rest⟩
    rw [hs]
    exact .token lexeme longest rest

theorem length_behind_le (h : Lexeme w token) (heq : c :: s = w ++ behind) {n : Nat}
    (hs : s.length ≤ n) : behind.length ≤ n := by
  obtain ⟨d, ds, rfl, -⟩ := h.exists_cons
  have hlength := congrArg List.length heq
  simp only [List.length_cons, List.length_append] at hlength
  omega

end Lexes

/-- The scanner finds the tokens that a text is split into. -/
theorem scanFrom_eq_some_iff {fuel : Nat} {s : List Char} {tokens : List Token}
    (hfuel : s.length ≤ fuel) : scanFrom fuel s = some tokens ↔ Lexes s tokens := by
  induction fuel generalizing s tokens with
  | zero =>
    obtain rfl := List.eq_nil_of_length_eq_zero (Nat.le_zero.1 hfuel)
    rw [scanFrom, Option.some.injEq, lexes_nil_iff, eq_comm]
  | succ fuel ih =>
    cases s with
    | nil => rw [scanFrom, Option.some.injEq, lexes_nil_iff, eq_comm]
    | cons c rest =>
      have hrest : rest.length ≤ fuel := Nat.le_of_succ_le_succ hfuel
      rw [scanFrom]
      split
      · rename_i hspace
        rw [ih hrest, lexes_blank_iff hspace]
      rename_i hspace
      rw [lexes_token_iff (Bool.eq_false_iff.2 hspace)]
      constructor
      · intro h
        obtain ⟨⟨token, behind⟩, hnext, h⟩ := Option.bind_eq_some_iff.1 h
        obtain ⟨tokens', hbehind, heq⟩ := Option.bind_eq_some_iff.1 h
        obtain ⟨w, hw, hlexeme, hlongest⟩ := next_eq_some hnext
        refine ⟨token, tokens', (Option.some.inj heq).symm, w, behind, hw, hlexeme, hlongest, ?_⟩
        exact (ih (length_behind_le hlexeme hw hrest)).1 hbehind
      · rintro ⟨token, tokens', rfl, w, behind, hw, hlexeme, hlongest, hbehind⟩
        rw [next_of_longest hlexeme hlongest hw]
        have hscan := (ih (length_behind_le hlexeme hw hrest)).2 hbehind
        simp only [Option.bind_eq_bind, Option.bind_some, hscan]
        rfl

theorem scan_eq_some_iff {s : List Char} {tokens : List Token} :
    scan s = some tokens ↔ Lexes s tokens := scanFrom_eq_some_iff (Nat.le_refl _)

end Token

end Crossing
