import Mathlib
import Crossing.Proofs.TypeExpr.Canonical
import Crossing.Proofs.TypeExpr.Grammar
import Crossing.Proofs.TypeExpr.Lexing
import Crossing.Text.Blank

/-!
# Spelled tokens

A text spells tokens if it is split into them whatever stands behind it, as long as that does not go on
with a name (`Spells`), and it seals them if anything may stand behind it (`Seals`). The trees that the
grammar builds from spelled tokens have names, lifetimes, numbers and quoted texts that can be spelled
again (`wellSpelled_of_derives`).
-/

namespace Crossing

namespace Text

/-- What is left between the blanks has none at its ends. -/
theorem trim_trim (p : Char → Bool) (s : List Char) : trim p (trim p s) = trim p s := by
  have hinitial : trim p s <+: s.dropWhile p := List.rdropWhile_prefix p _
  have hstart : (trim p s).dropWhile p = trim p s := by
    rw [List.dropWhile_eq_self_iff]
    intro hpos
    rw [hinitial.getElem hpos]
    exact List.dropWhile_get_zero_not p s _
  have hend : (trim p s).rdropWhile p = trim p s := List.rdropWhile_idempotent p _
  calc trim p (trim p s) = ((trim p s).dropWhile p).rdropWhile p := rfl
    _ = trim p s := by rw [hstart, hend]

/-- A text is what is left of it, between blanks. -/
theorem exists_strip (s : List Char) : ∃ before behind, s = before ++ strip s ++ behind
    ∧ (∀ c ∈ before, isBlank c = true) ∧ ∀ c ∈ behind, isBlank c = true := by
  refine ⟨s.takeWhile isBlank, (s.dropWhile isBlank).rtakeWhile isBlank, ?_,
    fun c hc => List.mem_takeWhile_imp hc, fun c hc => List.mem_rtakeWhile_imp hc⟩
  have hend : strip s ++ (s.dropWhile isBlank).rtakeWhile isBlank = s.dropWhile isBlank :=
    List.rdropWhile_append_rtakeWhile
  rw [List.append_assoc, hend, List.takeWhile_append_dropWhile]

end Text

namespace Token

/-- The text does not go on with a name or a number in front of it. -/
def Apart (s : List Char) : Prop := ∀ c ∈ s.head?, isNameChar c = false

section Longest

variable {c : Char} {w cs rest : List Char} {token : Token}

/-- All of a name, a number or a lifetime could go on with a name. -/
theorem Lexeme.isNameChar_of_mem (h : Lexeme (c :: cs) token)
    (hc : isNameStart c = true ∨ Text.isAsciiDigit c = true ∨ c = '\'') :
    ∀ d ∈ cs, isNameChar d = true := by
  rcases hc with hname | hdigit | rfl
  · exact (h.of_nameStart hname).1
  · obtain ⟨-, digits, suffix, rfl, hdigits, hsuffix⟩ := h.of_digit hdigit
    have hall : suffixes.all (·.all isNameChar) = true := by decide
    intro d hd
    rcases List.mem_append.1 hd with hd | hd
    · exact isNameChar_of_isNumberChar (hdigits d hd)
    · rcases hsuffix with rfl | hsuffix
      · simp at hd
      · exact List.all_eq_true.1 (List.all_eq_true.1 hall suffix hsuffix) d hd
  · obtain ⟨⟨e, es, rfl, he, hes⟩, -⟩ := h.of_apostrophe
    exact List.forall_mem_cons.2 ⟨by simp [isNameChar, he], hes⟩

theorem Apart.takeWhile_eq_nil (h : Apart rest) : rest.takeWhile isNameChar = [] := by
  cases rest with
  | nil => rfl
  | cons c rest => simpa using h c rfl

/-- No spelling is longer than one that a name does not go on. -/
theorem Lexeme.longest (h : Lexeme w token) (hrest : Apart rest) : Longest w rest := by
  obtain ⟨c, cs, rfl, -⟩ := h.exists_cons
  by_cases hc : isNameStart c = true ∨ Text.isAsciiDigit c = true ∨ c = '\''
  · intro w' token' h' hinitial
    rw [List.cons_append] at hinitial
    obtain ⟨_, ds, rfl, -⟩ := h'.exists_cons
    obtain ⟨rfl, hds⟩ := List.cons_prefix_cons.1 hinitial
    have hlength := length_le_takeWhile hds (h'.isNameChar_of_mem hc)
    rw [List.takeWhile_append_of_pos (h.isNameChar_of_mem hc), hrest.takeWhile_eq_nil,
      List.append_nil] at hlength
    exact Nat.succ_le_succ hlength
  · simp only [not_or, Bool.not_eq_true] at hc
    by_cases hquote : c = '"'
    · subst hquote
      obtain ⟨body, rfl, hbody, -⟩ := h.of_quote
      exact longest_quoted hbody
    · obtain ⟨m, hm, -⟩ := h.of_other hc.1 hc.2.1 hc.2.2 hquote
      rw [hm]
      exact longest_mark m

end Longest

/-- The text is split into the tokens in front of what does not go on with a name. -/
def Spells (s : String) (w : List Token) : Prop :=
  ∀ rest tokens, Apart rest → Lexes rest tokens → Lexes (s.toList ++ rest) (w ++ tokens)

/-- The text is split into the tokens in front of anything. -/
def Seals (s : String) (w : List Token) : Prop :=
  ∀ rest tokens, Lexes rest tokens → Lexes (s.toList ++ rest) (w ++ tokens)

/-- The text seals its tokens, and does not go on with a name in front of it. -/
def Parts (s : String) (w : List Token) : Prop :=
  Seals s w ∧ ∃ c cs, s.toList = c :: cs ∧ isNameChar c = false

section Spells

variable {s t : String} {v w : List Token} {token : Token}

theorem Spells.lexes (h : Spells s w) : Lexes s.toList w := by
  simpa using h [] [] (by simp [Apart]) .nil

theorem Seals.spells (h : Seals s w) : Spells s w := fun rest tokens _ hrest => h rest tokens hrest

theorem seals_nil : Seals "" [] := fun _ _ h => h

theorem Seals.append (hs : Seals s v) (ht : Seals t w) : Seals (s ++ t) (v ++ w) := by
  intro rest tokens h
  rw [String.toList_append, List.append_assoc, List.append_assoc]
  exact hs _ _ (ht _ _ h)

theorem Seals.append_spells (hs : Seals s v) (ht : Spells t w) : Spells (s ++ t) (v ++ w) := by
  intro rest tokens hrest h
  rw [String.toList_append, List.append_assoc, List.append_assoc]
  exact hs _ _ (ht _ _ hrest h)

theorem Spells.append (hs : Spells s v) (ht : Parts t w) : Seals (s ++ t) (v ++ w) := by
  intro rest tokens h
  obtain ⟨ht, c, cs, hcs, hc⟩ := ht
  rw [String.toList_append, List.append_assoc, List.append_assoc]
  refine hs _ _ ?_ (ht _ _ h)
  rw [hcs]
  simpa [Apart] using hc

theorem Parts.append (hs : Parts s v) (ht : Seals t w) : Parts (s ++ t) (v ++ w) := by
  obtain ⟨hs, c, cs, hcs, hc⟩ := hs
  exact ⟨hs.append ht, c, cs ++ t.toList, by rw [String.toList_append, hcs]; rfl, hc⟩

theorem spells_of_lexeme (h : Lexeme s.toList token) : Spells s [token] :=
  fun _ _ hrest hlexes => .token h (h.longest hrest) hlexes

/-- Spelled items with something between them. -/
theorem Spells.intercalate {between : String} {v : List Token} (hbetween : Parts between v)
    {s t : String} {ts : List String} {w ws : List Token} (hs : Spells s w)
    (hts : Spells (between.intercalate (t :: ts)) ws) :
    Spells (between.intercalate (s :: t :: ts)) (w ++ v ++ ws) := by
  rw [String.intercalate_cons_cons]
  exact (hs.append hbetween).append_spells hts

end Spells

section Fixed

variable {s : String}

theorem Lexes.blanks {before rest : List Char} {tokens : List Token}
    (hbefore : ∀ c ∈ before, isSpace c = true) (h : Lexes rest tokens) :
    Lexes (before ++ rest) tokens := by
  induction before with
  | nil => exact h
  | cons c before ih =>
    exact .blank (hbefore c List.mem_cons_self) (ih fun d hd => hbefore d (List.mem_cons_of_mem c hd))

theorem isNameChar_of_isSpace {c : Char} (h : isSpace c = true) : isNameChar c = false := by
  obtain ⟨hname, hdigit⟩ := classes_of_isSpace h
  rw [isNameChar, hname, hdigit, Bool.or_false]

/-- A mark with blanks around it. -/
theorem parts_mark (m : Mark) (before behind : List Char) (hs : s.toList = before ++ m.spelling ++ behind)
    (hbefore : ∀ c ∈ before, isSpace c = true) (hbehind : ∀ c ∈ behind, isSpace c = true) :
    Parts s [.mark m] := by
  constructor
  · intro rest tokens h
    rw [hs, List.append_assoc, List.append_assoc]
    exact .blanks hbefore (.token (.mark m) (longest_mark m) (.blanks hbehind h))
  · obtain ⟨c, cs, hm, hname, hdigit, -⟩ := spelling_cons m
    cases before with
    | nil => exact ⟨c, cs ++ behind, by rw [hs, hm]; rfl, by rw [isNameChar, hname, hdigit]; rfl⟩
    | cons b before =>
      exact ⟨b, _, hs, isNameChar_of_isSpace (hbefore b List.mem_cons_self)⟩

theorem seals_mark (m : Mark) (hs : s.toList = m.spelling) : Seals s [.mark m] :=
  (parts_mark m [] [] (by simpa using hs) nofun nofun).1

theorem lexeme_keyword (k : Keyword) : Lexeme k.text.toList (.keyword k) := by
  cases k <;> exact .name ⟨_, _, rfl, rfl, List.all_eq_true.1 rfl⟩

theorem lexeme_quoted (h : '"' ∉ s.toList) : Lexeme ('"' :: s.toList ++ ['"']) (.quoted s) := by
  simpa using Lexeme.quoted h

/-- A token with a blank behind it. -/
theorem Lexeme.seals {w : List Char} {token : Token} (h : Lexeme w token)
    (hs : s.toList = w ++ [' ']) : Seals s [token] := by
  intro rest tokens hrest
  rw [hs, List.append_assoc]
  have happart : Apart (' ' :: rest) := by
    intro c hc
    obtain rfl := Option.some.inj hc
    rfl
  exact .token h (h.longest happart) (.blank rfl hrest)

end Fixed

section Blank

variable {c : Char} {w s : List Char} {token : Token} {tokens : List Token}

theorem not_isBlank_of_isNameChar (h : isNameChar c = true) : Text.isBlank c = false := by
  simp only [isNameChar, isNameStart, Text.isAsciiDigit, Text.isAsciiLetter, Text.isAsciiUpper,
    Text.isAsciiLower, Bool.and_eq_true, decide_eq_true_eq, Bool.or_eq_true] at h
  have hrange : 48 ≤ c.toNat ∧ c.toNat < 128 := by
    rcases h with (h | rfl) | h
    · omega
    · decide
    · omega
  unfold Text.isBlank
  grind

/-- No spelling has a blank at one of its ends. -/
theorem Lexeme.not_isBlank (h : Lexeme w token) (hc : w.head? = some c ∨ w.getLast? = some c) :
    Text.isBlank c = false := by
  have hmem : c ∈ w := hc.elim List.mem_of_head? List.mem_of_getLast?
  cases h with
  | name h =>
    obtain ⟨d, ds, rfl, hd, hds⟩ := h
    have hall : ∀ x ∈ d :: ds, isNameChar x = true :=
      List.forall_mem_cons.2 ⟨by simp [isNameChar, hd], hds⟩
    exact not_isBlank_of_isNameChar (hall c hmem)
  | @number d digits suffix first others behind =>
    have hall := (Lexeme.number first others behind).isNameChar_of_mem (.inr (.inl first))
    rcases List.mem_cons.1 hmem with rfl | hmem
    · exact not_isBlank_of_isNameChar (by simp [isNameChar, first])
    · exact not_isBlank_of_isNameChar (hall c hmem)
  | @lifetime w h =>
    have hall := (Lexeme.lifetime h).isNameChar_of_mem (.inr (.inr rfl))
    rcases List.mem_cons.1 hmem with rfl | hmem
    · rfl
    · exact not_isBlank_of_isNameChar (hall c hmem)
  | quoted h =>
    have hquote : c = '"' := by
      rcases hc with hc | hc
      · exact (Option.some.inj hc).symm
      · rw [List.getLast?_concat] at hc
        exact (Option.some.inj hc).symm
    rw [hquote]
    rfl
  | mark m =>
    have hall : m.spelling.all (fun x => !Text.isBlank x) = true := by cases m <;> decide
    simpa using List.all_eq_true.1 hall c hmem

theorem Lexes.of_cons_blank (h : Lexes (c :: s) tokens) (hc : Text.isBlank c = true) :
    Lexes s tokens := by
  generalize hs : c :: s = u at h
  cases h with
  | nil => simp at hs
  | blank _ h => exact (List.cons.inj hs).2 ▸ h
  | @token w _ _ _ lexeme =>
    obtain ⟨d, ds, rfl, -⟩ := lexeme.exists_cons
    obtain ⟨rfl, -⟩ := List.cons.inj hs
    simp [lexeme.not_isBlank (.inl rfl)] at hc

theorem Lexes.of_append_blank (h : Lexes (s ++ [c]) tokens) (hc : Text.isBlank c = true) :
    Lexes s tokens := by
  generalize hs : s ++ [c] = u at h
  induction h generalizing s with
  | nil => simp at hs
  | @blank d u _ space rest ih =>
    cases s with
    | nil =>
      obtain ⟨rfl, rfl⟩ := List.cons.inj hs
      exact rest
    | cons e s =>
      obtain ⟨rfl, rfl⟩ := List.cons.inj hs
      exact .blank space (ih rfl)
  | @token w u token _ lexeme longest rest ih =>
    rcases List.eq_nil_or_concat u with rfl | ⟨u, d, rfl⟩
    · have hlast : w.getLast? = some c := by
        rw [← List.append_nil w, ← hs, List.getLast?_concat]
      simp [lexeme.not_isBlank (.inr hlast)] at hc
    · rw [List.concat_eq_append, ← List.append_assoc] at hs
      obtain ⟨rfl, hd⟩ := List.append_inj' hs rfl
      obtain rfl := List.singleton_inj.1 hd
      refine .token lexeme (fun w' token' h hinitial => ?_) (ih (List.concat_eq_append ..).symm)
      refine longest w' token' h (hinitial.trans ?_)
      rw [List.concat_eq_append, ← List.append_assoc]
      exact List.prefix_append _ _

/-- The blanks at the ends of a text do not matter. -/
theorem Lexes.strip (h : Lexes s tokens) : Lexes (Text.strip s) tokens := by
  obtain ⟨before, behind, hs, hbefore, hbehind⟩ := Text.exists_strip s
  rw [hs] at h
  generalize Text.strip s = u at h
  clear hs
  have hstart : Lexes (u ++ behind) tokens := by
    induction before with
    | nil => exact h
    | cons c before ih =>
      obtain ⟨hc, hbefore⟩ := List.forall_mem_cons.1 hbefore
      exact ih hbefore (Lexes.of_cons_blank h hc)
  clear h
  induction behind using List.reverseRecOn with
  | nil => simpa using hstart
  | append_singleton behind c ih =>
    obtain ⟨hbehind, hc⟩ := List.forall_mem_append.1 hbehind
    rw [← List.append_assoc] at hstart
    exact ih hbehind (hstart.of_append_blank (hc c List.mem_cons_self))

end Blank

section Number

variable (n : Nat)

theorem isAsciiDigit_of_mem {c : Char} (hc : c ∈ (toString n).toList) :
    Text.isAsciiDigit c = true := by
  have hdigit : c.isDigit = true :=
    Nat.isDigit_of_mem_toDigits (b := 10) (n := n) (by decide) (by decide) (by simpa using hc)
  simp only [Char.isDigit, ge_iff_le, Bool.and_eq_true, decide_eq_true_eq,
    UInt32.le_iff_toNat_le] at hdigit
  simp only [Text.isAsciiDigit, Bool.and_eq_true, decide_eq_true_eq]
  exact hdigit

theorem lexeme_toString : Lexeme (toString n).toList (.number (toString n)) := by
  have hdigit := fun c => isAsciiDigit_of_mem n (c := c)
  have htext : String.ofList (toString n).toList = toString n := String.ofList_toList
  obtain ⟨c, cs, hcs⟩ := List.exists_cons_of_ne_nil (l := (toString n).toList) (by simp)
  rw [← htext, String.toList_ofList]
  rw [hcs] at hdigit ⊢
  have hdigits : ∀ d ∈ cs, isNumberChar d = true := fun d hd => by
    rw [isNumberChar, hdigit d (List.mem_cons_of_mem c hd), Bool.true_or]
  simpa using Lexeme.number (hdigit c List.mem_cons_self) hdigits (.inl rfl)

theorem numberValue_toString : TypeExpr.Parser.numberValue (toString n) = n := by
  have hnumber : ∀ c ∈ (toString n).toList, isNumberChar c = true := fun c hc => by
    rw [isNumberChar, isAsciiDigit_of_mem n hc, Bool.true_or]
  have hplain : ∀ c ∈ (toString n).toList, decide (c ≠ '_') = true := fun c hc => by
    rw [decide_eq_true_eq]
    rintro rfl
    exact absurd (isAsciiDigit_of_mem n hc) (by decide)
  rw [TypeExpr.Parser.numberValue, List.takeWhile_eq_self_iff.2 hnumber,
    List.filter_eq_self.2 hplain]
  calc (toString n).toList.foldl (fun n c => 10 * n + (c.toNat - 48)) 0
      = Nat.ofDigitChars 10 (Nat.toDigits 10 n) 0 := by
        rw [Nat.ofDigitChars, Nat.toString_eq_repr, Nat.toList_repr]
        rfl
    _ = n := Nat.ofDigitChars_toDigits (by decide) (by decide)

end Number

/-- Some text spells the token. -/
def IsSpelled (token : Token) : Prop := ∃ w, Lexeme w token

theorem Lexes.isSpelled {s : List Char} {tokens : List Token} (h : Lexes s tokens) :
    ∀ token ∈ tokens, token.IsSpelled := by
  induction h with
  | nil => nofun
  | blank _ _ ih => exact ih
  | token lexeme _ _ ih => exact List.forall_mem_cons.2 ⟨⟨_, lexeme⟩, ih⟩

/-- Names, numbers and lifetimes are spelled as they are. -/
theorem IsSpelled.lexeme {token : Token} {text : String} (h : token.IsSpelled)
    (htext : token = .name text ∨ token = .number text ∨ token = .lifetime text) :
    Lexeme text.toList token := by
  obtain ⟨w, hw⟩ := h
  suffices text = String.ofList w by rwa [this, String.toList_ofList]
  cases hw with
  | name h =>
    unfold ofName at htext
    split at htext
    · simp at htext
    · simpa [eq_comm] using htext
  | number | lifetime => simpa [eq_comm] using htext
  | quoted | mark => simp at htext

theorem IsSpelled.of_quoted {text : String} (h : (quoted text).IsSpelled) : '"' ∉ text.toList := by
  obtain ⟨w, hw⟩ := h
  generalize htoken : quoted text = token at hw
  cases hw with
  | name h =>
    unfold ofName at htoken
    split at htoken <;> simp at htoken
  | number | lifetime | mark => simp at htoken
  | quoted h =>
    obtain rfl := quoted.inj htoken
    rwa [String.toList_ofList]

end Token

namespace TypeExpr

open Token (Lexeme)
open TypeExpr.Parser (Arguments Bounds)

def IsSpelledName (name : String) : Prop := Lexeme name.toList (.name name)

def IsSpelledLifetime (l : String) : Prop := Lexeme l.toList (.lifetime l)

def IsSpelledNumber (n : String) : Prop := Lexeme n.toList (.number n)

/-- The segment can be spelled, as far as it is not made of types. -/
def IsSpelledSegment : Segment TypeExpr → Prop
  | .plain name _ ls cs => IsSpelledName name ∧ (∀ l ∈ ls, IsSpelledLifetime l)
    ∧ ∀ n ∈ cs, IsSpelledNumber n
  | .call name _ _ => IsSpelledName name

/-- The type can be spelled, as far as the type itself is concerned. -/
def WellSpelled : TypeExpr → Prop
  | .path ss => ss ≠ [] ∧ ∀ s ∈ ss, IsSpelledSegment s
  | .reference l _ _ => ∀ l' ∈ l, IsSpelledLifetime l'
  | .array _ (.named name) => IsSpelledName name
  | .function _ abi _ _ => ∀ a ∈ abi, '"' ∉ a.toList
  | .bounded _ _ ls => ∀ l ∈ ls, IsSpelledLifetime l
  | .macroCall _ | .unparsed _ => False
  | _ => True

/-- All of what a rule builds can be spelled. -/
def Category.WellSpelled : (c : Category) → c.Tree → Prop
  | .type, t => t.Everywhere TypeExpr.WellSpelled
  | .path, ss | .segments, ss => (TypeExpr.path ss).Everywhere TypeExpr.WellSpelled
  | .segment, s => IsSpelledSegment s ∧ ∀ t ∈ s.inner, t.Everywhere TypeExpr.WellSpelled
  | .types, ts | .inputs, ts => ∀ t ∈ ts, t.Everywhere TypeExpr.WellSpelled
  | .result, r => ∀ t ∈ r, t.Everywhere TypeExpr.WellSpelled
  | .arguments, a | .argument, a => (∀ t ∈ a.types, t.Everywhere TypeExpr.WellSpelled)
    ∧ (∀ l ∈ a.lifetimes, IsSpelledLifetime l) ∧ ∀ n ∈ a.consts, IsSpelledNumber n
  | .bounds, b | .bound, b => (∀ p ∈ b.paths, (TypeExpr.path p).Everywhere TypeExpr.WellSpelled)
    ∧ ∀ l ∈ b.lifetimes, IsSpelledLifetime l

section Built

variable {greedy : Bool} {c : Category} {x : c.Tree} {w : List Token} {e : Ends}

/-- What the grammar builds from spelled tokens can be spelled. -/
theorem wellSpelled_of_derives (h : Derives greedy c x w e) (hw : ∀ token ∈ w, token.IsSpelled) :
    c.WellSpelled x := by
  induction h with
  | path _ ih | rooted _ ih | unrooted _ ih | parenthesized _ ih | someInputs _ ih | lastArgument _ ih
  | trailingArgument _ ih | lastBound _ ih =>
    exact ih fun token h => hw token (by simp [h])
  | @reference lifetime _ _ _ _ _ ih =>
    refine Everywhere.reference_iff.2 ⟨fun l hl => ?_, ih fun token h => hw token (by simp [h])⟩
    exact (hw (.lifetime l) (by simp [Option.mem_def.1 hl])).lexeme (by simp)
  | pointer _ ih => exact Everywhere.pointer_iff.2 ⟨trivial, ih fun token h => hw token (by simp [h])⟩
  | slice _ ih => exact Everywhere.slice_iff.2 ⟨trivial, ih fun token h => hw token (by simp [h])⟩
  | @array _ length token _ _ _ spelled ih =>
    refine Everywhere.array_iff.2 ⟨?_, ih fun token h => hw token (by simp [h])⟩
    cases length with
    | literal => trivial
    | named name =>
      have htoken : token = .name name := by
        cases token <;> simp [lengthOf?] at spelled
        rw [spelled]
      subst htoken
      exact (hw (.name name) (by simp)).lexeme (.inl rfl)
  | unit => exact Everywhere.tuple_iff.2 ⟨trivial, List.forall_mem_nil _⟩
  | single _ ih =>
    refine Everywhere.tuple_iff.2 ⟨trivial, List.forall_mem_singleton.2 ?_⟩
    exact ih fun token h => hw token (by simp [h])
  | tuple _ _ ih ihs =>
    refine Everywhere.tuple_iff.2 ⟨trivial, List.forall_mem_cons.2 ⟨?_, ?_⟩⟩
    · exact ih fun token h => hw token (by simp [h])
    · exact ihs fun token h => hw token (by simp [h])
  | function convention _ _ ihp ihr =>
    refine Everywhere.function_iff.2 ⟨fun a ha => ?_, ?_, ?_⟩
    · cases convention with
      | default => simp at ha
      | unnamed =>
        obtain rfl := Option.some.inj ha
        decide
      | named name =>
        obtain rfl := Option.some.inj ha
        exact (hw (.quoted name) (by simp)).of_quoted
    · exact ihp fun token h => hw token (by simp [h])
    · exact ihr fun token h => hw token (by simp [h])
  | bounded _ ih =>
    obtain ⟨hpaths, hlifetimes⟩ := ih fun token h => hw token (by simp [h])
    exact Everywhere.bounded_iff.2 ⟨hlifetimes, hpaths⟩
  | never | infer => exact List.forall_mem_singleton.2 trivial
  | lastSegment _ ih =>
    obtain ⟨hs, hinner⟩ := ih fun token h => hw token (by simp [h])
    exact Everywhere.path_iff.2 ⟨⟨List.cons_ne_nil _ _, by simpa using hs⟩, by simpa using hinner⟩
  | moreSegments _ _ _ ih ihs =>
    obtain ⟨hs, hinner⟩ := ih fun token h => hw token (by simp [h])
    obtain ⟨⟨-, hss⟩, hothers⟩ := Everywhere.path_iff.1 (ihs fun token h => hw token (by simp [h]))
    exact Everywhere.path_iff.2 ⟨⟨List.cons_ne_nil _ _, List.forall_mem_cons.2 ⟨hs, hss⟩⟩,
      List.forall_mem_cons.2 ⟨hinner, hothers⟩⟩
  | @name name =>
    have hname : IsSpelledName name := (hw (.name name) (by simp)).lexeme (by simp)
    exact ⟨⟨hname, by simp, by simp⟩, by simp [Segment.inner, Segment.args, Segment.ret]⟩
  | @generic name _ _ _ _ ih =>
    have hname : IsSpelledName name := (hw (.name name) (by simp)).lexeme (by simp)
    obtain ⟨htypes, hlifetimes, hconsts⟩ := ih fun token h => hw token (by simp [h])
    exact ⟨⟨hname, hlifetimes, hconsts⟩, by simpa [Segment.inner, Segment.args, Segment.ret] using htypes⟩
  | @call name _ _ _ _ _ _ _ _ ihp ihr =>
    have hname : IsSpelledName name := (hw (.name name) (by simp)).lexeme (by simp)
    refine ⟨hname, List.forall_mem_append.2 ⟨?_, fun t ht => ?_⟩⟩
    · exact ihp fun token h => hw token (by simp [h])
    · exact ihr (fun token h => hw token (by simp [h])) t (Option.mem_toList.1 ht)
  | lastType _ ih | trailingType _ ih =>
    exact List.forall_mem_singleton.2 (ih fun token h => hw token (by simp [h]))
  | moreTypes _ _ ih ihs =>
    exact List.forall_mem_cons.2
      ⟨ih fun token h => hw token (by simp [h]), ihs fun token h => hw token (by simp [h])⟩
  | noInputs => exact List.forall_mem_nil _
  | noResult => simp [Category.WellSpelled]
  | someResult _ ih =>
    rintro t ⟨⟩
    exact ih fun token h => hw token (by simp [h])
  | moreArguments _ _ ih ihs =>
    obtain ⟨htypes, hlifetimes, hconsts⟩ := ih fun token h => hw token (by simp [h])
    obtain ⟨htypes', hlifetimes', hconsts'⟩ := ihs fun token h => hw token (by simp [h])
    exact ⟨List.forall_mem_append.2 ⟨htypes, htypes'⟩,
      List.forall_mem_append.2 ⟨hlifetimes, hlifetimes'⟩, List.forall_mem_append.2 ⟨hconsts, hconsts'⟩⟩
  | typeArgument _ ih => exact ⟨List.forall_mem_singleton.2 (ih hw), List.forall_mem_nil _,
      List.forall_mem_nil _⟩
  | @lifetimeArgument l =>
    have hl : IsSpelledLifetime l := (hw (.lifetime l) (by simp)).lexeme (by simp)
    exact ⟨List.forall_mem_nil _, List.forall_mem_singleton.2 hl, List.forall_mem_nil _⟩
  | @constArgument n =>
    have hn : IsSpelledNumber n := (hw (.number n) (by simp)).lexeme (by simp)
    exact ⟨List.forall_mem_nil _, List.forall_mem_nil _, List.forall_mem_singleton.2 hn⟩
  | moreBounds _ _ _ ih ihs =>
    obtain ⟨hpaths, hlifetimes⟩ := ih fun token h => hw token (by simp [h])
    obtain ⟨hpaths', hlifetimes'⟩ := ihs fun token h => hw token (by simp [h])
    exact ⟨List.forall_mem_append.2 ⟨hpaths, hpaths'⟩,
      List.forall_mem_append.2 ⟨hlifetimes, hlifetimes'⟩⟩
  | pathBound _ ih => exact ⟨List.forall_mem_singleton.2 (ih hw), List.forall_mem_nil _⟩
  | @lifetimeBound l =>
    have hl : IsSpelledLifetime l := (hw (.lifetime l) (by simp)).lexeme (by simp)
    exact ⟨List.forall_mem_nil _, List.forall_mem_singleton.2 hl⟩
  | relaxedBound => exact ⟨List.forall_mem_nil _, List.forall_mem_nil _⟩

end Built

end TypeExpr

end Crossing
