import Crossing.Text.Template

/-!
# Plain templates

A plain template is text around the places of the symbol, with nothing else between braces. It is
filled with any text (`expand_spell`), and where the symbol has a place, different texts fill it
differently (`fill_inj`).
-/

namespace Crossing.Text.Template

/-- A piece of a plain template: a character, or the place of the symbol. -/
inductive Piece where
  | lit (c : Char)
  | symbol

namespace Piece

/-- A piece as it is written. -/
def spelling : Piece → List Char
  | .lit c => if c = '\x7b' ∨ c = '\x7d' then [c, c] else [c]
  | .symbol => ['\x7b', 's', 'y', 'm', 'b', 'o', 'l', '\x7d']

/-- What is put for a piece. -/
def filling (value : List Char) : Piece → List Char
  | .lit c => [c]
  | .symbol => value

end Piece

/-- A plain template as it is written. -/
def spell (pieces : List Piece) : List Char := pieces.flatMap Piece.spelling

/-- A plain template with a text for its symbol. -/
def fill (value : List Char) (pieces : List Piece) : List Char := pieces.flatMap (·.filling value)

variable {value : List Char} {pieces : List Piece}

theorem spelling_ne_nil (p : Piece) : p.spelling ≠ [] := by
  cases p with
  | lit c =>
    rw [Piece.spelling]
    split
    · exact List.cons_ne_nil _ _
    · exact List.cons_ne_nil _ _
  | symbol => decide

section Symbol

variable (value : List Char)

theorem field_symbol (rest : List Char) :
    field ('s' :: 'y' :: 'm' :: 'b' :: 'o' :: 'l' :: '\x7d' :: rest) =
      .ok (⟨"symbol".toList, none, [], false⟩, rest) := by
  rfl

theorem lookup_symbol : lookup value "symbol".toList = .ok value := by
  rfl

/-- A text that is asked for in no width is shown as it is. -/
theorem render_nil : render value [] = .ok value := by
  have hpad : render value [] = .ok (pad ' ' .left none none value) := rfl
  rw [hpad]
  simp [pad]

end Symbol

/-- A piece is filled in by one step. -/
theorem expandFrom_spelling (p : Piece) (depth fuel : Nat) (rest : List Char) :
    expandFrom value (depth + 1) (fuel + 1) (p.spelling ++ rest) =
      (p.filling value ++ ·) <$> expandFrom value (depth + 1) fuel rest := by
  cases p with
  | lit c =>
    by_cases hc : c = '{' ∨ c = '}'
    · rw [Piece.spelling, if_pos hc]
      rcases hc with rfl | rfl <;> rfl
    · rw [Piece.spelling, if_neg hc]
      rw [not_or] at hc
      simp only [List.singleton_append, expandFrom, if_neg hc.1, if_neg hc.2]
      rfl
  | symbol =>
    rw [Piece.spelling, List.cons_append, List.cons_append, expandFrom, if_pos rfl]
    · simp only [List.cons_append, List.nil_append, field_symbol, bind, Except.bind, lookup_symbol,
        convert, pure, Except.pure, render_nil, Bool.false_eq_true, if_false]
      rfl
    all_goals nofun

theorem expand_spell : expand (spell pieces) value = .ok (fill value pieces) := by
  -- One unit of fuel is used for each piece, and no piece is empty.
  have hexpand : ∀ (pieces : List Piece) (fuel : Nat), (spell pieces).length < fuel →
      expandFrom value 2 fuel (spell pieces) = .ok (fill value pieces) := by
    intro pieces
    induction pieces with
    | nil =>
      intro fuel hfuel
      obtain ⟨fuel, rfl⟩ := Nat.exists_eq_add_of_lt hfuel
      rfl
    | cons p pieces ih =>
      intro fuel hfuel
      have hlength : (spell (p :: pieces)).length = p.spelling.length + (spell pieces).length := by
        simp [spell]
      have hpos := List.length_pos_iff.2 (spelling_ne_nil p)
      obtain ⟨fuel, rfl⟩ : ∃ n, fuel = n + 1 := ⟨fuel - 1, by omega⟩
      have hspell : spell (p :: pieces) = p.spelling ++ spell pieces := List.flatMap_cons
      rw [hspell, expandFrom_spelling, ih fuel (by omega)]
      rfl
  exact hexpand pieces _ (Nat.lt_succ_self _)

/-- A filled template has a length for its characters and the length of the text at each place. -/
theorem exists_length_fill (pieces : List Piece) : ∃ lits places : Nat,
    (∀ value, (fill value pieces).length = lits + places * value.length) ∧
      (.symbol ∈ pieces → 0 < places) := by
  induction pieces with
  | nil => exact ⟨0, 0, by simp [fill], by simp⟩
  | cons p pieces ih =>
    obtain ⟨lits, places, hlength, hpos⟩ := ih
    have hcons : ∀ value, (fill value (p :: pieces)).length
        = (p.filling value).length + (fill value pieces).length := by simp [fill]
    cases p with
    | lit c =>
      refine ⟨lits + 1, places, fun value => ?_, fun h => hpos ?_⟩
      · rw [hcons, hlength, Piece.filling, List.length_singleton]
        omega
      · exact (List.mem_cons.1 h).resolve_left nofun
    | symbol =>
      refine ⟨lits, places + 1, fun value => ?_, fun _ => Nat.succ_pos _⟩
      rw [hcons, hlength, Piece.filling, Nat.succ_mul]
      omega

/-- Where the symbol has a place, different texts fill a template differently. -/
theorem fill_inj {value' : List Char} (hsymbol : .symbol ∈ pieces)
    (h : fill value pieces = fill value' pieces) : value = value' := by
  obtain ⟨lits, places, hfill, hpos⟩ := exists_length_fill pieces
  -- Fillings of one length come from texts of one length, and then they can be cut at each piece.
  have hlength : value.length = value'.length := by
    have hlengths := congrArg List.length h
    rw [hfill, hfill, Nat.add_left_cancel_iff] at hlengths
    exact Nat.eq_of_mul_eq_mul_left (hpos hsymbol) hlengths
  clear hfill hpos
  induction pieces with
  | nil => cases hsymbol
  | cons p pieces ih =>
    have hlengths : (p.filling value).length = (p.filling value').length := by
      cases p with
      | lit => rfl
      | symbol => exact hlength
    obtain ⟨hfirst, hrest⟩ := List.append_inj h hlengths
    cases p with
    | symbol => exact hfirst
    | lit => exact ih ((List.mem_cons.1 hsymbol).resolve_left nofun) hrest

end Crossing.Text.Template
