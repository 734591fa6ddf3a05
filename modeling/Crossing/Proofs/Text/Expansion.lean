import Crossing.Findings
import Crossing.Proofs.Text.Template

/-!
# What a template comes to

`Fills` says piece by piece what a template comes to, and bounds nothing but how deeply fields nest.
The expansion counts its pieces down besides, but there are never more of them than characters, so
the count never runs out: a template expands exactly to what fills it (`expand_eq_ok_iff`).
-/

namespace Crossing.Text.Template

/-- `shown` is what stands for a field in the given width. -/
def Shows (value : List Char) (f : Field) (width shown : List Char) : Prop :=
  ∃ found said, lookup value f.name = .ok found ∧ convert found f.conversion = .ok said ∧
    render said width = .ok shown

/-- `text` is what a template comes to with `value` for its symbol, where at most `depth` fields
stand inside each other. -/
inductive Fills (value : List Char) : Nat → List Char → List Char → Prop where
  | nil {depth : Nat} : Fills value (depth + 1) [] []
  | char {depth : Nat} {c : Char} {template text : List Char} (plain : c ≠ '\x7b' ∧ c ≠ '\x7d')
      (rest : Fills value (depth + 1) template text) :
      Fills value (depth + 1) (c :: template) (c :: text)
  /-- A brace that is written twice. -/
  | brace {depth : Nat} {c : Char} {template text : List Char} (brace : c = '\x7b' ∨ c = '\x7d')
      (rest : Fills value (depth + 1) template text) :
      Fills value (depth + 1) (c :: c :: template) (c :: text)
  | field {depth : Nat} {f : Field} {template behind shown text : List Char}
      (reads : field template = .ok (f, behind)) (flat : f.nested = false)
      (shows : Shows value f f.width shown) (rest : Fills value (depth + 1) behind text) :
      Fills value (depth + 1) ('\x7b' :: template) (shown ++ text)
  /-- A field whose width holds fields itself. -/
  | nested {depth : Nat} {f : Field} {template behind width shown text : List Char}
      (reads : Template.field template = .ok (f, behind)) (nested : f.nested = true)
      (fills : Fills value depth f.width width) (shows : Shows value f width shown)
      (rest : Fills value (depth + 1) behind text) :
      Fills value (depth + 1) ('\x7b' :: template) (shown ++ text)

variable {value : List Char}

section Lengths

theorem length_fieldName {inside : Bool} {s name rest : List Char} {stop : NameEnd}
    (h : fieldName inside s = .ok (name, stop, rest)) : rest.length < s.length := by
  induction s generalizing inside name with
  | nil => cases inside <;> cases h
  | cons c s ih =>
    have hmore : ∀ inside, (fieldName inside s >>= fun found => pure (c :: found.1, found.2))
        = Except.ok (name, stop, rest) → rest.length < (c :: s).length := by
      intro inside h
      obtain ⟨⟨name', _⟩, hs, h⟩ := Findings.exists_of_bind h
      obtain ⟨-, rfl⟩ := Prod.mk.inj (Except.ok.inj h)
      exact Nat.lt_succ_of_lt (ih hs)
    cases inside with
    | true => exact hmore _ h
    | false =>
      unfold fieldName at h
      split at h
      · cases h
      iterate 3
        split at h
        · obtain ⟨-, -, rfl⟩ : _ ∧ _ ∧ s = rest := by simpa using h
          exact Nat.lt_succ_self _
      exact hmore _ h

theorem length_widthText {depth : Nat} {s width rest : List Char} {nested : Bool}
    (h : widthText depth s = .ok (width, nested, rest)) :
    width.length + rest.length < s.length := by
  induction s generalizing depth width nested with
  | nil => cases h
  | cons c s ih =>
    have hmore : ∀ depth (mark : Bool → Bool), (widthText depth s >>= fun found =>
        pure (c :: found.1, mark found.2.1, found.2.2)) = Except.ok (width, nested, rest) →
          width.length + rest.length < (c :: s).length := by
      intro depth mark h
      obtain ⟨found, hs, h⟩ := Findings.exists_of_bind h
      obtain ⟨rfl, hbehind⟩ := Prod.mk.inj (Except.ok.inj h)
      obtain ⟨-, rfl⟩ := Prod.mk.inj hbehind
      have hlt : found.1.length + found.2.2.length < s.length := ih hs
      simp only [List.length_cons]
      omega
    unfold widthText at h
    split at h
    · exact hmore _ (fun _ => true) h
    split at h
    · cases depth with
      | zero =>
        obtain ⟨rfl, -, rfl⟩ : [] = width ∧ false = nested ∧ s = rest := by simpa using h
        simp
      | succ depth => exact hmore _ id h
    · exact hmore _ id h

/-- A field is longer than its width text. -/
theorem length_field {s rest : List Char} {f : Field} (h : field s = .ok (f, rest)) :
    f.width.length + rest.length < s.length := by
  unfold field at h
  obtain ⟨⟨name, stop, behind⟩, hname, h⟩ := Findings.exists_of_bind h
  have hlt := length_fieldName hname
  have hwidth : ∀ {conversion : Option Char} {s' : List Char}, s'.length ≤ behind.length →
      (widthText 0 s' >>= fun found =>
        pure ((⟨name, conversion, found.1, found.2.1⟩ : Field), found.2.2)) = Except.ok (f, rest) →
      f.width.length + rest.length < s.length := by
    intro conversion s' hle h
    obtain ⟨⟨width, nested, rest'⟩, hs, h⟩ := Findings.exists_of_bind h
    obtain ⟨rfl, rfl⟩ := Prod.mk.inj (Except.ok.inj h)
    have hlt' := length_widthText hs
    simp only
    omega
  cases stop with
  | brace =>
    obtain ⟨rfl, rfl⟩ : (⟨name, none, [], false⟩ : Field) = f ∧ behind = rest := by
      simpa [pure, Except.pure] using h
    simpa using hlt
  | colon => exact hwidth (Nat.le_refl _) h
  | exclamation =>
    simp only at h
    split at h
    · cases h
    · rename_i conversion behind
      obtain ⟨rfl, rfl⟩ : (⟨name, some conversion, [], false⟩ : Field) = f ∧ behind = rest := by
        simpa [pure, Except.pure] using h
      simp only [List.length_cons, List.length_nil] at hlt ⊢
      omega
    · exact hwidth (by simp only [List.length_cons]; omega) h
    · cases h

end Lengths

section Expands

theorem exists_of_map {f : List Char → List Char} {x : Except Fault (List Char)} {text : List Char}
    (h : f <$> x = .ok text) : ∃ rest, x = .ok rest ∧ f rest = text := by
  cases x with
  | error => cases h
  | ok rest => exact ⟨rest, rfl, Except.ok.inj h⟩

/-- What the expansion takes for the width of a field. -/
def widthOf (value : List Char) (depth fuel : Nat) (f : Field) : Except Fault (List Char) :=
  if f.nested then expandFrom value depth fuel f.width else .ok f.width

/-- How a brace is expanded that opens a field. -/
theorem expandFrom_field {depth fuel : Nat} {template behind : List Char} {f : Field}
    (h : field template = .ok (f, behind)) :
    expandFrom value (depth + 1) (fuel + 1) ('\x7b' :: template) = (do
      let found ← lookup value f.name
      let said ← convert found f.conversion
      let width ← widthOf value depth fuel f
      let shown ← render said width
      (shown ++ ·) <$> expandFrom value (depth + 1) fuel behind) := by
  conv =>
    lhs
    unfold expandFrom
    rw [if_pos rfl]
  split
  · cases h
  · cases h
  · rw [h]
    unfold widthOf
    simp only [bind, Except.bind]
    cases f.nested <;> rfl

/-- What a template expands to fills it, whatever was counted down. -/
theorem fills_of_expandFrom {depth fuel : Nat} {template text : List Char}
    (h : expandFrom value depth fuel template = .ok text) : Fills value depth template text := by
  induction fuel generalizing depth template text with
  | zero => cases depth <;> cases h
  | succ fuel ih =>
    cases depth with
    | zero => cases h
    | succ depth =>
      cases template with
      | nil => exact Except.ok.inj h ▸ .nil
      | cons c template =>
        by_cases hopens : c = '\x7b'
        · subst hopens
          cases hreads : field template with
          | ok read =>
            obtain ⟨f, behind⟩ := read
            rw [expandFrom_field hreads] at h
            obtain ⟨found, hfound, h⟩ := Findings.exists_of_bind h
            obtain ⟨said, hsaid, h⟩ := Findings.exists_of_bind h
            obtain ⟨width, hwidth, h⟩ := Findings.exists_of_bind h
            obtain ⟨shown, hshown, h⟩ := Findings.exists_of_bind h
            obtain ⟨text, hrest, rfl⟩ := exists_of_map h
            have hshows : Shows value f width shown := ⟨found, said, hfound, hsaid, hshown⟩
            unfold widthOf at hwidth
            split at hwidth
            · rename_i hnested
              exact .nested hreads hnested (ih hwidth) hshows (ih hrest)
            · rename_i hflat
              obtain rfl := Except.ok.inj hwidth
              exact .field hreads (Bool.eq_false_iff.2 hflat) hshows (ih hrest)
          | error fault =>
            -- Only another brace can stand behind one that opens no field.
            unfold expandFrom at h
            rw [if_pos rfl] at h
            split at h
            · cases h
            · obtain ⟨text, hrest, rfl⟩ := exists_of_map h
              exact .brace (.inl rfl) (ih hrest)
            · rw [hreads] at h
              cases h
        · unfold expandFrom at h
          rw [if_neg hopens] at h
          split at h
          · rename_i hcloses
            subst hcloses
            split at h
            · obtain ⟨text, hrest, rfl⟩ := exists_of_map h
              exact .brace (.inr rfl) (ih hrest)
            · cases h
          · rename_i hcloses
            obtain ⟨text, hrest, rfl⟩ := exists_of_map h
            exact .char ⟨hopens, hcloses⟩ (ih hrest)

/-- What fills a template is what it expands to, if more is counted down than it has characters. -/
theorem Fills.expandFrom_eq {depth : Nat} {template text : List Char}
    (h : Fills value depth template text) {fuel : Nat} (hfuel : template.length < fuel) :
    expandFrom value depth fuel template = .ok text := by
  induction h generalizing fuel with
  | nil =>
    cases fuel with
    | zero => cases hfuel
    | succ fuel => rfl
  | @char depth c template text plain rest ih =>
    obtain ⟨fuel, rfl⟩ : ∃ n, fuel = n + 1 := ⟨fuel - 1, by omega⟩
    rw [List.length_cons, Nat.add_lt_add_iff_right] at hfuel
    simp only [expandFrom, if_neg plain.1, if_neg plain.2, ih hfuel]
    rfl
  | @brace depth c template text brace rest ih =>
    obtain ⟨fuel, rfl⟩ : ∃ n, fuel = n + 1 := ⟨fuel - 1, by omega⟩
    have hlt : template.length < fuel := by
      simp only [List.length_cons] at hfuel
      omega
    have hrest := ih hlt
    rcases brace with rfl | rfl <;> simp only [expandFrom, hrest] <;> rfl
  | @field depth f template behind shown text reads flat shows rest ih =>
    obtain ⟨fuel, rfl⟩ : ∃ n, fuel = n + 1 := ⟨fuel - 1, by omega⟩
    have hlength := length_field reads
    obtain ⟨found, said, hfound, hsaid, hshown⟩ := shows
    rw [List.length_cons, Nat.add_lt_add_iff_right] at hfuel
    have hwidth : widthOf value depth fuel f = .ok f.width := by simp [widthOf, flat]
    rw [expandFrom_field reads, hfound, hwidth, ih (by omega)]
    simp only [bind, Except.bind, hsaid, hshown]
    rfl
  | @nested depth f template behind width shown text reads nested fills shows rest ihwidth ih =>
    obtain ⟨fuel, rfl⟩ : ∃ n, fuel = n + 1 := ⟨fuel - 1, by omega⟩
    have hlength := length_field reads
    obtain ⟨found, said, hfound, hsaid, hshown⟩ := shows
    rw [List.length_cons, Nat.add_lt_add_iff_right] at hfuel
    have hwidth : widthOf value depth fuel f = .ok width := by
      rw [widthOf, if_pos nested, ihwidth (by omega)]
    rw [expandFrom_field reads, hfound, hwidth, ih (by omega)]
    simp only [bind, Except.bind, hsaid, hshown]
    rfl

end Expands

/-- A template expands to a text exactly if that fills it. -/
theorem expand_eq_ok_iff {template text : List Char} :
    expand template value = .ok text ↔ Fills value 2 template text :=
  ⟨fills_of_expandFrom, fun h => h.expandFrom_eq (Nat.lt_succ_self _)⟩

theorem fills_spell_iff {pieces : List Piece} {text : List Char} :
    Fills value 2 (spell pieces) text ↔ text = fill value pieces := by
  rw [← expand_eq_ok_iff, expand_spell, Except.ok.injEq, eq_comm]

end Crossing.Text.Template
