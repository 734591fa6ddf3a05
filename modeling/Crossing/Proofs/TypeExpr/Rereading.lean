import Mathlib
import Crossing.Proofs.TypeExpr.Completeness
import Crossing.Proofs.TypeExpr.Spelling

/-!
# Reading what was rendered

What a tree is rendered as is read as the tree again, with its literal lengths spelled as their values,
if the tree was read and rendering keeps its shape (`parse_render`). Each rule of the grammar carries over
to the rendered texts; what has to be seen is that in a greedy derivation the marks stay where they
were, for which the right end of each type is followed along (`Rereads`).
-/

namespace Crossing.TypeExpr

open Token (Spells Seals Parts seals_nil seals_mark parts_mark spells_of_lexeme lexeme_keyword)
open TypeExpr.Parser (Arguments Bounds)

/-- The text is that of a derivation. -/
def Written (c : Category) (x : c.Tree) (s : String) (e : Ends) : Prop :=
  ∃ w, Derives true c x w e ∧ Spells s w

/-- What the type is rendered as is derived again, and ends as the type does. -/
def Rereads (t : TypeExpr) : Prop :=
  ∃ e, Written .type t.canonical t.render e ∧ e.plus = t.endsBounded

section Fixed

theorem isSpace_of_mem : ∀ c ∈ [' '], Token.isSpace c = true := List.forall_mem_singleton.2 rfl

theorem parts_comma : Parts ", " [.mark .comma] :=
  parts_mark .comma [] [' '] rfl nofun isSpace_of_mem

theorem parts_plus : Parts " + " [.mark .plus] :=
  parts_mark .plus [' '] [' '] rfl isSpace_of_mem isSpace_of_mem

theorem parts_openParen : Parts "(" [.mark .openParen] :=
  parts_mark .openParen [] [] rfl nofun nofun

theorem parts_closeParen : Parts ")" [.mark .closeParen] :=
  parts_mark .closeParen [] [] rfl nofun nofun

theorem seals_if (b : Bool) {s : String} {w : List Token} (h : Seals s w) :
    Seals (if b then s else "") (if b then w else []) := by
  cases b with
  | false => exact seals_nil
  | true => exact h

end Fixed

section Items

/-- Types with commas between them. -/
theorem written_types {ts : List TypeExpr} (hne : ts ≠ []) (h : ∀ t ∈ ts, Rereads t) :
    ∃ e, Written .types (canonicalList ts) (", ".intercalate (renderList ts)) e := by
  induction ts with
  | nil => exact absurd rfl hne
  | cons t ts ih =>
    obtain ⟨⟨e, ⟨w, hw, hs⟩, -⟩, hts⟩ := List.forall_mem_cons.1 h
    cases ts with
    | nil => exact ⟨_, w, .lastType hw, by simpa [renderList] using hs⟩
    | cons u us =>
      obtain ⟨es, ws, hws, hss⟩ := ih (List.cons_ne_nil _ _) hts
      refine ⟨_, _, .moreTypes hw hws, ?_⟩
      simpa [renderList] using hs.intercalate parts_comma hss

theorem written_inputs {ts : List TypeExpr} (h : ∀ t ∈ ts, Rereads t) :
    ∃ e, Written .inputs (canonicalList ts) (", ".intercalate (renderList ts)) e := by
  by_cases hne : ts = []
  · subst hne
    exact ⟨_, [], .noInputs, seals_nil.spells⟩
  · obtain ⟨e, w, hw, hs⟩ := written_types hne h
    exact ⟨_, w, .someInputs hw, hs⟩

theorem written_result {r : Option TypeExpr} (h : ∀ t ∈ r, Rereads t) :
    ∃ e, Written .result (canonicalOption r) (renderResult r) e ∧ e.plus = endsBoundedOption r
      ∧ (r = none → e.separator = false) := by
  cases r with
  | none => exact ⟨_, ⟨[], .noResult, seals_nil.spells⟩, rfl, fun _ => rfl⟩
  | some t =>
    obtain ⟨e, ⟨w, hw, hs⟩, hplus⟩ := h t rfl
    have harrow : Parts " -> " [.mark .arrow] :=
      parts_mark .arrow [' '] [' '] rfl isSpace_of_mem isSpace_of_mem
    exact ⟨e, ⟨_, .someResult hw, harrow.1.append_spells hs⟩, hplus, nofun⟩

/-- Arguments of any kinds with commas between them. -/
theorem written_arguments {items : List (Arguments × String)} (hne : items ≠ [])
    (h : ∀ i ∈ items, ∃ e, Written .argument i.1 i.2 e) :
    ∃ e, Written .arguments ((items.map (·.1)).foldr joinArguments ⟨[], [], []⟩)
      (", ".intercalate (items.map (·.2))) e := by
  induction items with
  | nil => exact absurd rfl hne
  | cons i items ih =>
    obtain ⟨⟨e, w, hw, hs⟩, hitems⟩ := List.forall_mem_cons.1 h
    cases items with
    | nil =>
      have hjoin : joinArguments i.1 ⟨[], [], []⟩ = i.1 := by simp [joinArguments]
      refine ⟨.closed, w, ?_, by simpa using hs⟩
      rw [List.map_singleton, List.foldr_cons, List.foldr_nil, hjoin]
      exact .lastArgument hw
    | cons j items =>
      obtain ⟨es, ws, hws, hss⟩ := ih (List.cons_ne_nil _ _) hitems
      refine ⟨_, _, .moreArguments hw hws, ?_⟩
      simpa using hs.intercalate parts_comma hss

end Items

section Types

variable {t : TypeExpr} {ts : List TypeExpr}

theorem rereads_reference {l : Option String} {m : Bool} (hl : ∀ l' ∈ l, IsSpelledLifetime l')
    (h : Rereads t) : Rereads (.reference l m t) := by
  obtain ⟨e, ⟨w, hw, hs⟩, hplus⟩ := h
  refine ⟨e, ⟨_, .reference hw, ?_⟩, hplus⟩
  have hopen : Seals "&" [.mark .ampersand] := seals_mark .ampersand rfl
  have hmutable := seals_if m ((lexeme_keyword .mutable).seals (s := "mut ") rfl)
  cases l with
  | none =>
    rw [render]
    exact ((hopen.append seals_nil).append hmutable).append_spells hs
  | some l =>
    have hlifetime : Seals (l ++ " ") [.lifetime l] := (hl l rfl).seals (by simp)
    rw [render]
    exact ((hopen.append hlifetime).append hmutable).append_spells hs

theorem rereads_pointer {m : Bool} (h : Rereads t) : Rereads (.pointer m t) := by
  obtain ⟨e, ⟨w, hw, hs⟩, hplus⟩ := h
  refine ⟨e, ⟨_, .pointer hw, ?_⟩, hplus⟩
  have hstar : Seals "*" [.mark .star] := seals_mark .star rfl
  have hkeyword : Seals (if m then "*mut " else "*const ")
      [.mark .star, .keyword (if m then .mutable else .constant)] := by
    cases m with
    | false => exact hstar.append ((lexeme_keyword .constant).seals (s := "const ") rfl)
    | true => exact hstar.append ((lexeme_keyword .mutable).seals (s := "mut ") rfl)
  rw [render]
  exact hkeyword.append_spells hs

theorem spells_bracketed {s : String} {w : List Token} (hs : Spells s w) :
    Spells ("[" ++ s) (.mark .openBracket :: w) := by
  have hopen : Seals "[" [.mark .openBracket] := seals_mark .openBracket rfl
  exact hopen.append_spells hs

theorem parts_closeBracket : Parts "]" [.mark .closeBracket] :=
  parts_mark .closeBracket [] [] rfl nofun nofun

theorem rereads_slice (h : Rereads t) : Rereads (.slice t) := by
  obtain ⟨e, ⟨w, hw, hs⟩, -⟩ := h
  refine ⟨.closed, ⟨_, .slice hw, ?_⟩, rfl⟩
  rw [render]
  exact ((spells_bracketed hs).append parts_closeBracket).spells

theorem exists_length (n : ArrayLength) (hn : ∀ name, n = .named name → IsSpelledName name) :
    ∃ token, lengthOf? token = some (canonicalLength n) ∧ Spells (lengthText n) [token] := by
  cases n with
  | literal n text =>
    refine ⟨.number (toString n), ?_, spells_of_lexeme (Token.lexeme_toString n)⟩
    rw [lengthOf?, Token.numberValue_toString, canonicalLength]
  | named name => exact ⟨.name name, rfl, spells_of_lexeme (hn name rfl)⟩

theorem rereads_array {n : ArrayLength} (hn : ∀ name, n = .named name → IsSpelledName name)
    (h : Rereads t) : Rereads (.array t n) := by
  obtain ⟨e, ⟨w, hw, hs⟩, -⟩ := h
  obtain ⟨token, htoken, hlength⟩ := exists_length n hn
  refine ⟨.closed, ⟨_, .array hw htoken, ?_⟩, rfl⟩
  have hsemicolon : Parts "; " [.mark .semicolon] :=
    parts_mark .semicolon [] [' '] rfl nofun isSpace_of_mem
  have hopen := ((spells_bracketed hs).append hsemicolon).append_spells hlength
  rw [render]
  simpa using (hopen.append parts_closeBracket).spells

theorem rereads_tuple (h : ∀ t ∈ ts, Rereads t) : Rereads (.tuple ts) := by
  have hopen : Seals "(" [.mark .openParen] := parts_openParen.1
  match ts with
  | [] =>
    refine ⟨.closed, ⟨_, .unit, ?_⟩, rfl⟩
    exact (hopen.append parts_closeParen.1).spells
  | [t] =>
    obtain ⟨e, ⟨w, hw, hs⟩, -⟩ := h t List.mem_cons_self
    refine ⟨.closed, ⟨_, .single hw, ?_⟩, rfl⟩
    have hclose : Parts ("," ++ ")") ([.mark .comma] ++ [.mark .closeParen]) :=
      (parts_mark .comma [] [] rfl nofun nofun).append parts_closeParen.1
    rw [render]
    exact ((hopen.append_spells hs).append hclose).spells
  | t :: u :: us =>
    obtain ⟨⟨e, ⟨w, hw, hs⟩, -⟩, hothers⟩ := List.forall_mem_cons.1 h
    obtain ⟨es, ws, hws, hss⟩ := written_types (List.cons_ne_nil u us) hothers
    refine ⟨.closed, ⟨_, .tuple hw hws, ?_⟩, rfl⟩
    have hall := hs.intercalate parts_comma hss
    have htext : render (.tuple (t :: u :: us))
      = "(" ++ ", ".intercalate (renderList (t :: u :: us)) ++ ")" := rfl
    rw [htext]
    simpa [renderList] using ((hopen.append_spells hall).append parts_closeParen).spells

theorem rereads_function {isUnsafe : Bool} {abi : Option String} {r : Option TypeExpr}
    (habi : ∀ a ∈ abi, '"' ∉ a.toList) (hts : ∀ t ∈ ts, Rereads t) (hr : ∀ t ∈ r, Rereads t) :
    Rereads (.function isUnsafe abi ts r) := by
  obtain ⟨ep, wp, hwp, hsp⟩ := written_inputs hts
  obtain ⟨er, ⟨wr, hwr, hsr⟩, hplus, -⟩ := written_result hr
  have hunchecked := seals_if isUnsafe ((lexeme_keyword .unchecked).seals (s := "unsafe ") rfl)
  have hword : Spells "fn" [.keyword .function] := spells_of_lexeme (lexeme_keyword .function)
  have hopen : Seals "fn(" [.keyword .function, .mark .openParen] := hword.append parts_openParen
  cases abi with
  | none =>
    refine ⟨er, ⟨_, .function .default hwp hwr, ?_⟩, hplus⟩
    have hhead := ((hunchecked.append seals_nil).append hopen).append_spells hsp
    rw [render]
    simpa using (hhead.append parts_closeParen).append_spells hsr
  | some a =>
    refine ⟨er, ⟨_, .function (.named a) hwp hwr, ?_⟩, hplus⟩
    have hextern : Seals "extern " [.keyword .abi] := (lexeme_keyword .abi).seals rfl
    have hquoted : Seals ("\"" ++ a ++ "\" ") [.quoted a] :=
      (Token.lexeme_quoted (habi a rfl)).seals (by simp)
    have hconvention : Seals ("extern \"" ++ a ++ "\" ") [.keyword .abi, .quoted a] := by
      have htext : "extern \"" ++ a ++ "\" " = "extern " ++ ("\"" ++ a ++ "\" ") :=
        String.toList_injective (by simp)
      rw [htext]
      exact hextern.append hquoted
    have hhead := ((hunchecked.append hconvention).append hopen).append_spells hsp
    rw [render]
    simpa using (hhead.append parts_closeParen).append_spells hsr

end Types

section Paths

theorem foldr_lifetimes (ls : List String) (a : Arguments) :
    (ls.map fun l => (⟨[], [l], []⟩ : Arguments)).foldr joinArguments a
      = ⟨a.types, ls ++ a.lifetimes, a.consts⟩ := by
  induction ls with
  | nil => rfl
  | cons l ls ih => simp [ih, joinArguments]

theorem foldr_types (ts : List TypeExpr) (a : Arguments) :
    (ts.map fun t => (⟨[t], [], []⟩ : Arguments)).foldr joinArguments a
      = ⟨ts ++ a.types, a.lifetimes, a.consts⟩ := by
  induction ts with
  | nil => rfl
  | cons t ts ih => simp [ih, joinArguments]

theorem foldr_consts (cs : List String) (a : Arguments) :
    (cs.map fun n => (⟨[], [], [n]⟩ : Arguments)).foldr joinArguments a
      = ⟨a.types, a.lifetimes, cs ++ a.consts⟩ := by
  induction cs with
  | nil => rfl
  | cons c cs ih => simp [ih, joinArguments]

/-- The arguments are rendered by kind, which keeps the order within each kind. -/
theorem written_kinds {ts : List TypeExpr} {ls cs : List String} (hne : ls ++ renderList ts ++ cs ≠ [])
    (hts : ∀ t ∈ ts, Rereads t) (hls : ∀ l ∈ ls, IsSpelledLifetime l)
    (hcs : ∀ n ∈ cs, IsSpelledNumber n) :
    ∃ e, Written .arguments ⟨canonicalList ts, ls, cs⟩
      (", ".intercalate (ls ++ renderList ts ++ cs)) e := by
  let items : List (Arguments × String) := ls.map (fun l => (⟨[], [l], []⟩, l))
    ++ ts.map (fun t => (⟨[t.canonical], [], []⟩, t.render)) ++ cs.map (fun n => (⟨[], [], [n]⟩, n))
  have htexts : items.map (·.2) = ls ++ renderList ts ++ cs := by
    simp [items, renderList_eq_map, Function.comp_def]
  have htrees : (items.map (·.1)).foldr joinArguments ⟨[], [], []⟩ = ⟨canonicalList ts, ls, cs⟩ := by
    have htypes := foldr_types (ts.map canonical) ⟨[], [], cs⟩
    rw [List.map_map] at htypes
    simp only [items, List.map_append, List.map_map, List.foldr_append, Function.comp_def]
    rw [foldr_consts, List.append_nil, canonicalList_eq_map]
    simp only [Function.comp_def] at htypes
    rw [htypes, foldr_lifetimes]
    simp
  rw [← htexts, ← htrees]
  refine written_arguments (fun hnil => hne (by rw [← htexts, hnil]; rfl)) fun i hi => ?_
  simp only [items, List.mem_append, List.mem_map] at hi
  rcases hi with (⟨l, hl, rfl⟩ | ⟨t, ht, rfl⟩) | ⟨n, hn, rfl⟩
  · exact ⟨_, _, .lifetimeArgument, spells_of_lexeme (hls l hl)⟩
  · obtain ⟨e, ⟨w, hw, hs⟩, -⟩ := hts t ht
    exact ⟨e, w, .typeArgument hw, hs⟩
  · exact ⟨_, _, .constArgument, spells_of_lexeme (hcs n hn)⟩

/-- A segment without a result does not take the separator behind it. -/
theorem written_segment {s : Segment TypeExpr} (hspelled : IsSpelledSegment s)
    (h : ∀ t ∈ s.inner, Rereads t) : ∃ e, Written .segment (canonicalSegment s) (renderSegment s) e
      ∧ e.plus = endsBoundedSegment s ∧ (s.ret = none → e.separator = false) := by
  cases s with
  | plain name ts ls cs =>
    obtain ⟨hname, hls, hcs⟩ := hspelled
    by_cases hne : ls ++ renderList ts ++ cs = []
    · obtain ⟨rfl, hts, rfl⟩ : ls = [] ∧ renderList ts = [] ∧ cs = [] := by simpa using hne
      obtain rfl : ts = [] := by simpa [renderList_eq_map] using hts
      exact ⟨_, ⟨_, .name, spells_of_lexeme hname⟩, rfl, fun _ => rfl⟩
    · have hts : ∀ t ∈ ts, Rereads t := fun t ht => h t (List.mem_append_left _ ht)
      obtain ⟨e, w, hw, hs⟩ := written_kinds hne hts hls hcs
      refine ⟨_, ⟨_, .generic hw, ?_⟩, rfl, fun _ => rfl⟩
      have hopen : Parts "<" [.mark .less] := parts_mark .less [] [] rfl nofun nofun
      have hclose : Parts ">" [.mark .greater] := parts_mark .greater [] [] rfl nofun nofun
      have hhead := ((spells_of_lexeme hname).append hopen).append_spells hs
      rw [renderSegment, withArguments, if_neg (by simpa [List.isEmpty_iff] using hne)]
      exact (hhead.append hclose).spells
  | call name ts r =>
    have hts : ∀ t ∈ ts, Rereads t := fun t ht => h t (List.mem_append_left _ ht)
    have hr : ∀ t ∈ r, Rereads t := fun t ht =>
      h t (List.mem_append_right _ (Option.mem_toList.2 ht))
    obtain ⟨ep, wp, hwp, hsp⟩ := written_inputs hts
    obtain ⟨er, ⟨wr, hwr, hsr⟩, hplus, hseparator⟩ := written_result hr
    refine ⟨er, ⟨_, .call hwp hwr, ?_⟩, hplus, hseparator⟩
    have hhead := ((spells_of_lexeme hspelled).append parts_openParen).append_spells hsp
    rw [renderSegment]
    simpa using (hhead.append parts_closeParen).append_spells hsr

theorem written_path {ss : List (Segment TypeExpr)} (hspelled : WellSpelled (.path ss))
    (hshape : KeepsShape (.path ss)) (h : ∀ s ∈ ss, ∀ t ∈ s.inner, Rereads t) :
    ∃ e, Written .path (canonicalPath ss) (renderPath ss) e ∧ e.plus = endsBoundedPath ss := by
  obtain ⟨hne, hspelled⟩ := hspelled
  suffices ∃ e, Written .segments (canonicalPath ss) (renderPath ss) e ∧ e.plus = endsBoundedPath ss by
    obtain ⟨e, ⟨w, hw, hs⟩, hplus⟩ := this
    exact ⟨e, ⟨w, .unrooted hw, hs⟩, hplus⟩
  induction ss with
  | nil => exact absurd rfl hne
  | cons s ss ih =>
    obtain ⟨hs, hss⟩ := List.forall_mem_cons.1 hspelled
    obtain ⟨hinner, hothers⟩ := List.forall_mem_cons.1 h
    obtain ⟨e, ⟨w, hw, htext⟩, hplus, hseparator⟩ := written_segment hs hinner
    cases ss with
    | nil => exact ⟨_, ⟨w, .lastSegment hw, htext⟩, hplus⟩
    | cons s' ss =>
      have hshape : ∀ r ∈ s :: (s' :: ss).dropLast, r.ret = none := hshape
      obtain ⟨hret, hshape⟩ := List.forall_mem_cons.1 hshape
      obtain ⟨es, ⟨ws, hws, htexts⟩, hplus⟩ := ih hshape hothers nofun hss
      refine ⟨es, ⟨_, .moreSegments hw (fun _ => hseparator hret) hws, ?_⟩, hplus⟩
      have hbetween : Parts "::" [.mark .pathSep] := parts_mark .pathSep [] [] rfl nofun nofun
      simpa [renderPath] using (htext.append hbetween).append_spells htexts

end Paths

section Bounds

/-- Lifetimes with plus signs between them. -/
theorem written_lifetimes {ls : List String} (hne : ls ≠ []) (h : ∀ l ∈ ls, IsSpelledLifetime l) :
    ∃ e, Written .bounds ⟨[], ls⟩ (" + ".intercalate ls) e ∧ e.plus = true := by
  induction ls with
  | nil => exact absurd rfl hne
  | cons l ls ih =>
    obtain ⟨hl, hls⟩ := List.forall_mem_cons.1 h
    have hspells : Spells l [.lifetime l] := spells_of_lexeme hl
    cases ls with
    | nil => exact ⟨_, ⟨_, .lastBound .lifetimeBound, by simpa using hspells⟩, rfl⟩
    | cons l' ls =>
      obtain ⟨es, ⟨ws, hws, hss⟩, hplus⟩ := ih nofun hls
      exact ⟨es, ⟨_, .moreBounds .lifetimeBound (fun _ => rfl) hws,
        by simpa using hspells.intercalate parts_plus hss⟩, hplus⟩

theorem written_bounds {bs : List (List (Segment TypeExpr))} {ls : List String}
    (hne : bs ≠ [] ∨ ls ≠ [])
    (hbs : ∀ b ∈ bs, ∃ e, Written .path (canonicalPath b) (renderPath b) e ∧ e.plus = endsBoundedPath b)
    (hls : ∀ l ∈ ls, IsSpelledLifetime l)
    (hinner : ∀ b ∈ (if ls = [] then bs.dropLast else bs), endsBoundedPath b = false) :
    ∃ e, Written .bounds ⟨canonicalBounds bs, ls⟩ (" + ".intercalate (renderBounds bs ++ ls)) e
      ∧ e.plus = true := by
  induction bs with
  | nil => exact written_lifetimes (hne.resolve_left (· rfl)) hls
  | cons b bs ih =>
    obtain ⟨⟨e, ⟨w, hw, hs⟩, hplus⟩, hothers⟩ := List.forall_mem_cons.1 hbs
    by_cases hlast : bs = [] ∧ ls = []
    · obtain ⟨rfl, rfl⟩ := hlast
      exact ⟨_, ⟨w, .lastBound (.pathBound hw), by simpa [renderBounds] using hs⟩, rfl⟩
    · have hends : endsBoundedPath b = false := by
        refine hinner b ?_
        cases bs <;> cases ls <;> simp at hlast ⊢
      have hinner' : ∀ b ∈ (if ls = [] then bs.dropLast else bs), endsBoundedPath b = false := by
        intro c hc
        refine hinner c ?_
        cases bs <;> cases ls <;> simp at hlast hc ⊢ <;> grind
      obtain ⟨es, ⟨ws, hws, hss⟩, hplus'⟩ := ih (by grind) hothers hinner'
      obtain ⟨s, ss, htexts⟩ : ∃ s ss, renderBounds bs ++ ls = s :: ss :=
        List.exists_cons_of_ne_nil (by cases bs <;> cases ls <;> simp [renderBounds] at hlast ⊢)
      refine ⟨es, ⟨_, .moreBounds (.pathBound hw) (fun _ => hplus.trans hends) hws, ?_⟩, hplus'⟩
      rw [htexts] at hss
      rw [renderBounds, List.cons_append, htexts]
      simpa using hs.intercalate parts_plus hss

end Bounds

/-- Every tree that is spelled and keeps its shape is derived again from what it is rendered as. -/
theorem rereads (t : TypeExpr) (hspelled : t.Everywhere WellSpelled) (hshape : t.Everywhere KeepsShape) :
    Rereads t := by
  induction t using parts_induction with
  | path ss ih =>
    obtain ⟨hself, hspelled⟩ := Everywhere.path_iff.1 hspelled
    obtain ⟨hkeeps, hshape⟩ := Everywhere.path_iff.1 hshape
    obtain ⟨e, ⟨w, hw, hs⟩, hplus⟩ := written_path hself hkeeps fun s hs t ht =>
      ih s hs t ht (hspelled s hs t ht) (hshape s hs t ht)
    exact ⟨e, ⟨w, .path hw, hs⟩, hplus⟩
  | reference l m t ih =>
    obtain ⟨hself, hspelled⟩ := Everywhere.reference_iff.1 hspelled
    exact rereads_reference hself (ih hspelled (Everywhere.reference_iff.1 hshape).2)
  | pointer m t ih =>
    exact rereads_pointer
      (ih (Everywhere.pointer_iff.1 hspelled).2 (Everywhere.pointer_iff.1 hshape).2)
  | slice t ih =>
    exact rereads_slice (ih (Everywhere.slice_iff.1 hspelled).2 (Everywhere.slice_iff.1 hshape).2)
  | array t n ih =>
    obtain ⟨hself, hspelled⟩ := Everywhere.array_iff.1 hspelled
    refine rereads_array ?_ (ih hspelled (Everywhere.array_iff.1 hshape).2)
    rintro name rfl
    exact hself
  | tuple ts ih =>
    obtain ⟨-, hspelled⟩ := Everywhere.tuple_iff.1 hspelled
    obtain ⟨-, hshape⟩ := Everywhere.tuple_iff.1 hshape
    exact rereads_tuple fun t ht => ih t ht (hspelled t ht) (hshape t ht)
  | function isUnsafe abi ps r ihp ihr =>
    obtain ⟨hself, hps, hr⟩ := Everywhere.function_iff.1 hspelled
    obtain ⟨-, hps', hr'⟩ := Everywhere.function_iff.1 hshape
    exact rereads_function hself (fun t ht => ihp t ht (hps t ht) (hps' t ht))
      fun t ht => ihr t ht (hr t ht) (hr' t ht)
  | bounded k bs ls ih =>
    obtain ⟨hls, hbs⟩ := Everywhere.bounded_iff.1 hspelled
    obtain ⟨⟨hne, hinner⟩, hbs'⟩ := Everywhere.bounded_iff.1 hshape
    have hpaths : ∀ b ∈ bs, ∃ e,
        Written .path (canonicalPath b) (renderPath b) e ∧ e.plus = endsBoundedPath b := by
      intro b hb
      obtain ⟨hself, hspelled⟩ := Everywhere.path_iff.1 (hbs b hb)
      obtain ⟨hkeeps, hshape⟩ := Everywhere.path_iff.1 (hbs' b hb)
      exact written_path hself hkeeps fun s hs t ht =>
        ih b hb s hs t ht (hspelled s hs t ht) (hshape s hs t ht)
    obtain ⟨e, ⟨w, hw, hs⟩, hplus⟩ := written_bounds hne hpaths hls hinner
    refine ⟨e, ⟨_, .bounded hw, ?_⟩, hplus⟩
    rw [render]
    cases k with
    | object => exact ((lexeme_keyword .object).seals (s := "dyn ") rfl).append_spells hs
    | anonymous => exact ((lexeme_keyword .anonymous).seals (s := "impl ") rfl).append_spells hs
  | never => exact ⟨_, ⟨_, .never, (seals_mark .bang rfl).spells⟩, rfl⟩
  | infer => exact ⟨_, ⟨_, .infer, spells_of_lexeme (lexeme_keyword .underscore)⟩, rfl⟩
  | macroCall s | unparsed s => exact hspelled.self.elim

/-- A text that is no type is read as itself, without the blanks at its ends unless it is blank. -/
theorem parse_of_not_isStructured {text : String} (h : ¬ (parse text).IsStructured) :
    ∃ s, (parse text = .macroCall s ∨ parse text = .unparsed s) ∧ parse s = parse text := by
  cases hempty : (Text.strip text.toList).isEmpty with
  | true => exact ⟨text, .inr (by simp [parse, hempty]), rfl⟩
  | false =>
    have hagain : parse (String.ofList (Text.strip text.toList)) = parse text := by
      have hstrip : Text.strip (Text.strip text.toList) = Text.strip text.toList :=
        Text.trim_trim Text.isBlank _
      simp [parse, hempty, hstrip]
    refine ⟨_, ?_, hagain⟩
    cases hread : parse? (Text.strip text.toList) with
    | none => by_cases hmacro : Parser.holdsMacro (Text.strip text.toList) <;>
        simp [parse, hempty, hread, hmacro]
    | some t =>
      obtain ⟨tokens, e, -, hderives⟩ := parse?_eq_some_iff.1 hread
      have htree : parse text = t := by simp [parse, hempty, hread]
      exact absurd (htree ▸ isStructured_of_derives hderives) h

/-- Reading undoes rendering, up to the spelling of literal lengths: for every text that is no type, and
for every type in which no result is followed by another segment, no bounded type is without bounds and
no bound with another one or a lifetime behind it ends with a bounded type. -/
theorem parse_render (text : String)
    (h : (parse text).IsStructured → (parse text).Everywhere KeepsShape) :
    parse (parse text).render = (parse text).canonical := by
  by_cases hstructured : (parse text).IsStructured
  · obtain ⟨tokens, e, hlexes, hderives⟩ := parse_eq_iff.1 ⟨rfl, hstructured⟩
    have hspelled : (parse text).Everywhere WellSpelled :=
      wellSpelled_of_derives hderives hlexes.isSpelled
    obtain ⟨e, ⟨w, hw, hs⟩, -⟩ := rereads _ hspelled (h hstructured)
    exact (parse_eq_iff.2 ⟨w, e, hs.lexes.strip, hw⟩).1
  · obtain ⟨s, htree, hagain⟩ := parse_of_not_isStructured hstructured
    rcases htree with htree | htree
    · rw [htree] at hagain ⊢
      exact hagain
    · rw [htree] at hagain ⊢
      exact hagain

/-- The arguments are rendered with the lifetime first, the bounded type without its parentheses and
the length as its value. -/
theorem parse_render_map :
    let text := "Map<[u8; 1_6], (dyn Fn(u8) -> (&T) + Send), 'a>"
    ((parse text).IsStructured ∧ (parse text).Everywhere KeepsShape)
      ∧ (parse text).render = "Map<'a, [u8; 16], dyn Fn(u8) -> &T + Send>"
      ∧ parse (parse text).render = (parse text).canonical ∧ (parse text).canonical ≠ parse text := by
  intro text
  have hkeeps : (parse text).Everywhere KeepsShape := by decide +kernel
  have hpath : (parse text).segments ≠ [] := by decide +kernel
  have hstructured : (parse text).IsStructured := by
    constructor <;> intro s hs <;> exact hpath (by rw [hs]; rfl)
  exact ⟨⟨hstructured, hkeeps⟩, by decide +kernel, parse_render text fun _ => hkeeps,
    by decide +kernel⟩

example : parse (parse "dyn Fn() -> (dyn A) + B").render
    ≠ (parse "dyn Fn() -> (dyn A) + B").canonical := by decide +kernel

end Crossing.TypeExpr
