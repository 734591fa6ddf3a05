import Crossing.Proofs.Export.Collection
import Crossing.Proofs.Identifier.Words
import Crossing.Proofs.Related

/-!
# When two functions have one symbol

The symbol of an item is the snake case of its modules and its name, one after another. What it keeps
of them is a list of words, in which neither the ends of the parts nor their spelling can be seen
(`exportSymbol_eq_iff`). So two functions of a module tree get one symbol exactly when these lists are
the same (`symbols_differ_iff`), whatever their qualified names are: `makePoint` and `make_point`, or
`b` in a module `a` and `a_b` outside of it (`lookalikes_share_symbols`).
-/

namespace Crossing

namespace Identifier

/-- Some words, or an empty one where there are none. -/
def orBlank (ws : List (List Char)) : List (List Char) := if ws = [] then [[]] else ws

/-- What a symbol is spelled with: the words of the modules and of the name. A part that is not empty
and has no words, such as `_`, leaves an empty one. -/
def symbolWords (modulePath : List String) (name : String) : List (List Char) :=
  orBlank (((modulePath ++ [name]).filter fun part => !part.isEmpty).flatMap fun part =>
    orBlank (words part.toList))

section Blank

variable {ws vs : List (List Char)}

theorem orBlank_ne_nil (ws : List (List Char)) : orBlank ws ≠ [] := by
  unfold orBlank
  split
  · simp
  · assumption

theorem orBlank_of_ne_nil (h : ws ≠ []) : orBlank ws = ws := if_neg h

theorem joined_orBlank (separator : List Char) (ws : List (List Char)) :
    joined separator (orBlank ws) = joined separator ws := by
  unfold orBlank
  split
  · subst ws
    rfl
  · rfl

theorem not_mem_of_mem_orBlank {c : Char} (h : ∀ w ∈ ws, c ∉ w) : ∀ w ∈ orBlank ws, c ∉ w := by
  unfold orBlank
  split
  · simp
  · exact h

/-- Where no word is empty, the empty one stands for none. -/
theorem orBlank_inj (hws : [] ∉ ws) (hvs : [] ∉ vs) : orBlank ws = orBlank vs ↔ ws = vs := by
  refine ⟨fun h => ?_, congrArg orBlank⟩
  unfold orBlank at h
  split_ifs at h with hw hv hv
  · rw [hw, hv]
  · exact absurd (h ▸ List.mem_singleton_self []) hvs
  · exact absurd (h ▸ List.mem_singleton_self []) hws
  · exact h

end Blank

section Joined

variable {separator : List Char}

theorem joined_append {ws vs : List (List Char)} (hw : ws ≠ []) (hv : vs ≠ []) :
    joined separator (ws ++ vs) = joined separator ws ++ separator ++ joined separator vs := by
  unfold joined
  induction ws with
  | nil => exact absurd rfl hw
  | cons w ws ih =>
    by_cases hnil : ws = []
    · subst hnil
      simp [List.intercalate_cons_of_ne_nil hv]
    · rw [List.cons_append, List.intercalate_cons_of_ne_nil (by simp [hnil]), ih hnil,
        List.intercalate_cons_of_ne_nil hnil]
      simp only [List.append_assoc]

/-- Joining what was joined joins it all, as long as every group has something in it. -/
theorem joined_map_joined {α : Type} (f : α → List (List Char)) (hf : ∀ a, f a ≠ [])
    (as : List α) :
    joined separator (as.map fun a => joined separator (f a)) = joined separator (as.flatMap f) := by
  induction as with
  | nil => rfl
  | cons a as ih =>
    by_cases hnil : as = []
    · subst hnil
      simp [joined]
    · obtain ⟨b, hb⟩ := List.exists_mem_of_ne_nil _ hnil
      have hrest : as.flatMap f ≠ [] := fun h => hf b (List.flatMap_eq_nil_iff.1 h b hb)
      rw [List.flatMap_cons, joined_append (hf a) hrest, ← ih]
      exact List.intercalate_cons_of_ne_nil (by simpa using hnil)

end Joined

section Symbol

variable {path path' : List String} {name name' : String}

theorem exportSymbol_eq (path : List String) (name : String) :
    exportSymbol path name = String.ofList (joined ['_'] (symbolWords path name)) := by
  have hsnake (part : String) :
      toSnake part.toList = joined ['_'] (orBlank (words part.toList)) := by
    rw [joined_orBlank, toSnake]
  unfold exportSymbol symbolWords
  simp only [hsnake]
  rw [joined_map_joined (fun part : String => orBlank (words part.toList))
    (fun part => orBlank_ne_nil _), joined_orBlank]

theorem not_mem_symbolWords : ∀ w ∈ symbolWords path name, '_' ∉ w := by
  refine not_mem_of_mem_orBlank fun w hw => ?_
  obtain ⟨part, -, hw⟩ := List.mem_flatMap.1 hw
  exact not_mem_of_mem_orBlank (fun w hw => (mem_words hw).2) w hw

/-- A symbol tells which words it is spelled with, and nothing else. -/
theorem exportSymbol_eq_iff :
    exportSymbol path name = exportSymbol path' name' ↔
      symbolWords path name = symbolWords path' name' := by
  rw [exportSymbol_eq, exportSymbol_eq, String.ofList_inj]
  refine ⟨fun h => ?_, congrArg _⟩
  exact joined_inj_of_ne_nil not_mem_symbolWords not_mem_symbolWords (orBlank_ne_nil _)
    (orBlank_ne_nil _) h

theorem symbolWords_of_ne (hname : name ≠ "") :
    symbolWords path name =
      ((path.filter fun part => !part.isEmpty).flatMap fun part => orBlank (words part.toList))
        ++ orBlank (words name.toList) := by
  have hfilter : [name].filter (fun part => !part.isEmpty) = [name] := by simpa using hname
  unfold symbolWords
  rw [List.filter_append, List.flatMap_append, hfilter, List.flatMap_singleton]
  exact orBlank_of_ne_nil (List.append_ne_nil_of_right_ne_nil _ (orBlank_ne_nil _))

/-- Behind one module path, the words of the names decide. -/
theorem symbolWords_inj (hname : name ≠ "") (hname' : name' ≠ "") :
    symbolWords path name = symbolWords path name' ↔ words name.toList = words name'.toList := by
  have hblank (s : List Char) : [] ∉ words s := fun h => (mem_words h).1 rfl
  rw [symbolWords_of_ne hname, symbolWords_of_ne hname', List.append_cancel_left_eq,
    orBlank_inj (hblank _) (hblank _)]

/-- A text that is a single word, spelled as the symbol spells it. -/
def IsPlain (part : String) : Prop := words part.toList = [part.toList]

instance (part : String) : Decidable (IsPlain part) :=
  inferInstanceAs (Decidable (words part.toList = [part.toList]))

theorem IsPlain.ne_empty {part : String} (h : IsPlain part) : part ≠ "" := by
  rintro rfl
  cases h

/-- Plain parts are all that their symbol is spelled with. -/
theorem symbolWords_of_plain (h : ∀ part ∈ path ++ [name], IsPlain part) :
    symbolWords path name = (path ++ [name]).map String.toList := by
  have hfilter : (path ++ [name]).filter (fun part => !part.isEmpty) = path ++ [name] :=
    List.filter_eq_self.2 fun part hpart => by simpa using (h part hpart).ne_empty
  have hwords : (path ++ [name]).flatMap (fun part => orBlank (words part.toList))
      = (path ++ [name]).flatMap fun part => [part.toList] :=
    List.flatMap_congr fun part hpart => by rw [h part hpart, orBlank_of_ne_nil (by simp)]
  unfold symbolWords
  rw [hfilter, hwords, ← List.map_eq_flatMap]
  exact orBlank_of_ne_nil (by simp)

end Symbol

end Identifier

namespace ExportItem

/-- The words that the symbol of an item is spelled with. -/
def symbolWords (item : ExportItem) : List (List Char) :=
  Identifier.symbolWords item.modulePath item.declaration.name

/-- The item and the modules around it are named by single words. -/
def IsPlain (item : ExportItem) : Prop :=
  ∀ part ∈ item.modulePath ++ [item.declaration.name], Identifier.IsPlain part

end ExportItem

namespace Export

/-- The collected functions of a module tree, in their order. -/
def functions (m : NativeModule) (markers : List String) : List ExportItem :=
  (collect m markers).items.filter (·.kind = .function)

variable {m : NativeModule} {markers : List String} {f g : ExportItem}

theorem isItem_of_mem_functions (h : f ∈ functions m markers) :
    f.symbol = Identifier.exportSymbol f.modulePath f.declaration.name ∧
      f.qualifiedName = QualifiedName.join (m.name :: f.modulePath ++ [f.declaration.name]) := by
  have hitem := (List.mem_filter.1 h).1
  obtain ⟨s, -, hs⟩ := Related.exists_of_mem (collects_collect m markers).items hitem
  rw [hs.modulePath, hs.declaration]
  exact ⟨hs.symbol, hs.qualifiedName⟩

theorem symbol_eq_iff_words (hf : f ∈ functions m markers) (hg : g ∈ functions m markers) :
    f.symbol = g.symbol ↔ f.symbolWords = g.symbolWords := by
  rw [(isItem_of_mem_functions hf).1, (isItem_of_mem_functions hg).1]
  exact Identifier.exportSymbol_eq_iff

/-- Functions of one module have one symbol when the snake case of their names is one. -/
theorem symbol_eq_iff_snake (hf : f ∈ functions m markers) (hg : g ∈ functions m markers)
    (hpath : f.modulePath = g.modulePath) (hfn : f.declaration.name ≠ "")
    (hgn : g.declaration.name ≠ "") :
    f.symbol = g.symbol ↔ Identifier.toSnake f.declaration.name.toList
      = Identifier.toSnake g.declaration.name.toList := by
  rw [symbol_eq_iff_words hf hg, ExportItem.symbolWords, ExportItem.symbolWords, hpath,
    Identifier.symbolWords_inj hfn hgn, Identifier.toSnake_eq_iff]

theorem qualifiedName_eq_of_symbol (hf : f ∈ functions m markers) (hg : g ∈ functions m markers)
    (hfp : f.IsPlain) (hgp : g.IsPlain) (h : f.symbol = g.symbol) :
    f.qualifiedName = g.qualifiedName := by
  rw [symbol_eq_iff_words hf hg, ExportItem.symbolWords, ExportItem.symbolWords,
    Identifier.symbolWords_of_plain hfp, Identifier.symbolWords_of_plain hgp] at h
  have hparts := List.map_injective_iff.2 (fun _ _ => String.toList_inj.1) h
  rw [(isItem_of_mem_functions hf).2, (isItem_of_mem_functions hg).2, List.cons_append,
    List.cons_append, hparts]

end Export

/-- The symbols of the collected functions of a module tree differ exactly when the words differ that
they are spelled with. Of two functions in one module these are the same when the snake case of their
names is; and functions that are named, with the modules around them, by single words have different
symbols unless their qualified names are the same. -/
theorem symbols_differ_iff (m : NativeModule) (markers : List String) :
    ((Export.functions m markers).Pairwise (·.symbol ≠ ·.symbol) ↔
        (Export.functions m markers).Pairwise (·.symbolWords ≠ ·.symbolWords)) ∧
      ∀ f ∈ Export.functions m markers, ∀ g ∈ Export.functions m markers,
        (f.symbol = g.symbol ↔ f.symbolWords = g.symbolWords) ∧
        (f.modulePath = g.modulePath → f.declaration.name ≠ "" → g.declaration.name ≠ "" →
          (f.symbol = g.symbol ↔ Identifier.toSnake f.declaration.name.toList
            = Identifier.toSnake g.declaration.name.toList)) ∧
        (f.IsPlain → g.IsPlain → f.qualifiedName ≠ g.qualifiedName → f.symbol ≠ g.symbol) := by
  refine ⟨List.Pairwise.iff_of_mem fun hf hg => not_congr (Export.symbol_eq_iff_words hf hg),
    fun f hf g hg => ⟨Export.symbol_eq_iff_words hf hg, Export.symbol_eq_iff_snake hf hg, ?_⟩⟩
  exact fun hfp hgp => mt (Export.qualifiedName_eq_of_symbol hf hg hfp hgp)

section Examples

/-- A visible function without parameters. -/
def action (name : String) : Declaration :=
  ⟨name, .everyone, [], [], {}, .function [] none none false false none⟩

/-- Two functions that differ in the style of their names, and two that differ in where a module
ends. -/
def lookalikes : NativeModule where
  name := "crate"
  items := [action "makePoint", action "make_point", action "a_b"]
  children := [⟨"a", [action "b"], [], .everyone, {}⟩]
  visibility := .everyone
  span := {}

/-- The modules, the name and the symbol of each function. -/
def placed (m : NativeModule) : List (List String × String × String) :=
  (Export.functions m []).map fun f => (f.modulePath, f.declaration.name, f.symbol)

theorem placed_lookalikes : placed lookalikes = [([], "makePoint", "make_point"),
    ([], "make_point", "make_point"), ([], "a_b", "a_b"), (["a"], "b", "a_b")] := by
  rfl

/-- No two of the functions have the same qualified name, and yet there are only two symbols. -/
theorem lookalikes_share_symbols :
    ((Export.functions lookalikes []).map (·.qualifiedName)).Nodup ∧
      ¬ (Export.functions lookalikes []).Pairwise (·.symbol ≠ ·.symbol) := by
  have hnames : (Export.functions lookalikes []).map (·.qualifiedName)
      = ["crate::makePoint", "crate::make_point", "crate::a_b", "crate::a::b"] := by
    rfl
  refine ⟨by rw [hnames]; decide, fun h => ?_⟩
  have hplaced : (placed lookalikes).Pairwise (·.2.2 ≠ ·.2.2) := List.pairwise_map.2 h
  rw [placed_lookalikes] at hplaced
  revert hplaced
  decide

/-- Three functions of single words, and one of two. -/
def clock : NativeModule where
  name := "crate"
  items := [action "tick", action "tickAll"]
  children := [⟨"net", [action "tick"], [], .everyone, {}⟩]
  visibility := .everyone
  span := {}

theorem mem_functions_of_placed {m : NativeModule} {path : List String} {name : String}
    (symbol : String) (h : (path, name, symbol) ∈ placed m) :
    ∃ f ∈ Export.functions m [], f.modulePath = path ∧ f.declaration.name = name := by
  obtain ⟨f, hf, h⟩ := List.mem_map.1 h
  simp only [Prod.mk.injEq] at h
  exact ⟨f, hf, h.1, h.2.1⟩

theorem symbols_differ_clock :
    ∃ f ∈ Export.functions clock [], ∃ g ∈ Export.functions clock [],
      ∃ h ∈ Export.functions clock [], f.modulePath = g.modulePath ∧ f.symbol ≠ g.symbol
        ∧ f.IsPlain ∧ h.IsPlain ∧ f.qualifiedName ≠ h.qualifiedName ∧ f.symbol ≠ h.symbol := by
  have hplaced : placed clock =
      [([], "tick", "tick"), ([], "tickAll", "tick_all"), (["net"], "tick", "net_tick")] := by
    rfl
  obtain ⟨f, hf, hfpath, hfname⟩ : ∃ f ∈ Export.functions clock [],
      f.modulePath = [] ∧ f.declaration.name = "tick" :=
    mem_functions_of_placed "tick" (by simp [hplaced])
  obtain ⟨g, hg, hgpath, hgname⟩ : ∃ g ∈ Export.functions clock [],
      g.modulePath = [] ∧ g.declaration.name = "tickAll" :=
    mem_functions_of_placed "tick_all" (by simp [hplaced])
  obtain ⟨h, hh, hhpath, hhname⟩ : ∃ h ∈ Export.functions clock [],
      h.modulePath = ["net"] ∧ h.declaration.name = "tick" :=
    mem_functions_of_placed "net_tick" (by simp [hplaced])
  have hfp : f.IsPlain := by
    rw [ExportItem.IsPlain, hfpath, hfname]
    decide
  have hhp : h.IsPlain := by
    rw [ExportItem.IsPlain, hhpath, hhname]
    decide
  have hnames : f.qualifiedName ≠ h.qualifiedName := by
    rw [(Export.isItem_of_mem_functions hf).2, (Export.isItem_of_mem_functions hh).2, hfpath,
      hhpath, hfname, hhname]
    decide
  have hpath : f.modulePath = g.modulePath := hfpath.trans hgpath.symm
  have hdiffer := (symbols_differ_iff clock []).2
  have hsnake := (hdiffer f hf g hg).2.1 hpath (by simp [hfname]) (by simp [hgname])
  rw [hfname, hgname] at hsnake
  exact ⟨f, hf, g, hg, h, hh, hpath, mt hsnake.1 (by decide), hfp, hhp, hnames,
    (hdiffer f hf h hh).2.2 hfp hhp hnames⟩

end Examples

end Crossing
