import Crossing.Building.TypeModel
import Crossing.Proofs.InterfaceType.Parts
import Crossing.Proofs.Nominal.Index

/-!
# How mentions are taken

A recipe that follows a mention follows the nominal type that the mention resolves to, and the types
that the standard recognizers know outright have no parts (`Rule.Answers.sane`). A mention is taken as a
handle only behind a pointer or as a declaration itself, and never as that of an alias
(`reference_cases`); so every handle that is handed out has a number reserved for it
(`exists_number`).
-/

namespace Crossing.Building

/-- The type is simple: it has no parts and is no handle. -/
def Simple (t : InterfaceType) : Prop := t.parts = [] ∧ t.kind ≠ .handle

section Recipe

variable {o : Outlook} {e : TypeExpr} {rule : Rule} {r : Recipe}

theorem simple_of_mem_primitives {wordBits : Int} {name : String} {t : InterfaceType}
    (h : (name, t) ∈ Rule.primitives wordBits) : Simple t := by
  have hall : ∀ p ∈ Rule.primitives wordBits, p.2.kind = .primitive := by
    simp [Rule.primitives, InterfaceType.int, InterfaceType.float, InterfaceType.bool,
      InterfaceType.char, InterfaceType.kind]
  have hkind : t.kind = .primitive := hall _ h
  cases t <;> simp_all [Simple, InterfaceType.kind]

/-- What a rule says of an expression follows it to the nominal type that it resolves to only, enters
a struct only as a buffer, and, unless it is a fixed rule, knows no types outright but simple ones. -/
structure Sane (o : Outlook) (isFixed : Prop) (r : Recipe) : Prop where
  named : ∀ n mention, r = .named n mention → o.meaning.nominal? = some n
  buffer : ∀ n e holding, r = .buffer n e holding →
    o.meaning.nominal? = some n ∧ ∃ mutable, Rule.elements? n = some (e, mutable)
  exact : ∀ t, r = .exact t → isFixed ∨ Simple t
  illFormed : ∀ parts reason, r = .illFormed parts reason → isFixed

/-- A recipe that neither follows the expression nor knows a type of it is sane. -/
theorem sane_of_ne {isFixed : Prop} (hnamed : ∀ n mention, r ≠ .named n mention)
    (hbuffer : ∀ n e holding, r ≠ .buffer n e holding) (hexact : ∀ t, r ≠ .exact t)
    (hillFormed : ∀ parts reason, r ≠ .illFormed parts reason) : Sane o isFixed r :=
  ⟨fun n mention h => absurd h (hnamed n mention), fun n e holding h => absurd h (hbuffer n e holding),
    fun t h => absurd h (hexact t), fun parts reason h => absurd h (hillFormed parts reason)⟩

theorem sane_exact {isFixed : Prop} {t : InterfaceType} (h : Simple t) :
    Sane o isFixed (.exact t) :=
  ⟨by simp, by simp, fun _ ht => .inr (Recipe.exact.inj ht ▸ h), by simp⟩

theorem Rule.Answers.sane (h : rule.Answers o e r) :
    Sane o (∃ name answer, rule = .fixed name answer) r := by
  cases h with
  | refuse | array | slice | vector | boxedSlice | callable | optional | reference | pointer | box
  | counted | tuple =>
    exact sane_of_ne (by simp) (by simp) (by simp) (by simp)
  | unit => exact sane_exact ⟨rfl, by decide⟩
  | primitive mem => exact sane_exact (simple_of_mem_primitives mem)
  | text => exact sane_exact ⟨rfl, by simp [InterfaceType.kind]⟩
  | @structural _ t n mutable meaning elements =>
    refine ⟨by simp, fun n' e' holding heq => ?_, by simp, by simp⟩
    obtain ⟨rfl, rfl, -⟩ := Recipe.buffer.inj heq
    exact ⟨meaning, mutable, elements⟩
  | @nominal _ n meaning =>
    refine ⟨fun n' mention heq => ?_, by simp, by simp, by simp⟩
    obtain ⟨rfl, -⟩ := Recipe.named.inj heq
    exact meaning
  | @fixed _ name answer =>
    have hfixed : ∃ name' answer', Rule.fixed name answer = .fixed name' answer' := ⟨name, answer, rfl⟩
    cases answer <;> simp only [FixedAnswer.recipe]
    case refuse message => exact sane_of_ne (by simp) (by simp) (by simp) (by simp)
    all_goals exact ⟨by simp, by simp, fun _ _ => .inl hfixed, fun _ _ _ => hfixed⟩

end Recipe

namespace TypeModel

variable {m : TypeModel}

/-- Whether a model has recognizers with fixed answers. -/
def HasFixed (m : TypeModel) : Prop :=
  ∃ recognizer ∈ m.recognizers.members, ∃ name answer, recognizer.rule = .fixed name answer

theorem sane_recipe (m : TypeModel) (scope : List String) (e : TypeExpr) :
    Sane ⟨m.wordBits, m.index.resolve e.names scope⟩ m.HasFixed (m.recipe scope e) := by
  obtain ⟨rule, hanswers, hmember⟩ := m.recognizers.exists_answers
    ⟨m.wordBits, m.index.resolve e.names scope⟩ e
  have hfixed : (∃ name answer, rule = .fixed name answer) → m.HasFixed := by
    rintro ⟨name, answer, rfl⟩
    obtain ⟨member, hmem, hrule⟩ := hmember name answer rfl
    exact ⟨member, hmem, name, answer, hrule⟩
  have hsane := hanswers.sane
  exact ⟨hsane.named, hsane.buffer, fun t ht => (hsane.exact t ht).imp_left hfixed,
    fun parts reason h => hfixed (hsane.illFormed parts reason h)⟩

theorem not_hasFixed (hstandard : m.recognizers = .standard) : ¬ m.HasFixed := by
  rintro ⟨recognizer, hmem, name, answer, hfixed⟩
  rw [hstandard] at hmem
  simp only [RecognizerSet.standard, List.mem_cons, List.not_mem_nil, or_false] at hmem
  rcases hmem with rfl | rfl | rfl | rfl | rfl | rfl | rfl | rfl | rfl | rfl | rfl | rfl | rfl <;>
    simp at hfixed

section Reference

variable {s : Site} {n : Nominal} {mention : TypeExpr}

/-- A mention is cut: it recurs behind a pointer, or it must not be looked into. -/
def IsCut (m : TypeModel) (s : Site) (n : Nominal) : Prop :=
  (s.via = .pointer ∧ ∃ owner, m.graph.sameRecursive owner n.name = true) ∨
    (n.hasPrivateFields = true ∧ (s.isDeclaration = true ∨ s.via = .pointer))

/-- A mention of contents is refused, or cut at a handle, or taken whole. -/
theorem content_cases (m : TypeModel) (s : Site) (n : Nominal) (mention : TypeExpr)
    (whole : Reference) :
    (∃ problem, m.content s n mention whole = .refuse problem) ∨
      (m.content s n mention whole = .handle ∧ IsCut m s n) ∨
      m.content s n mention whole = whole := by
  unfold content
  simp only
  split
  · rename_i h
    simp only [Bool.and_eq_true, decide_eq_true_eq, Option.any_eq_true] at h
    obtain ⟨⟨owner, -, hrec⟩, hvia⟩ := h
    exact .inr (.inl ⟨rfl, .inl ⟨hvia, owner, hrec⟩⟩)
  split
  · exact .inl ⟨_, rfl⟩
  split
  · exact .inl ⟨_, rfl⟩
  split
  · rename_i hprivate
    split
    · rename_i h
      exact .inr (.inl ⟨rfl, .inr ⟨hprivate, by simpa using h⟩⟩)
    · exact .inl ⟨_, rfl⟩
  split
  · exact .inl ⟨_, rfl⟩
  · exact .inr (.inr rfl)

/-- How a mention is taken: not at all, as an alias is opened, as a handle, or whole. -/
theorem reference_cases (m : TypeModel) (s : Site) (n : Nominal) (mention : TypeExpr) :
    (∃ problem, m.reference s n mention = .refuse problem) ∨
      (∃ target, n.declaration.body = .alias target ∧ m.reference s n mention = .alias target) ∨
      (m.reference s n mention = .handle ∧ n.isAlias = false ∧ IsCut m s n) ∨
      (∃ fields, n.structFields? = some fields ∧ m.reference s n mention = .record fields) ∨
      ∃ variants, n.declaration.body = .enumeration variants ∧
        m.reference s n mention = .union variants := by
  unfold reference
  simp only
  split
  · exact .inl ⟨_, rfl⟩
  split
  · exact .inl ⟨_, rfl⟩
  split
  · rename_i target hbody
    split
    · exact .inr (.inl ⟨target, hbody, rfl⟩)
    · exact .inl ⟨_, rfl⟩
  · rename_i fields style hbody
    rcases content_cases m s n mention (.record fields) with
      hrefuse | ⟨hhandle, hcut⟩ | hwhole
    · exact .inl hrefuse
    · exact .inr (.inr (.inl ⟨hhandle, by simp [Nominal.isAlias, Nominal.aliasTarget?, hbody],
        hcut⟩))
    · exact .inr (.inr (.inr (.inl ⟨fields, by simp [Nominal.structFields?, hbody], hwhole⟩)))
  · rename_i variants hbody
    rcases content_cases m s n mention (.union variants) with
      hrefuse | ⟨hhandle, hcut⟩ | hwhole
    · exact .inl hrefuse
    · exact .inr (.inr (.inl ⟨hhandle, by simp [Nominal.isAlias, Nominal.aliasTarget?, hbody],
        hcut⟩))
    · exact .inr (.inr (.inr (.inr ⟨variants, hbody, hwhole⟩)))
  · exact .inl ⟨_, rfl⟩
  · exact .inl ⟨_, rfl⟩

theorem fields_of_reference {fields : List NativeField}
    (h : m.reference s n mention = .record fields) : n.structFields? = some fields := by
  rcases reference_cases m s n mention with ⟨_, href⟩ | ⟨_, -, href⟩ | ⟨href, -⟩ |
    ⟨fs, hbody, href⟩ | ⟨_, -, href⟩ <;> rw [href] at h
  case inr.inr.inr.inl => rwa [← Reference.record.inj h]
  all_goals simp at h

theorem target_of_reference {target : TypeExpr} (h : m.reference s n mention = .alias target) :
    n.declaration.body = .alias target := by
  rcases reference_cases m s n mention with ⟨_, href⟩ | ⟨_, hbody, href⟩ | ⟨href, -⟩ |
    ⟨_, -, href⟩ | ⟨_, -, href⟩ <;> rw [href] at h
  case inr.inl => rwa [← Reference.alias.inj h]
  all_goals simp at h

theorem variants_of_reference {variants : List NativeVariant}
    (h : m.reference s n mention = .union variants) :
    n.declaration.body = .enumeration variants := by
  rcases reference_cases m s n mention with ⟨_, href⟩ | ⟨_, -, href⟩ | ⟨href, -⟩ |
    ⟨_, -, href⟩ | ⟨vs, hbody, href⟩ <;> rw [href] at h
  case inr.inr.inr.inr => rwa [← Reference.union.inj h]
  all_goals simp at h

theorem cut_of_reference (h : m.reference s n mention = .handle) :
    n.isAlias = false ∧ IsCut m s n := by
  rcases reference_cases m s n mention with ⟨_, href⟩ | ⟨_, -, href⟩ | ⟨-, hcut⟩ |
    ⟨_, -, href⟩ | ⟨_, -, href⟩
  case inr.inr.inl => exact hcut
  all_goals simp [h] at href

theorem isRecursive_of_sameRecursive {g : NominalGraph} {a b : String}
    (h : g.sameRecursive a b = true) : g.isRecursive b = true := by
  obtain ⟨c, hc, h⟩ := List.any_eq_true.1 h
  simp only [Bool.and_eq_true] at h
  exact List.any_eq_true.2 ⟨c, hc, Bool.and_eq_true_iff.2 ⟨h.1.1, h.2⟩⟩

theorem exists_number (hn : n ∈ m.index.nominals) (h : m.reference s n mention = .handle) :
    ∃ number, (m.index.handled m.graph).idxOf? n.name = some number := by
  obtain ⟨halias, hcut⟩ := cut_of_reference h
  have hhandled : (m.graph.isRecursive n.name || n.hasPrivateFields) = true := by
    rcases hcut with ⟨-, owner, hrec⟩ | ⟨hprivate, -⟩
    · rw [isRecursive_of_sameRecursive hrec, Bool.true_or]
    · rw [hprivate, Bool.or_true]
  refine Option.isSome_iff_exists.1 (List.isSome_idxOf?.2 ?_)
  exact List.mem_map_of_mem (List.mem_filter.2 ⟨hn, by rw [halias, hhandled]; rfl⟩)

end Reference

end TypeModel

end Crossing.Building
