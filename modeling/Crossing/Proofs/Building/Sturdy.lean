import Mathlib
import Crossing.Proofs.Building.Handle
import Crossing.Proofs.Building.Tags
import Crossing.Proofs.Layout.Proper

/-!
# Built types are sturdy

What the standard recognizers build can be laid out and held. Primitives are as wide as a power of
two bytes, the tags of a union fit 64 bits, since the builder refuses all others, and nothing but a
pointer is held as optional (`sturdy_of_yields`). The stages behind the builder rely on this.
-/

namespace Crossing

namespace InterfaceType

/-- The type by itself can be laid out, and there is a way to hold it as it says. -/
structure Viable (t : InterfaceType) : Prop where
  fits : t.Fits
  optional : t.holding = .optional → t.kind = .pointer

/-- Everything inside the type can be laid out and held. -/
def Sturdy (t : InterfaceType) : Prop := ∀ u, t.Contains u → u.Viable

variable {t u : InterfaceType}

theorem sturdy_iff : t.Sturdy ↔ t.Viable ∧ ∀ u ∈ t.parts, u.Sturdy := by
  refine ⟨fun h => ⟨h t .refl, fun u hu v hv => h v (hv.head hu)⟩, fun ⟨ht, h⟩ v hv => ?_⟩
  rcases contains_iff.1 hv with rfl | ⟨u, hu, hv⟩
  · exact ht
  · exact h u hu v hv

theorem Sturdy.viable (h : t.Sturdy) : t.Viable := h t .refl

theorem Sturdy.of_part (h : t.Sturdy) (hu : u ∈ t.parts) : u.Sturdy := (sturdy_iff.1 h).2 u hu

theorem Sturdy.of_contains (h : t.Sturdy) (hu : t.Contains u) : u.Sturdy :=
  fun v hv => h v (Relation.ReflTransGen.trans hu hv)

theorem Sturdy.regular (h : t.Sturdy) : t.Regular := fun u hu =>
  (h u (Relation.ReflTransGen.mono (fun _ _ => mem_parts_of_mem_placed) _ _ hu)).fits

/-- Neither the rule for primitives nor that for tags asks anything of other types. -/
theorem viable_of_kind (hprimitive : t.kind ≠ .primitive) (hunion : t.kind ≠ .taggedUnion)
    (h : t.holding = .optional → t.kind = .pointer) : t.Viable := by
  refine ⟨?_, h⟩
  cases t with
  | primitive => exact absurd rfl hprimitive
  | taggedUnion => exact absurd rfl hunion
  | _ => trivial

theorem sturdy_of_kind (hprimitive : t.kind ≠ .primitive) (hunion : t.kind ≠ .taggedUnion)
    (h : t.holding = .optional → t.kind = .pointer) (hparts : ∀ u ∈ t.parts, u.Sturdy) :
    t.Sturdy :=
  sturdy_iff.2 ⟨viable_of_kind hprimitive hunion h, hparts⟩

theorem sturdy_primitive {k : PrimitiveKind} {b : Int} {s : Bool}
    (h : k ≠ .unit → IsAlignment (max 1 (b / 8))) : (primitive k b s).Sturdy :=
  sturdy_iff.2 ⟨⟨h, nofun⟩, by simp⟩

end InterfaceType

namespace Building

open InterfaceType (sturdy_iff sturdy_of_kind sturdy_primitive)

/-- The types that a recipe knows outright are sturdy, and it holds nothing as optional by itself. -/
def Recipe.Sturdy : Recipe → Prop
  | .exact t => t.Sturdy
  | .wrap _ _ (.buffer holding) | .function _ _ holding | .buffer _ _ holding => holding ≠ .optional
  | _ => True

section Recipe

variable {o : Outlook} {e : TypeExpr} {rule : Rule} {r : Recipe}

theorem sturdy_of_mem_primitives {wordBits : Int} (hword : IsAlignment (max 1 (wordBits / 8)))
    {name : String} {t : InterfaceType} (h : (name, t) ∈ Rule.primitives wordBits) : t.Sturdy := by
  have hall : ∀ p ∈ Rule.primitives wordBits,
      ∃ k b s, p.2 = .primitive k b s ∧ (b = wordBits ∨ b ∈ [8, 16, 32, 64, 128]) := by
    simp [Rule.primitives, InterfaceType.int, InterfaceType.float, InterfaceType.bool,
      InterfaceType.char]
  have hfixed : ∀ b ∈ [8, 16, 32, 64, 128], ∃ n < 5, max 1 ((b : Int) / 8) = 2 ^ n := by decide
  obtain ⟨k, b, s, ht, hb⟩ := hall _ h
  obtain rfl : t = .primitive k b s := ht
  refine sturdy_primitive fun _ => ?_
  rcases hb with rfl | hb
  · exact hword
  · obtain ⟨n, -, hn⟩ := hfixed b hb
    exact ⟨n, hn⟩

theorem Rule.holding_of_text {encoding : TextEncoding} {holding : Holding}
    (h : Rule.text? e = some (encoding, holding)) : holding ≠ .optional := by
  unfold text? at h
  split at h
  · exact (Prod.mk.inj (Option.some.inj h)).2 ▸ nofun
  split at h
  · exact (Prod.mk.inj (Option.some.inj h)).2 ▸ nofun
  split at h
  all_goals
    obtain ⟨_, -, hpair⟩ := Option.map_eq_some_iff.1 h
    exact (Prod.mk.inj hpair).2 ▸ nofun

theorem Rule.holding_of_callable {f : TypeExpr} {holding : Holding}
    (h : Rule.callable? e = some (f, holding)) : holding ≠ .optional := by
  unfold callable? at h
  split at h
  · exact (Prod.mk.inj (Option.some.inj h)).2 ▸ nofun
  · split at h
    · exact (Prod.mk.inj (Option.some.inj h)).2 ▸ nofun
    · simp at h
  · split at h
    · exact (Prod.mk.inj (Option.some.inj h)).2 ▸ nofun
    · simp at h
  · simp only [Option.or_eq_some_iff, Option.map_eq_some_iff, Prod.mk.injEq] at h
    rcases h with ⟨_, -, -, rfl⟩ | ⟨-, _, -, -, rfl⟩ <;> simp

theorem Rule.Answers.sturdy (h : rule.Answers o e r)
    (hword : IsAlignment (max 1 (o.wordBits / 8)))
    (hrule : ∀ name answer, rule ≠ .fixed name answer) : r.Sturdy := by
  cases h with
  | refuse | array | optional | reference | pointer | box | counted | tuple | nominal => trivial
  | slice | vector | boxedSlice => simp [Recipe.Sturdy]
  | unit => exact sturdy_primitive fun hne => absurd rfl hne
  | primitive mem => exact sturdy_of_mem_primitives hword mem
  | text known =>
    refine sturdy_of_kind (by simp [InterfaceType.kind]) (by simp [InterfaceType.kind]) ?_ (by simp)
    exact fun hopt => absurd hopt (Rule.holding_of_text known)
  | callable known => exact Rule.holding_of_callable known
  | @structural _ t n mutable => cases mutable <;> simp [Recipe.Sturdy]
  | @fixed _ name answer => exact absurd rfl (hrule name answer)

end Recipe

variable {m : TypeModel}

theorem TypeModel.sturdy_recipe (hstandard : m.recognizers = .standard)
    (hword : IsAlignment (max 1 (m.wordBits / 8))) (scope : List String) (e : TypeExpr) :
    (m.recipe scope e).Sturdy := by
  obtain ⟨rule, hanswers, hmember⟩ := m.recognizers.exists_answers
    ⟨m.wordBits, m.index.resolve e.names scope⟩ e
  refine hanswers.sturdy hword fun name answer hrule => ?_
  obtain ⟨member, hmem, heq⟩ := hmember name answer hrule
  exact not_hasFixed hstandard ⟨member, hmem, name, answer, heq.trans hrule⟩

/-- A sturdy recipe at a place, or the contents of a nominal type. -/
def Task.Sturdy (task : Task) : Prop := ∀ s r, task = .follow s r → r.Sturdy

theorem Task.sturdy_recipe (hstandard : m.recognizers = .standard)
    (hword : IsAlignment (max 1 (m.wordBits / 8))) (s : Site) (scope : List String)
    (e : TypeExpr) : (Task.follow s (m.recipe scope e)).Sturdy := by
  rintro _ _ ⟨⟩
  exact m.sturdy_recipe hstandard hword scope e

theorem Task.sturdy_ofItem (hstandard : m.recognizers = .standard)
    (hword : IsAlignment (max 1 (m.wordBits / 8))) (item : ExportItem) :
    (Task.ofItem m item).Sturdy := by
  unfold ofItem
  simp only
  split
  · rintro _ _ ⟨⟩
    simp [Recipe.Sturdy]
  · exact sturdy_recipe hstandard hword _ _ _
  · exact sturdy_recipe hstandard hword _ _ _

theorem Wrapper.sturdy_around {via : Via} {e : TypeExpr} {w : Wrapper} {t u : InterfaceType}
    (h : w.around t = .ok (.ok u)) (hw : (Recipe.wrap via e w).Sturdy) (ht : t.Sturdy) :
    u.Sturdy := by
  have hparts : ∀ v ∈ u.parts, v.Sturdy := fun v hv =>
    (part_of_around h hv).elim (· ▸ ht) ht.of_part
  cases w with
  | array length =>
    simp only [around] at h
    split at h
    · obtain rfl := Except.ok.inj (Except.ok.inj h)
      exact sturdy_of_kind (by rintro ⟨⟩) (by rintro ⟨⟩) (by rintro ⟨⟩) hparts
    · simp at h
  | buffer holding =>
    obtain rfl := Except.ok.inj (Except.ok.inj h)
    exact sturdy_of_kind (by rintro ⟨⟩) (by rintro ⟨⟩) (fun hopt => absurd hopt hw) hparts
  | pointer nullable holding mutable =>
    obtain rfl := Except.ok.inj (Except.ok.inj h)
    exact sturdy_of_kind (by rintro ⟨⟩) (by rintro ⟨⟩) (fun _ => rfl) hparts
  | optional raw =>
    have hkind := (kind_optionalOf (Except.ok.inj h)).1
    exact sturdy_of_kind (by simp [hkind]) (by simp [hkind]) (fun _ => hkind) hparts

theorem sturdy_of_outcomes {os : List Outcome} {ts : List InterfaceType} (hos : os = ts.map .ok)
    (h : ∀ o ∈ os, ∀ t, o = .ok t → t.Sturdy) : ∀ t ∈ ts, t.Sturdy :=
  fun t ht => h (.ok t) (hos ▸ List.mem_map_of_mem ht) t rfl

theorem tags_of_variants {name : String} :
    ∀ {made : List (TaggedVariant × MadeFields)} {vs : List (Variant InterfaceType)},
      (made.map fun p => variantOf name p.1 p.2) = vs.map .ok →
        made.map (·.1.tag) = vs.map (·.tag)
  | [], [], _ => rfl
  | v :: made, w :: vs, h => by
    obtain ⟨hv, hrest⟩ := List.cons.inj h
    obtain ⟨-, fs, -, -, rfl⟩ := Findings.combine_eq_ok.1 hv
    rw [List.map_cons, List.map_cons, tags_of_variants hrest]

/-- What a sturdy task yields is sturdy. -/
theorem sturdy_of_yields (hstandard : m.recognizers = .standard)
    (hword : IsAlignment (max 1 (m.wordBits / 8))) {task : Task} {o : Outcome}
    (h : Yields m task o) : task.Sturdy → ∀ t, o = .ok t → t.Sturdy := by
  have hrecipe := Task.sturdy_recipe hstandard hword
  induction h with
  | exact t =>
    rintro htask u ⟨⟩
    exact htask _ _ rfl
  | refuse | refused | emptyEnumeration => simp
  | wrapFailed part ih => simp
  | malformed params ih => exact fun _ u hu => absurd hu Builder.signatureOf_malformed_ne_ok
  | wrap part around ih =>
    rintro htask u rfl
    exact Wrapper.sturdy_around around (htask _ _ rfl) (ih (hrecipe _ _ _) _ rfl)
  | @tuple s made parts ih =>
    intro _ u hu
    obtain ⟨ts, hts, rfl⟩ := Findings.map_eq_ok.1 hu
    refine sturdy_of_kind (by rintro ⟨⟩) (by rintro ⟨⟩) (by rintro ⟨⟩) ?_
    rw [parts_tupleOf]
    exact sturdy_of_outcomes (Findings.all_eq_ok.1 hts)
      (List.forall_mem_map.2 fun p hp => ih p hp (hrecipe _ _ _))
  | @function s made ret o holding params result ihs ih =>
    intro htask u hu
    obtain ⟨ts, r, hts, rfl, rfl⟩ := Builder.signatureOf_value_eq_ok.1 hu
    refine sturdy_of_kind (by rintro ⟨⟩) (by rintro ⟨⟩) (fun hopt => absurd hopt (htask _ _ rfl)) ?_
    have hparams := sturdy_of_outcomes hts
      (List.forall_mem_map.2 fun p hp => ihs p hp (hrecipe _ _ _))
    have hresult := ih (hrecipe _ _ _) _ rfl
    simpa [InterfaceType.failureParts, or_imp, forall_and] using ⟨hparams, hresult⟩
  | @fallible s made ret error o oe holding params result failure ihs ih ihe =>
    intro htask u hu
    obtain ⟨ts, r, e, hts, rfl, rfl, rfl⟩ := Builder.signatureOf_fallible_eq_ok.1 hu
    refine sturdy_of_kind (by rintro ⟨⟩) (by rintro ⟨⟩) (fun hopt => absurd hopt (htask _ _ rfl)) ?_
    have hparams := sturdy_of_outcomes hts
      (List.forall_mem_map.2 fun p hp => ihs p hp (hrecipe _ _ _))
    have hresult := ih (hrecipe _ _ _) _ rfl
    have hfailure := ihe (hrecipe _ _ _) _ rfl
    simpa [InterfaceType.failureParts, or_imp, forall_and] using ⟨hparams, hresult, hfailure⟩
  | @buffer s n element holding o part ih =>
    intro htask u hu
    obtain ⟨t, rfl, rfl⟩ := Findings.map_eq_ok.1 hu
    refine sturdy_of_kind (by rintro ⟨⟩) (by rintro ⟨⟩) (fun hopt => absurd hopt (htask _ _ rfl)) ?_
    simpa using ih (hrecipe _ _ _) t rfl
  | handle reference reserved =>
    rintro - u ⟨⟩
    exact sturdy_of_kind (by rintro ⟨⟩) (by rintro ⟨⟩) (by rintro ⟨⟩) (by simp)
  | opened reference part ih => exact fun _ => ih (hrecipe _ _ _)
  | struct reference whole ih | enumeration reference whole ih =>
    exact fun _ => ih (by rintro _ _ ⟨⟩)
  | @record n fields made body labels parts ih =>
    intro _ u hu
    obtain ⟨fs, hfs, rfl⟩ := Findings.map_eq_ok.1 hu
    refine sturdy_of_kind (by rintro ⟨⟩) (by rintro ⟨⟩) (by rintro ⟨⟩) ?_
    rw [InterfaceType.parts_record]
    exact sturdy_of_outcomes (MadeFields.outcomes hfs)
      (List.forall_mem_map.2 fun p hp => ih p hp (hrecipe _ _ _))
  | @union n variants made body tags labels parts ih =>
    intro _ u hu
    obtain ⟨vs, _, hvs, hrange, rfl⟩ := Findings.combine_eq_ok.1 hu
    have hvariants := Findings.all_eq_ok.1 hvs
    have htags := tagsFit_of_rangeProblems (Findings.ofProblems_eq_ok.1 hrange)
    rw [tags_of_variants hvariants] at htags
    refine sturdy_iff.2 ⟨⟨htags, by rintro ⟨⟩⟩, ?_⟩
    rw [InterfaceType.parts_taggedUnion]
    refine sturdy_of_outcomes (outcomes_of_variants hvariants) fun o ho => ?_
    obtain ⟨v, hv, ho⟩ := List.mem_flatMap.1 ho
    obtain ⟨p, hp, rfl⟩ := List.mem_map.1 ho
    exact ih v hv p hp (hrecipe _ _ _)

end Building

end Crossing
