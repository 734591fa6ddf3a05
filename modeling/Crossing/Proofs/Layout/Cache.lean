import Crossing.Proofs.Attempted
import Crossing.Proofs.Layout.Defined

/-!
# What is on record

The engine puts a layout on record as soon as it is complete, so the computation of a type that
fails leaves the layouts of those of its parts behind that it came to in time. What the rule comes
to on its way to the layout of a type is `Reaches`: a part is attempted when the tag of the union
around it could be held and every part before it has a layout. Whatever was asked before, a query
completes all that it reaches and records nothing else (`ensures_query`), so the record of an engine
can be read off the queries (`has_after_iff`).
-/

namespace Crossing

namespace InterfaceType

variable {w : WordSize} {t u v : InterfaceType}

def HasLayout (w : WordSize) (t : InterfaceType) : Prop := ∃ l, t.layoutOf w = .ok l

/-- The tags of the type itself, if it is a union, can be held. -/
def TagHeld : InterfaceType → Prop
  | .taggedUnion _ vs => ∃ tag, tagLayout (vs.map (·.tag)) = .ok tag
  | _ => True

/-- The rule takes the layout of `u` for that of `t`: nothing that it needs earlier is missing. -/
def Attempts (w : WordSize) (t u : InterfaceType) : Prop :=
  t.TagHeld ∧ Attempted (HasLayout w) t.placed u

/-- On its way to the layout of the first type, the rule comes to the second. -/
def Reaches (w : WordSize) : InterfaceType → InterfaceType → Prop :=
  Relation.ReflTransGen (Attempts w)

theorem reaches_iff : t.Reaches w u ↔ u = t ∨ ∃ p, t.Attempts w p ∧ p.Reaches w u := by
  unfold Reaches
  rw [Relation.ReflTransGen.cases_head_iff, eq_comm]

theorem Attempts.mem_placed (h : t.Attempts w u) : u ∈ t.placed := h.2.mem

/-- What has a layout of its own was computed to the last part. -/
theorem HasLayout.attempts (h : t.HasLayout w) (hu : u ∈ t.placed) : t.Attempts w u := by
  refine ⟨?_, .of_mem (fun _ => exists_layoutOf_of_placed h) hu⟩
  obtain ⟨l, hl⟩ := h
  cases t with
  | taggedUnion name vs =>
    obtain ⟨tag, -, htag, -⟩ := union_of_layoutOf hl
    exact ⟨tag, htag⟩
  | _ => trivial

theorem hasLayout_of_layoutOfFields {fs : List (Field InterfaceType)} {parts : List (Field Layout)}
    (h : layoutOfFields w fs = .ok parts) : ∀ t ∈ fs.map (·.type), t.HasLayout w := by
  intro t ht
  obtain ⟨f, hf, rfl⟩ := List.mem_map.1 ht
  obtain ⟨p, -, -, hp⟩ := Related.exists_of_mem (laidOut_of_layoutOfFields h) hf
  exact ⟨_, hp⟩

theorem exists_layoutOfFields_iff {fs : List (Field InterfaceType)} :
    (∃ parts, layoutOfFields w fs = .ok parts) ↔ ∀ t ∈ fs.map (·.type), t.HasLayout w := by
  refine ⟨fun ⟨_, h⟩ => hasLayout_of_layoutOfFields h, fun h => ?_⟩
  obtain ⟨parts, hparts, -⟩ := exists_layoutOfFields fun f hf => h _ (List.mem_map_of_mem hf)
  exact ⟨parts, hparts⟩

end InterfaceType

namespace LayoutEngine

open InterfaceType (HasLayout Attempts Reaches)

variable {w : WordSize} {allowed : InterfaceType → Prop} {e : LayoutEngine} {t u : InterfaceType}

@[simp]
theorem has_record {l : Layout} : (e.record t l).2.has u = true ↔ u = t ∨ e.has u = true := by
  by_cases h : u = t
  · simp [has, record, h]
  · simp [has, record, List.lookup_cons, h, beq_eq_false_iff_ne.2 h]

/-- All that the rule completes on its way to the layout of the type is on record. -/
def Completed (w : WordSize) (t : InterfaceType) (e : LayoutEngine) : Prop :=
  ∀ u, t.Reaches w u → u.HasLayout w → e.has u = true

/-- A record is faithful, holds nothing but what is allowed, and no whole without its parts. -/
structure Sound (w : WordSize) (allowed : InterfaceType → Prop) (e : LayoutEngine) : Prop where
  faithful : e.Faithful w
  allowed : ∀ t, e.has t = true → allowed t
  closed : ∀ t, e.has t = true → ∀ u ∈ t.placed, e.has u = true

/-- The engine stays sound and forgets nothing. -/
def completing (w : WordSize) (allowed : InterfaceType → Prop) : Discipline LayoutEngine where
  Inv := Sound w allowed
  Grows e e' := ∀ t, e.has t = true → e'.has t = true
  refl _ _ h := h
  trans h h' t ht := h' t (h t ht)

theorem Completed.later {e' : LayoutEngine} (h : Completed w t e)
    (hlater : (completing w allowed).Later e e') : Completed w t e' :=
  fun u hu hl => hlater.2 u (h u hu hl)

/-- What is on record was completed with all that it reaches. -/
theorem Sound.completed (h : e.Sound w allowed) (ht : e.has t = true) : Completed w t e := by
  intro u hu hl
  clear hl
  induction hu with
  | refl => exact ht
  | tail _ hstep ih => exact h.closed _ ih _ hstep.mem_placed

theorem Sound.record (h : e.Sound w allowed) {l : Layout} (hl : t.layoutOf w = .ok l)
    (ht : allowed t) (hparts : ∀ u, t.Attempts w u → Completed w u e) :
    (e.record t l).2.Sound w allowed where
  faithful := h.faithful.record hl
  allowed u hu := by
    rcases has_record.1 hu with rfl | hu
    · exact ht
    · exact h.allowed u hu
  closed u hu v hv := by
    refine has_record.2 (.inr ?_)
    rcases has_record.1 hu with rfl | hu
    · have hattempt := HasLayout.attempts ⟨l, hl⟩ hv
      exact hparts v hattempt v .refl (InterfaceType.exists_layoutOf_of_placed ⟨l, hl⟩ hv)
    · exact h.closed u hu v hv

section Query

variable {s : LayoutEngine}

theorem ensures_cached {compute : Query Layout}
    (h : Ensures (completing w allowed) s compute fun r e =>
      r = t.layoutOf w ∧ ∀ u, t.Attempts w u → Completed w u e)
    (ht : t.HasLayout w → allowed t) :
    Ensures (completing w allowed) s (cached t compute) fun r e =>
      r.map (·.layout) = t.layoutOf w ∧ Completed w t e := by
  refine Ensures.getBind fun e he => ?_
  split
  · rename_i issued hissued
    have hhas : e.has t = true := by rw [has, hissued]; rfl
    exact Ensures.pure fun e' he' => ⟨(he.1.faithful.2 t issued hissued).symm,
      (he.1.completed hhas).later he'⟩
  · refine Ensures.bind (Steps.Upholds.lasting (Steps.Upholds.later h he)) (fun r e' he' hr => ?_)
      fun l e' he' hr => Ensures.modifyGet fun e'' he'' => ?_
    · obtain ⟨hr, hparts⟩ := hr e' (.self he'.1)
      refine ⟨hr, fun u hu hl => ?_⟩
      rcases InterfaceType.reaches_iff.1 hu with rfl | ⟨p, hp, hu⟩
      · obtain ⟨l, hl⟩ := hl
        rw [hl] at hr
        cases hr
      · exact hparts p hp u hu hl
    · obtain ⟨hl, hparts⟩ := hr e'' he''
      have hrecord : (completing w allowed).Later e'' (e''.record t l).2 :=
        ⟨he''.1.record hl.symm (ht ⟨l, hl.symm⟩) hparts, fun u hu => has_record.2 (.inr hu)⟩
      refine ⟨hrecord, fun e₃ he₃ => ⟨hl, fun u hu hlu => ?_⟩⟩
      rcases InterfaceType.reaches_iff.1 hu with rfl | ⟨p, hp, hu⟩
      · exact he₃.2 u (has_record.2 (.inl rfl))
      · exact ((hparts p hp).later (hrecord.trans he₃)) u hu hlu

/-- Of the loops over the parts: they complete what the rule attempts, part by part. -/
def CompletedIn (w : WordSize) (ts : List InterfaceType) (e : LayoutEngine) : Prop :=
  ∀ u, Attempted (HasLayout w) ts u → Completed w u e

theorem CompletedIn.later {ts : List InterfaceType} {e' : LayoutEngine} (h : CompletedIn w ts e)
    (hlater : (completing w allowed).Later e e') : CompletedIn w ts e' :=
  fun u hu => (h u hu).later hlater

theorem completedIn_cons {ts : List InterfaceType} (h : Completed w t e)
    (hts : t.HasLayout w → CompletedIn w ts e) : CompletedIn w (t :: ts) e := by
  intro u hu
  rcases Attempted.cons_iff.1 hu with rfl | ⟨hl, hu⟩
  · exact h
  · exact hts hl u hu

theorem completedIn_append {ts us : List InterfaceType} (h : CompletedIn w ts e)
    (hus : (∀ t ∈ ts, t.HasLayout w) → CompletedIn w us e) : CompletedIn w (ts ++ us) e := by
  intro u hu
  rcases Attempted.append_iff.1 hu with hu | ⟨hts, hu⟩
  · exact h u hu
  · exact hus hts u hu

/-- A type without placed parts. -/
theorem ensures_leaf {compute : Query Layout} (hleaf : t.placed = [])
    (h : Ensures (completing w allowed) s compute fun r _ => r = t.layoutOf w)
    (ht : t.HasLayout w → allowed t) :
    Ensures (completing w allowed) s (cached t compute) fun r e =>
      r.map (·.layout) = t.layoutOf w ∧ Completed w t e := by
  refine ensures_cached (h.mono fun r e _ hr => ⟨hr, fun u hu => ?_⟩) ht
  have := hu.mem_placed
  simp [hleaf] at this

theorem ensures_word {f : WordSize → Layout} {r : Except TagRange Layout} (h : r = .ok (f w)) :
    Ensures (completing w allowed) s (do pure (f (← get).word) : Query Layout) fun r' _ => r' = r :=
  Ensures.getBind fun _ he => Ensures.pure fun _ _ => by rw [he.1.faithful.1, h]

mutual

theorem ensures_query : ∀ (t : InterfaceType) {s : LayoutEngine},
    (∀ u, t.Reaches w u → u.HasLayout w → allowed u) →
    Ensures (completing w allowed) s (query t) fun r e =>
      r.map (·.layout) = t.layoutOf w ∧ Completed w t e
  | .primitive .., _, ht => ensures_leaf rfl (Ensures.pure fun _ _ => rfl) (ht _ .refl)
  | .pointer .., _, ht => ensures_leaf rfl (ensures_word rfl) (ht _ .refl)
  | .buffer .., _, ht => ensures_leaf rfl (ensures_word rfl) (ht _ .refl)
  | .text .., _, ht => ensures_leaf rfl (ensures_word rfl) (ht _ .refl)
  | .function .., _, ht => ensures_leaf rfl (ensures_word rfl) (ht _ .refl)
  | .handle .., _, ht => ensures_leaf rfl (ensures_word rfl) (ht _ .refl)
  | .array t h n, _, ht => by
    have hpart : (InterfaceType.array t h n).Attempts w t := ⟨trivial, .head⟩
    refine ensures_cached (Ensures.bindPure (ensures_query t fun u hu => ht u (.head hpart hu))
      fun r e _ hr => ⟨?_, fun u hu => List.mem_singleton.1 hu.mem_placed ▸ hr.2⟩) (ht _ .refl)
    rw [InterfaceType.layoutOf, ← hr.1]
    cases r <;> rfl
  | .record name fs, _, ht => by
    refine ensures_cached (Ensures.bindPure (ensures_queryFields fs fun t hp u hu =>
      ht u (.head ⟨trivial, hp⟩ hu)) fun r e _ hr => ⟨?_, fun u hu => hr.2 u hu.2⟩) (ht _ .refl)
    rw [InterfaceType.layoutOf, ← hr.1]
    cases r <;> rfl
  | .taggedUnion name vs, _, ht => by
    refine ensures_cached (Ensures.bind (Ensures.liftExcept (Q := fun r _ =>
      r = tagLayout (vs.map (·.tag))) fun _ _ => rfl) (fun r e _ hr => ⟨?_, fun u hu => ?_⟩)
      fun tag e _ htag => ?_) (ht _ .refl)
    · rw [InterfaceType.layoutOf, ← hr]
      rfl
    · obtain ⟨⟨tag, htag⟩, -⟩ := hu
      rw [htag] at hr
      cases hr
    · refine Ensures.bindPure (ensures_queryVariants vs fun t hp u hu =>
        ht u (.head ⟨⟨tag, htag.symm⟩, hp⟩ hu)) fun r e _ hr => ⟨?_, fun u hu => hr.2 u hu.2⟩
      rw [InterfaceType.layoutOf, ← htag, ← hr.1]
      cases r <;> rfl

theorem ensures_queryFields : ∀ (fs : List (Field InterfaceType)) {s : LayoutEngine},
    (∀ t, Attempted (HasLayout w) (fs.map (·.type)) t →
      ∀ u, t.Reaches w u → u.HasLayout w → allowed u) →
    Ensures (completing w allowed) s (queryFields fs) fun r e =>
      r = InterfaceType.layoutOfFields w fs ∧ CompletedIn w (fs.map (·.type)) e
  | [], _, _ => Ensures.pure fun _ _ => ⟨rfl, by simp [CompletedIn]⟩
  | ⟨_, t⟩ :: fs, _, ht => by
    refine Ensures.bind (Steps.Upholds.lasting (ensures_query t (ht t .head)))
      (fun r e he hr => ?_) fun l e _ hl => ?_
    · obtain ⟨hr, hcompleted⟩ := hr e (.self he.1)
      refine ⟨?_, completedIn_cons hcompleted fun ⟨l, hl⟩ => ?_⟩
      · rw [InterfaceType.layoutOfFields, ← hr]
        rfl
      · rw [hl] at hr
        cases hr
    · refine Ensures.of_later fun e' he' => ?_
      obtain ⟨hl', -⟩ := hl e' he'
      refine Ensures.bindPure (ensures_queryFields fs fun p hp => ht p (.tail ⟨_, hl'.symm⟩ hp))
        fun r e'' he'' hr => ⟨?_, completedIn_cons (hl e'' (he'.trans he'')).2 fun _ => hr.2⟩
      rw [InterfaceType.layoutOfFields, ← hl', ← hr.1]
      cases r <;> rfl

theorem ensures_queryVariants : ∀ (vs : List (Variant InterfaceType)) {s : LayoutEngine},
    (∀ t, Attempted (HasLayout w) (vs.flatMap fun v => v.fields.map (·.type)) t →
      ∀ u, t.Reaches w u → u.HasLayout w → allowed u) →
    Ensures (completing w allowed) s (queryVariants vs) fun r e =>
      r = InterfaceType.layoutOfVariants w vs ∧
        CompletedIn w (vs.flatMap fun v => v.fields.map (·.type)) e
  | [], _, _ => Ensures.pure fun _ _ => ⟨rfl, by simp [CompletedIn]⟩
  | ⟨_, _, fs⟩ :: vs, _, ht => by
    refine Ensures.bind (Steps.Upholds.lasting (ensures_queryFields fs fun t hp =>
      ht t (Attempted.append_iff.2 (.inl hp)))) (fun r e he hr => ?_) fun parts e _ hl => ?_
    · obtain ⟨hr, hcompleted⟩ := hr e (.self he.1)
      refine ⟨?_, completedIn_append hcompleted fun hall => ?_⟩
      · rw [InterfaceType.layoutOfVariants, ← hr]
        rfl
      · obtain ⟨parts, hparts⟩ := InterfaceType.exists_layoutOfFields_iff.2 hall
        rw [hparts] at hr
        cases hr
    · refine Ensures.of_later fun e' he' => ?_
      obtain ⟨hl', -⟩ := hl e' he'
      have hall := InterfaceType.exists_layoutOfFields_iff.1 ⟨parts, hl'.symm⟩
      refine Ensures.bindPure (ensures_queryVariants vs fun p hp =>
        ht p (Attempted.append_iff.2 (.inr ⟨hall, hp⟩)))
        fun r e'' he'' hr => ⟨?_, completedIn_append (hl e'' (he'.trans he'')).2 fun _ => hr.2⟩
      rw [InterfaceType.layoutOfVariants, ← hl', ← hr.1]
      cases r <;> rfl

end

end Query

section After

theorem completedIn_foldl {queries : List InterfaceType} (he : e.Sound w allowed)
    (h : ∀ q ∈ queries, ∀ u, q.Reaches w u → u.HasLayout w → allowed u) :
    (completing w allowed).Later e (queries.foldl (fun e t => (e.layoutOf t).2) e) ∧
      ∀ q ∈ queries, Completed w q (queries.foldl (fun e t => (e.layoutOf t).2) e) := by
  induction queries generalizing e with
  | nil => exact ⟨.self he, List.forall_mem_nil _⟩
  | cons q queries ih =>
    have hquery := (ensures_query q (s := e) (h q List.mem_cons_self)).run he
    obtain ⟨hlater, hall⟩ := ih hquery.1.1 fun p hp => h p (.tail _ hp)
    exact ⟨hquery.1.trans hlater, List.forall_mem_cons.2 ⟨hquery.2.2.later hlater, hall⟩⟩

/-- What an engine has on record is what the rule completed on its way to the layout of one of the
queries so far, whether it came to an end there or not. -/
theorem has_after_iff {queries : List InterfaceType} :
    (after w queries).has t = true ↔ t.HasLayout w ∧ ∃ q ∈ queries, q.Reaches w t := by
  have hempty : Sound w (fun t => ∃ q ∈ queries, q.Reaches w t) { word := w } :=
    ⟨⟨rfl, fun _ _ h => by simp at h⟩, fun _ h => by simp [has] at h, fun _ h => by simp [has] at h⟩
  obtain ⟨⟨hsound, -⟩, hcompleted⟩ := completedIn_foldl hempty fun q hq u hu _ => ⟨q, hq, hu⟩
  refine ⟨fun h => ⟨?_, hsound.allowed t h⟩, fun ⟨hl, q, hq, hreaches⟩ =>
    hcompleted q hq t hreaches hl⟩
  obtain ⟨issued, hissued⟩ := Option.isSome_iff_exists.1 h
  exact ⟨_, hsound.faithful.2 t issued hissued⟩

/-- A failed query leaves no layout for its type behind. -/
theorem has_of_failed {r : TagRange} (he : e.Faithful w) (h : (e.layoutOf t).1 = .error r) :
    (e.layoutOf t).2.has t = false := by
  have hrule := answer_layoutOf he t
  rw [h] at hrule
  rw [has, Option.isSome_eq_false_iff, Option.isNone_iff_eq_none, Option.eq_none_iff_forall_ne_some]
  intro issued hissued
  rw [(later_layoutOf he t).1.2 t issued hissued] at hrule
  cases hrule

/-- Whatever an engine was asked before, it answers as if nothing were kept; what it has on record
is what was completed on the way, also of the queries that failed; and a query that fails records
nothing for its own type and leaves every layout on record as it was. -/
theorem transparent_after (w : WordSize) (queries : List InterfaceType) :
    (∀ t, ((after w queries).layoutOf t).1.map (·.layout) = t.layoutOf w)
      ∧ (∀ t, (after w queries).has t = true ↔ t.HasLayout w ∧ ∃ q ∈ queries, q.Reaches w t)
      ∧ ∀ t r, ((after w queries).layoutOf t).1 = .error r →
        ((after w queries).layoutOf t).2.has t = false
          ∧ ∀ u issued, (after w queries).cache.lookup u = some issued →
            ((after w queries).layoutOf t).2.cache.lookup u = some issued :=
  have hfaithful := faithful_after w queries
  ⟨layoutOf_after w queries, fun _ => has_after_iff, fun t _ h =>
    ⟨has_of_failed hfaithful h, (later_layoutOf hfaithful t).2⟩⟩

/-- A record whose second field has a tag that no tag can hold. -/
def halfway : InterfaceType :=
  .record "Halfway" [⟨"near", .primitive .int 32 true⟩,
    ⟨"far", .taggedUnion "Far" [⟨"Out", 2 ^ 64, []⟩]⟩]

/-- The failed query has completed its first field, and not the record. -/
theorem transparent_after_halfway :
    ((after .bits64 []).layoutOf halfway).1 = .error ⟨2 ^ 64, 2 ^ 64⟩
      ∧ ((after .bits64 []).layoutOf halfway).2.has halfway = false
      ∧ (after .bits64 [halfway]).has (.primitive .int 32 true) = true := by
  have hfailed : ((after .bits64 []).layoutOf halfway).1 = .error ⟨2 ^ 64, 2 ^ 64⟩ := rfl
  have hnear : halfway.Attempts .bits64 (.primitive .int 32 true) := ⟨trivial, .head⟩
  refine ⟨hfailed, ((transparent_after .bits64 []).2.2 halfway _ hfailed).1, ?_⟩
  exact ((transparent_after .bits64 [halfway]).2.1 _).2
    ⟨⟨_, rfl⟩, halfway, List.mem_singleton_self _, .single hnear⟩

end After

end LayoutEngine

end Crossing
