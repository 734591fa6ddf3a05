import Crossing.Proofs.Building.Answer
import Crossing.Proofs.Building.Registered
import Crossing.Proofs.Ownership.Ruled
import Crossing.Run

/-!
# Taking an item through

What becomes of an item in a run, whoever else uses the builder and the resolver meanwhile: the
builder answers for it as its task yields, and what it answers is registered; the resolver answers by
the rules (`ensures_process`). So all that can differ between two runs are the numbers of layouts
(`Processed.unique`).
-/

namespace Crossing

namespace Run

open Building (Task TypeModel)
open Building.Builder (Faithful registering)

/-- The warnings of a log. -/
def warnings (records : List Log.Record) : List Log.Record :=
  records.filter (·.level == Log.warningLevel)

theorem warnings_append_debug (records : List Log.Record) (logger message : String) :
    warnings (records ++ [Log.debug logger message]) = warnings records := by
  rw [warnings, List.filter_append]
  exact List.append_nil _

/-- The builder knows nothing but the truth, and its table is closed and only grows. -/
def building (m : TypeModel) : Discipline Building.Builder :=
  (Discipline.ofInv (Faithful m)).and registering

/-- Builder and resolver do as they should, and nobody is warned yet. -/
def running (m : TypeModel) (w : WordSize) (allowed : String × String → Prop) :
    Discipline RunState where
  Inv s := (building m).Inv s.builder ∧ (Ownership.resolving w allowed).Inv s.resolver
  Grows s t := (building m).Grows s.builder t.builder
    ∧ (Ownership.resolving w allowed).Grows s.resolver t.resolver ∧ warnings t.log = warnings s.log
  refl _ := ⟨Discipline.refl _ _, Discipline.refl _ _, rfl⟩
  trans h h' := ⟨Discipline.trans _ h.1 h'.1, Discipline.trans _ h.2.1 h'.2.1,
    h'.2.2.trans h.2.2⟩

variable {m : TypeModel} {w : WordSize} {allowed : String × String → Prop}
  {terms : Ownership.Terms} {item : ExportItem} {s t : RunState}

theorem later_builder (h : (running m w allowed).Later s t) :
    (building m).Later s.builder t.builder := ⟨h.1.1, h.2.1⟩

theorem later_resolver (h : (running m w allowed).Later s t) :
    (Ownership.resolving w allowed).Later s.resolver t.resolver := ⟨h.1.2, h.2.2.1⟩

/-- A stage on its part of the state is as the part has it. -/
theorem ensures_stage {ε τ α : Type} {D : Discipline RunState} {E : Discipline τ}
    {part : RunState → τ} {replace : RunState → τ → RunState} {fault : ε → RunFault}
    {x : ExceptT ε (Steps τ) α} {Q : Except ε α → τ → Prop}
    (hpart : ∀ s t, D.Later s t → E.Later (part s) (part t))
    (hreplace : ∀ s t, D.Inv s → E.Later (part s) t → D.Later s (replace s t))
    (hget : ∀ s t, part (replace s t) = t) (h : Ensures E (part s) x Q) :
    Ensures D s (stage part replace fault x) fun r t =>
      ∃ a, r = a.mapError fault ∧ Q a (part t) := by
  have hwithin := (Steps.Upholds.within hpart hreplace hget h).lasting
  unfold Ensures stage
  rw [ExceptT.run_mk, map_eq_pure_bind]
  exact hwithin.bind fun a t _ ha u hu => ⟨a, rfl, ha u hu⟩

theorem ensures_build (hnodup : m.index.names.Nodup) (item : ExportItem) (s : RunState) :
    Ensures (running m w allowed) s (build m item) fun r t =>
      ∃ a, r = a.mapError RunFault.building ∧ (OnValue (Building.Answers m item) a
        ∧ OnFailure ((Task.ofItem m item).DoomedBy m) a)
        ∧ ∀ u, a = .ok (.ok u) → u ∈ t.builder.table.types := by
  have hitem := (Building.Builder.keeps_buildItem_answer hnodup item s.builder).and
    (Building.Builder.ensures_buildItem m item s.builder)
  have hreplace : ∀ (s : RunState) b, (running m w allowed).Inv s →
      (building m).Later s.builder b → (running m w allowed).Later s { s with builder := b } :=
    fun _ _ hs hb => ⟨⟨hb.1, hs.2⟩, hb.2, Discipline.refl _ _, rfl⟩
  exact ensures_stage (fun _ _ => later_builder) hreplace (fun _ _ => rfl) hitem

theorem ensures_resolve {u : InterfaceType}
    (hallowed : ∀ h ∈ Ownership.hintedItem terms item u, allowed h) :
    Ensures (running m w allowed) s (resolve terms item u) fun r t =>
      ∃ a, r = a.mapError RunFault.ownership ∧
        Ownership.Answers ResolvedItem.unnumbered ResolvedItem.slots
          (Ownership.ruledItem w terms item u) (Ownership.hintedItem terms item u) a t.resolver := by
  have hreplace : ∀ (s : RunState) r, (running m w allowed).Inv s →
      (Ownership.resolving w allowed).Later s.resolver r →
        (running m w allowed).Later s { s with resolver := r } :=
    fun _ _ hs hr => ⟨⟨hs.1, hr.1⟩, Discipline.refl _ _, hr.2, rfl⟩
  exact ensures_stage (fun _ _ => later_resolver) hreplace (fun _ _ => rfl)
    (Ownership.ensures_resolveItem u s.resolver hallowed)

/-- Telling of a step disturbs nothing. -/
theorem ensures_log {α : Type} {logger message : String} {f : Unit → RunM α}
    {Q : Except RunFault α → RunState → Prop}
    (h : ∀ t, (running m w allowed).Later s t → Ensures (running m w allowed) t (f ()) Q) :
    Ensures (running m w allowed) s (log (Log.debug logger message) >>= f) Q := by
  refine Ensures.modifyBind fun t ht => ?_
  have hlater : (running m w allowed).Later t
      { t with log := t.log ++ [Log.debug logger message] } :=
    ⟨ht.1, Discipline.refl _ _, Discipline.refl _ _, warnings_append_debug ..⟩
  exact ⟨hlater, h _ (ht.trans hlater)⟩

/-- What an item comes to in a run. -/
inductive Processed (m : TypeModel) (w : WordSize) (terms : Ownership.Terms) (item : ExportItem) :
    Except RunFault (Findings Diagnostic ResolvedItem) → RunState → Prop where
  | doomed {fault : Building.Fault} {s : RunState} (task : (Task.ofItem m item).Doomed m) :
      Processed m w terms item (.error (.building fault)) s
  | refused {ds : List Diagnostic} {s : RunState} (built : Building.Answers m item (.error ds)) :
      Processed m w terms item (.ok (.error ds)) s
  | resolved {u : InterfaceType} {a : Except Ownership.Fault (Findings Diagnostic ResolvedItem)}
      {r : Except RunFault (Findings Diagnostic ResolvedItem)} {s : RunState}
      (built : Building.Answers m item (.ok u)) (registered : u ∈ s.builder.table.types)
      (answers : Ownership.Answers ResolvedItem.unnumbered ResolvedItem.slots
        (Ownership.ruledItem w terms item u) (Ownership.hintedItem terms item u) a s.resolver)
      (eq : r = a.mapError .ownership) : Processed m w terms item r s

theorem mapError_eq_ok {ε ε' α : Type} {f : ε → ε'} {r : Except ε α} {a : α}
    (h : r.mapError f = .ok a) : r = .ok a := by
  cases r with
  | error => cases h
  | ok b => exact congrArg _ (Except.ok.inj h)

theorem mapError_eq_error {ε ε' α : Type} {f : ε → ε'} {r : Except ε α} {e' : ε'}
    (h : r.mapError f = .error e') : ∃ e, r = .error e ∧ f e = e' := by
  cases r with
  | error e => exact ⟨e, rfl, Except.error.inj h⟩
  | ok => cases h

/-- What `process` answers beside others. -/
theorem ensures_process (hnodup : m.index.names.Nodup) (item : ExportItem) (s : RunState)
    (hallowed : ∀ u, Building.Answers m item (.ok u) →
      ∀ h ∈ Ownership.hintedItem terms item u, allowed h) :
    Ensures (running m w allowed) s (process m terms item) (Processed m w terms item) := by
  unfold process
  -- What is known of the built type lasts while the item is resolved, whatever others do meanwhile.
  refine Ensures.bind (Steps.Upholds.lasting (ensures_build hnodup item s))
    (fun e t ht he => ?_) fun built t ht hbuilt => ensures_log fun t' ht' => ?_
  · obtain ⟨a, heq, ⟨-, hdoomed⟩, -⟩ := he t (.self ht.1)
    obtain ⟨fault, rfl, rfl⟩ := mapError_eq_error heq.symm
    exact .doomed hdoomed.doomed
  obtain ⟨a, heq, ⟨hanswers, -⟩, -⟩ := hbuilt t (.self ht.1)
  obtain rfl := mapError_eq_ok heq.symm
  cases built with
  | error ds => exact Ensures.pure fun _ _ => .refused hanswers
  | ok u =>
    have hresolve := Steps.Upholds.lasting
      (ensures_resolve (m := m) (w := w) (s := t') (hallowed u hanswers))
    have hresolved : ∀ r v, (running m w allowed).Later t' v →
        (∃ a, r = a.mapError RunFault.ownership ∧
          Ownership.Answers ResolvedItem.unnumbered ResolvedItem.slots
            (Ownership.ruledItem w terms item u) (Ownership.hintedItem terms item u) a v.resolver) →
        Processed m w terms item r v := by
      intro r v hv hr
      obtain ⟨b, hb, -, hregistered⟩ := hbuilt v (ht'.trans hv)
      obtain ⟨a, ha, hruled⟩ := hr
      exact .resolved hanswers (hregistered u (mapError_eq_ok hb.symm)) hruled ha
    refine Ensures.bind hresolve (fun e v hv he => hresolved _ v hv (he v (.self hv.1)))
      fun r v hv hr => ensures_log fun v' hv' => Ensures.pure fun v'' hv'' => ?_
    exact hresolved _ v'' (hv.trans (hv'.trans hv'')) (hr v'' (hv'.trans hv''))

/-- An outcome without the numbers of layouts. -/
def unnumbered : Findings Diagnostic ResolvedItem → Findings Diagnostic ResolvedItem :=
  Except.map ResolvedItem.unnumbered

/-- Up to the numbers of layouts, an item that can be built comes to the same in any two runs. -/
theorem Processed.unique {r r' : Except RunFault (Findings Diagnostic ResolvedItem)}
    (hbuilds : ¬ (Task.ofItem m item).Doomed m) (h : Processed m w terms item r s)
    (h' : Processed m w terms item r' t) :
    r.map unnumbered = r'.map unnumbered := by
  have hmapError : ∀ a : Except Ownership.Fault (Findings Diagnostic ResolvedItem),
      (a.mapError RunFault.ownership).map unnumbered =
        (a.map (Except.map ResolvedItem.unnumbered)).mapError RunFault.ownership := by
    intro a
    cases a <;> rfl
  rcases h with ⟨hdoomed⟩ | ⟨hbuilt⟩ | ⟨hbuilt, -, hanswers, rfl⟩
  · exact absurd hdoomed hbuilds
  all_goals rcases h' with ⟨hdoomed⟩ | ⟨hbuilt'⟩ | ⟨hbuilt', -, hanswers', rfl⟩
  all_goals try exact absurd hdoomed hbuilds
  all_goals have hunique := hbuilt.unique hbuilt'
  · rw [Except.error.inj hunique]
  · simp at hunique
  · simp at hunique
  · obtain rfl := Except.ok.inj hunique
    rw [hmapError, hmapError, hanswers.ruled, hanswers'.ruled]

/-- The hints that the rules make use of for an item are noted when it is through. -/
theorem Processed.noted {r : Findings Diagnostic ResolvedItem} {u : InterfaceType}
    (h : Processed m w terms item (.ok r) s) (hu : Building.Answers m item (.ok u)) :
    ∀ hint ∈ Ownership.hintedItem terms item u, hint ∈ s.resolver.applied := by
  generalize hanswer : Except.ok r = answer at h
  rcases h with ⟨-⟩ | ⟨hbuilt⟩ | ⟨hbuilt, -, hanswers, rfl⟩
  · cases hanswer
  · cases hbuilt.unique hu
  · obtain rfl := Except.ok.inj (hu.unique hbuilt)
    exact hanswers.noted r (mapError_eq_ok hanswer.symm)

end Run

end Crossing
