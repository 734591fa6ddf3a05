import Mathlib
import Crossing.Building.Item
import Crossing.Proofs.Building.Faithful
import Crossing.Proofs.Building.Handle

/-!
# Everything built is registered

The table of a builder has the parts of everything that it has (`TypeTable.Closed`), and it only
grows. So a type that has been built is registered with all that lies inside it, from then on and
whoever else uses the table (`ensures_make`).
-/

namespace Crossing

namespace Building

namespace Builder

/-- The table is closed and has what is remembered, and it only grows. -/
def registering : Discipline Builder where
  Inv b := b.table.Closed ∧ ∀ name t, b.expansions.lookup name = some (.ok t) → t ∈ b.table.types
  Grows b b' := ∀ t ∈ b.table.types, t ∈ b'.table.types
  refl _ _ ht := ht
  trans h h' t ht := h' t (h t ht)

/-- A type that is answered is registered. -/
def Registered (answer : Except Fault Outcome) (b : Builder) : Prop :=
  ∀ t, answer = .ok (.ok t) → t ∈ b.table.types

variable {m : TypeModel} {b : Builder}

theorem later_withTable (hb : registering.Inv b) {table : TypeTable} (hclosed : table.Closed)
    (hgrows : ∀ t ∈ b.table.types, t ∈ table.types) :
    registering.Later b ({ b with table } : Builder) :=
  ⟨⟨hclosed, fun name t ht => hgrows t (hb.2 name t ht)⟩, hgrows⟩

theorem ensures_keep {t : InterfaceType} (ht : ∀ u ∈ t.parts, u ∈ b.table.types) :
    Ensures registering b (keep t) fun a b' => a = .ok t ∧ t ∈ b'.table.types := by
  refine Ensures.modifyBind fun b' hb' => ⟨?_, Ensures.pure fun b'' hb'' => ⟨rfl, ?_⟩⟩
  · refine later_withTable hb'.1 (hb'.1.1.intern fun u hu => hb'.2 u (ht u hu)) fun u hu => ?_
    exact TypeTable.mem_intern.2 (.inl hu)
  · exact hb''.2 t (TypeTable.mem_intern.2 (.inr rfl))

theorem ensures_keepOutcome {o : Outcome}
    (ho : ∀ t, o = .ok t → ∀ u ∈ t.parts, u ∈ b.table.types) :
    Ensures registering b (keepOutcome o) Registered := by
  cases o with
  | error ps => exact Ensures.pure fun _ _ _ => nofun
  | ok t =>
    refine (ensures_keep (ho t rfl)).map nofun fun u b' _ hu => ?_
    rintro _ ⟨⟩
    exact Except.ok.inj hu.1 ▸ hu.2

theorem ensures_keepAll (t : InterfaceType) :
    Ensures registering b (keepAll t) Registered := by
  refine Ensures.modifyBind fun b' hb' => ⟨?_, Ensures.pure fun b'' hb'' => ?_⟩
  · refine later_withTable hb'.1 (hb'.1.1.internAll t) fun u hu => ?_
    exact TypeTable.mem_internAll.2 (.inl hu)
  · rintro _ ⟨⟩
    exact hb''.2 t (TypeTable.mem_internAll.2 (.inr .refl))

theorem ensures_handle (name : String) : Ensures registering b (handle name) Registered := by
  unfold handle
  refine Ensures.modifyGetBind fun b' hb' => ⟨?_, ?_⟩
  · have htypes : (b'.table.reserve name).2.types = b'.table.types := TypeTable.types_reserve ..
    refine later_withTable hb'.1 ?_ fun u hu => htypes ▸ hu
    unfold TypeTable.Closed
    rw [htypes]
    exact hb'.1.1
  · refine (ensures_keep (by simp)).map nofun fun u b' _ hu => ?_
    rintro _ ⟨⟩
    exact Except.ok.inj hu.1 ▸ hu.2

theorem ensures_meaning {α : Type} {scope : List String} {e : TypeExpr} {f : Resolution → BuildM α}
    {Q : Except Fault α → Builder → Prop}
    (h : ∀ r b', registering.Later b b' → Ensures registering b' (f r) Q) :
    Ensures registering b (meaning m scope e >>= f) Q := by
  refine Ensures.modifyGetBind fun b' hb' => ?_
  have hlater : registering.Later b' (recallMeaning m scope e.names b').2 := by
    unfold recallMeaning
    split
    · exact .self hb'.1
    split
    · exact .self hb'.1
    · exact .self hb'.1
  exact ⟨hlater, h _ _ (hb'.trans hlater)⟩

theorem ensures_build {s : Site} {e : TypeExpr}
    (h : ∀ r b', Ensures registering b' (make m s (m.recipeBy r e)) Registered) :
    Ensures registering b (build m s e) Registered :=
  ensures_meaning fun r b' _ => h r b'

theorem later_remember (hb : registering.Inv b) (name : String) {o : Outcome}
    (ho : Registered (.ok o) b) :
    registering.Later b (remember name o b).2 ∧ Registered (.ok (remember name o b).1) b := by
  unfold remember
  split
  · exact ⟨.self hb, ho⟩
  split
  · refine ⟨.self hb, fun t ht => hb.2 name t ?_⟩
    rwa [← Except.ok.inj ht]
  · refine ⟨⟨⟨hb.1, fun name' t ht => ?_⟩, fun _ h => h⟩, ho⟩
    rw [List.lookup_cons] at ht
    split at ht
    · exact ho t (congrArg Except.ok (Option.some.inj ht))
    · exact hb.2 name' t ht

theorem ensures_remembered (name : String) {compute : BuildM Outcome}
    (h : ∀ b', registering.Later b b' → Ensures registering b' compute Registered) :
    Ensures registering b (remembered name compute) Registered := by
  refine Ensures.getBind fun b' hb' => ?_
  split
  · rename_i o ho
    refine Ensures.pure fun b'' hb'' t ht => hb''.2 t (hb'.1.2 name t ?_)
    unfold recallExpansion at ho
    split at ho
    · simp at ho
    · rw [ho, Except.ok.inj ht]
  · refine Ensures.bind (h b' hb') (fun _ _ _ _ => nofun) fun o b₁ _ ho => ?_
    refine Ensures.modifyGet fun b₂ hb₂ => ?_
    have ho' : Registered (.ok o) b₂ := fun t ht => hb₂.2 t (ho t ht)
    obtain ⟨hlater, hregistered⟩ := later_remember hb₂.1 name ho'
    exact ⟨hlater, fun b₃ hb₃ t ht => hb₃.2 t (hlater.2 t (hregistered t ht))⟩

/-- What a loop answers is registered, each of its answers. -/
theorem registered_of_onEach {α : Type} {xs : List α} {ys : List Outcome}
    (h : OnEach (fun _ => Registered) xs (.ok ys) b) : ∀ y ∈ ys, Registered (.ok y) b := by
  intro y hy
  obtain ⟨made, -, rfl, hmade⟩ := exists_of_forall₂ h.forall₂
  obtain ⟨p, hp, rfl⟩ := List.mem_map.1 hy
  exact hmade p hp

theorem mem_of_all {outs : List Outcome} {ts : List InterfaceType}
    (houts : ∀ y ∈ outs, Registered (.ok y) b) (h : Findings.all outs = .ok ts) :
    ∀ t ∈ ts, t ∈ b.table.types := by
  intro t ht
  refine houts (.ok t) ?_ t rfl
  rw [Findings.all_eq_ok.1 h]
  exact List.mem_map_of_mem ht

/-- A computation with a registered answer behind another. -/
theorem ensures_bind {α : Type} {x : BuildM α} {f : α → BuildM Outcome}
    {Q : Except Fault α → Builder → Prop} (hx : Ensures registering b x Q)
    (hf : ∀ a b', registering.Later b b' → Q (.ok a) b' → Ensures registering b' (f a) Registered) :
    Ensures registering b (x >>= f) Registered :=
  hx.bind (fun _ _ _ _ => nofun) hf

/-- A loop that builds the types of some expressions. -/
theorem ensures_parts {s : Site} {es : List TypeExpr}
    (h : ∀ e ∈ es, ∀ b', Ensures registering b' (build m s e) Registered) :
    Ensures registering b (es.mapM (build m s)) fun a b' =>
      ∀ outs, a = .ok outs → ∀ o ∈ outs, Registered (.ok o) b' := by
  refine (Ensures.mapM (R := fun _ => Registered) fun e he b' _ => h e he b').mono ?_
  rintro _ b' - houts outs rfl
  exact registered_of_onEach houts

theorem ensures_makeFields {s : Site} {n : Nominal} {fields : List NativeField}
    (h : ∀ (f : NativeField) b', Ensures registering b' (build m (m.expand s n) f.type) Registered) :
    Ensures registering b (makeFields m s n fields) fun a b' => ∀ outs, a = .ok outs →
      ∀ fs, Findings.all outs = .ok fs → ∀ f ∈ fs, f.type ∈ b'.table.types := by
  refine (Ensures.mapM (R := fun _ a b' => ∀ f, a = .ok (.ok f) → f.type ∈ b'.table.types)
    fun x _ b₁ _ => (h x.2 b₁).bind (fun _ _ _ _ => nofun) fun o b₂ _ ho =>
      Ensures.pure fun b₃ hb₃ f hf => ?_).mono ?_
  · obtain ⟨t, rfl, rfl⟩ := Findings.map_eq_ok.1 (Except.ok.inj hf)
    exact hb₃.2 t (ho t rfl)
  · rintro _ b' - houts outs rfl fs hfs f hf
    obtain ⟨made, -, rfl, hmade⟩ := exists_of_forall₂ houts.forall₂
    obtain ⟨x, hx⟩ := Findings.exists_of_mem_all hfs hf
    exact hmade _ hx f rfl

theorem ensures_makeRecord {s : Site} {n : Nominal} {fields : List NativeField}
    (h : ∀ (f : NativeField) b', Ensures registering b' (build m (m.expand s n) f.type) Registered) :
    Ensures registering b (makeRecord m s n fields) Registered := by
  refine ensures_bind (ensures_makeFields h) fun outs b₁ _ houts => ensures_keepOutcome ?_
  intro t ht u hu
  obtain ⟨fs, hfs, rfl⟩ := Findings.map_eq_ok.1 ht
  rw [InterfaceType.parts_record] at hu
  obtain ⟨f, hf, rfl⟩ := List.mem_map.1 hu
  exact houts outs rfl fs hfs f hf

theorem ensures_makeUnion {s : Site} {n : Nominal} {variants : List NativeVariant}
    (h : ∀ (f : NativeField) b', Ensures registering b' (build m (m.expand s n) f.type) Registered) :
    Ensures registering b (makeUnion m s n variants) Registered := by
  refine ensures_bind (Q := fun a b' => ∀ outs, a = .ok outs → ∀ vs, Findings.all outs = .ok vs →
    ∀ v ∈ vs, ∀ f ∈ v.fields, f.type ∈ b'.table.types) ?_ fun outs b₁ _ houts =>
      ensures_keepOutcome ?_
  · refine (Ensures.mapM (R := fun _ a b' => ∀ v, a = .ok (.ok v) →
      ∀ f ∈ v.fields, f.type ∈ b'.table.types) fun x _ b₁ _ => (ensures_makeFields h).bind
        (fun _ _ _ _ => nofun) fun outs b₂ _ houts => Ensures.pure fun b₃ hb₃ v hv f hf => ?_).mono ?_
    · obtain ⟨_, fs, -, hfs, rfl⟩ := Findings.combine_eq_ok.1 (Except.ok.inj hv)
      exact hb₃.2 _ (houts outs rfl fs hfs f hf)
    · rintro _ b' - houts outs rfl vs hvs v hv f hf
      obtain ⟨made, -, rfl, hmade⟩ := exists_of_forall₂ houts.forall₂
      obtain ⟨x, hx⟩ := Findings.exists_of_mem_all hvs hv
      exact hmade _ hx v rfl f hf
  · intro t ht u hu
    obtain ⟨vs, _, hvs, -, rfl⟩ := Findings.combine_eq_ok.1 ht
    rw [InterfaceType.parts_taggedUnion] at hu
    obtain ⟨v, hv, hu⟩ := List.mem_flatMap.1 hu
    obtain ⟨f, hf, rfl⟩ := List.mem_map.1 hu
    exact houts outs rfl vs hvs v hv f hf

theorem registered_error (problems : List Problem) : Registered (.ok (.error problems)) b := by
  rintro _ ⟨⟩

theorem registered_fault (fault : Fault) : Registered (.error fault) b := by
  rintro _ ⟨⟩

/-- What a function returns is registered, and so is its failure. -/
theorem ensures_makeReturn {s : Site} {ret : Return}
    (h : ∀ e ∈ ret.types, ∀ b', Ensures registering b' (build m s e) Registered) :
    Ensures registering b (makeReturn m s ret) fun a b' => ∀ r, a = .ok (.ok r) →
      ∀ t ∈ r.1 :: (InterfaceType.failureParts r.2).map (·.2), t ∈ b'.table.types := by
  cases ret with
  | value t =>
    refine (h t List.mem_cons_self b).bind (fun _ _ _ _ => nofun) fun o b₁ _ ho =>
      Ensures.pure fun b₂ hb₂ r hr u hu => ?_
    obtain ⟨t', rfl, rfl⟩ := Findings.map_eq_ok.1 (Except.ok.inj hr)
    obtain rfl := List.mem_singleton.1 hu
    exact hb₂.2 _ (ho _ rfl)
  | fallible t e =>
    refine (h t List.mem_cons_self b).bind (fun _ _ _ _ => nofun) fun o b₁ _ ho => ?_
    refine (h e (.tail _ List.mem_cons_self) b₁).bind (fun _ _ _ _ => nofun) fun oe b₂ hb₂ hoe =>
      Ensures.pure fun b₃ hb₃ r hr u hu => ?_
    obtain ⟨t', e', rfl, rfl, rfl⟩ := Findings.combine_eq_ok.1 (Except.ok.inj hr)
    rcases List.mem_pair.1 hu with rfl | rfl
    · exact hb₃.2 _ (hb₂.2 _ (ho _ rfl))
    · exact hb₃.2 _ (hoe _ rfl)
  | malformed problem =>
    exact Ensures.pure fun _ _ _ => nofun

/-- What `make` answers is registered. -/
theorem ensures_make (m : TypeModel) (s : Site) (r : Recipe) (b : Builder) :
    Ensures registering b (make m s r) Registered := by
  -- Types go into the table when their parts are in it; with a closed table that is all there is.
  induction s, r using make_induction (m := m) generalizing b with
  | exact s t =>
    rw [make_exact]
    exact ensures_keepAll t
  | refuse s problem =>
    rw [make_refuse]
    exact Ensures.pure fun _ _ => registered_error _
  | illFormed s parts reason =>
    rw [make_illFormed]
    refine ensures_bind (Ensures.forM fun t _ b₁ _ => ?_) fun _ _ _ _ =>
      Ensures.throw fun _ _ => registered_fault _
    exact (ensures_keepAll t).map (fun _ _ _ _ => trivial) fun _ _ _ _ => trivial
  | wrap s via part wrapper ih =>
    rw [make_wrap]
    refine ensures_bind (ensures_build ih) fun o b₂ _ ho => ?_
    cases o with
    | error ps => exact Ensures.pure fun _ _ => registered_error _
    | ok t =>
      refine ensures_bind (Q := fun a _ => a = wrapper.around t) (Ensures.liftExcept fun _ _ => rfl)
        fun o b₃ hb₃ haround => ensures_keepOutcome fun u hu v hv => ?_
      subst hu
      have ht : t ∈ b₃.table.types := hb₃.2 t (ho t rfl)
      rcases Wrapper.part_of_around haround.symm hv with rfl | hv
      · exact ht
      · exact hb₃.1.1 t ht v hv
  | tuple s parts ih =>
    rw [make_tuple]
    refine ensures_bind (ensures_parts fun p hp _ => ensures_build (ih p hp)) fun outs b₁ _ houts =>
      ensures_keepOutcome fun t ht u hu => ?_
    obtain ⟨ts, hts, rfl⟩ := Findings.map_eq_ok.1 ht
    exact mem_of_all (houts outs rfl) hts u (by simpa using hu)
  | function s params ret holding ih =>
    have hparams := ensures_parts (m := m) (b := b) fun p hp _ =>
      ensures_build (ih p (List.mem_append_left ret.types hp))
    have hret := fun b' => ensures_makeReturn (m := m) (b := b') fun e he _ =>
      ensures_build (ih e (List.mem_append_right params he))
    rw [make_function]
    refine ensures_bind hparams fun outs b₁ _ houts => ensures_bind (hret b₁) fun r b₂ hb₂ hr =>
      ensures_keepOutcome fun u hu v hv => ?_
    obtain ⟨ps, r, hps, rfl, rfl⟩ := Findings.combine_eq_ok.1 hu
    rw [functionOf, InterfaceType.parts_function, List.mem_append] at hv
    rcases hv with hv | hv
    · exact hb₂.2 v (mem_of_all (houts outs rfl) hps v hv)
    · exact hr r rfl v hv
  | buffer s n element holding ih =>
    rw [make_buffer]
    split
    · refine ensures_bind (ensures_build (ih ‹_›)) fun o b₂ _ ho => ?_
      cases o with
      | error ps => exact Ensures.pure fun _ _ => registered_error _
      | ok t => exact ensures_keepOutcome (o := .ok (.buffer t holding)) (by
          rintro _ ⟨⟩ u hu
          obtain rfl : u = t := by simpa using hu
          exact ho u rfl)
    · exact Ensures.throw fun _ _ => registered_fault _
  | refused s n mention problem href =>
    rw [make_refused href]
    exact Ensures.pure fun _ _ => registered_error _
  | handled s n mention href =>
    rw [make_handle href]
    exact ensures_handle n.name
  | opened s n mention target href ih =>
    rw [make_alias href]
    exact ensures_build ih
  | record s n mention fields href ih =>
    rw [make_record href]
    refine ensures_remembered n.name fun b₁ _ => ?_
    split
    · exact ensures_makeRecord fun f b₂ => ensures_build (ih ‹_› f)
    · exact Ensures.throw fun _ _ => registered_fault _
  | emptyUnion s n mention href =>
    rw [make_emptyUnion href]
    exact Ensures.pure fun _ _ => registered_error _
  | union s n mention variants hne href ih =>
    rw [make_union hne href]
    refine ensures_remembered n.name fun b₁ _ => ?_
    split
    · exact ensures_makeUnion fun f b₂ => ensures_build (ih ‹_› f)
    · exact Ensures.throw fun _ _ => registered_fault _

theorem ensures_buildItem (m : TypeModel) (item : ExportItem) (b : Builder) :
    Ensures registering b (buildItem m item) fun a b' =>
      ∀ t, a = .ok (.ok t) → t ∈ b'.table.types := by
  have hdeclared : Ensures registering b (buildDeclared m item) Registered := by
    unfold buildDeclared
    simp only
    split
    · exact ensures_make m _ _ b
    · exact ensures_build fun r => ensures_make m _ _
    · exact ensures_build fun r => ensures_make m _ _
  refine hdeclared.bind (fun _ _ _ _ => nofun) fun o b₁ _ ho => Ensures.pure fun b₂ hb₂ t ht => ?_
  exact hb₂.2 t (ho t (congrArg Except.ok (ok_of_reported (Except.ok.inj ht))))

theorem types_ofModel (m : TypeModel) : (ofModel m).table.types = [] :=
  TypeTable.types_foldl_reserve _ _

theorem registering_ofModel (m : TypeModel) : registering.Inv (ofModel m) := by
  refine ⟨?_, fun name t ht => ?_⟩
  · simp [TypeTable.Closed, types_ofModel]
  · simp [ofModel] at ht

theorem registering_after (m : TypeModel) (items : List ExportItem) :
    registering.Inv (after m items) := by
  induction items using List.reverseRecOn with
  | nil => exact registering_ofModel m
  | append_singleton items item ih =>
    rw [after, List.foldl_append]
    exact ((ensures_buildItem m item _).run ih).1.1

end Builder

end Building

end Crossing
