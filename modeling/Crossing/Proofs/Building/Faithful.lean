import Crossing.Building.Item
import Crossing.Proofs.Building.Making
import Crossing.Proofs.Building.Reference
import Crossing.Proofs.Building.Yield
import Crossing.Proofs.InterfaceType.Table

/-!
# Builders are faithful

What a builder remembers is what the nominal types yield (`Builder.Faithful`), and so is what it
answers (`keeps_make`), whatever it built before. The induction is that of `make`; a builder that
remembers the contents of a nominal type does not build them, and the remembered outcome stands for
them because names are distinct in an index.
-/

namespace Crossing

namespace Building

variable {m : TypeModel}

/-- A recipe that follows a mention follows one of the index. -/
def Recipe.Known (m : TypeModel) (r : Recipe) : Prop :=
  ∀ n mention, r = .named n mention → n ∈ m.index.nominals

theorem TypeModel.known_recipe (m : TypeModel) (scope : List String) (e : TypeExpr) :
    (m.recipe scope e).Known m :=
  fun n mention h => NominalIndex.resolve_mem ((m.sane_recipe scope e).named n mention h)

namespace Builder

/-- The table has reserved the handles of the model and no others, and what is remembered are the
meanings of paths and the contents that the nominal types yield. -/
structure Faithful (m : TypeModel) (b : Builder) : Prop where
  handles : b.table.nominals = m.index.handled m.graph
  means : ∀ names scope meaning, b.meanings.lookup (names, scope) = some meaning →
    meaning = m.index.resolve names scope
  remembers : ∀ name o, b.expansions.lookup name = some o →
    ∃ n ∈ m.index.nominals, n.name = name ∧ Yields m (.contents n) o

theorem faithful_ofModel (h : m.index.names.Nodup) : (ofModel m).Faithful m := by
  refine ⟨?_, fun names scope meaning h => by simp [ofModel] at h,
    fun name o ho => by simp [ofModel] at ho⟩
  have hhandled : (m.index.handled m.graph).Nodup := by
    unfold NominalIndex.handled
    exact h.sublist (List.filter_sublist.map _)
  exact TypeTable.nominals_foldl_reserve _ {} (by simpa using hhandled)

theorem Faithful.withTable {b : Builder} {table : TypeTable} (h : b.Faithful m)
    (htable : table.nominals = b.table.nominals) : ({ b with table } : Builder).Faithful m :=
  ⟨htable.trans h.handles, h.means, h.remembers⟩

/-- A path has its meaning where meanings are remembered rightly, and then they still are. -/
theorem recallMeaning_of_means {b : Builder}
    (h : ∀ names scope meaning, b.meanings.lookup (names, scope) = some meaning →
      meaning = m.index.resolve names scope) (scope names : List String) :
    (recallMeaning m scope names b).1 = m.index.resolve names scope ∧
      ∃ meanings, (recallMeaning m scope names b).2 = { b with meanings } ∧
        ∀ names scope meaning, meanings.lookup (names, scope) = some meaning →
          meaning = m.index.resolve names scope := by
  unfold Builder.recallMeaning
  split
  · exact ⟨rfl, b.meanings, rfl, h⟩
  split
  · exact ⟨h names scope _ ‹_›, b.meanings, rfl, h⟩
  · refine ⟨rfl, _, rfl, fun names' scope' meaning hmeaning => ?_⟩
    rw [List.lookup_cons] at hmeaning
    split at hmeaning
    · obtain ⟨rfl, rfl⟩ := Prod.mk.inj (eq_of_beq ‹_›)
      exact (Option.some.inj hmeaning).symm
    · exact h names' scope' meaning hmeaning

theorem Faithful.recallMeaning {b : Builder} (h : b.Faithful m) (scope names : List String) :
    (recallMeaning m scope names b).1 = m.index.resolve names scope
      ∧ (recallMeaning m scope names b).2.Faithful m := by
  obtain ⟨hanswer, meanings, heq, hmeans⟩ := recallMeaning_of_means h.means scope names
  exact ⟨hanswer, heq ▸ ⟨h.handles, hmeans, h.remembers⟩⟩

theorem Faithful.yields {b : Builder} (h : b.Faithful m) (hnodup : m.index.names.Nodup)
    {n : Nominal} (hn : n ∈ m.index.nominals) {o : Outcome} (ho : b.expansions.lookup n.name = some o) :
    Yields m (.contents n) o := by
  obtain ⟨n', hn', hname, hyields⟩ := h.remembers n.name o ho
  rwa [NominalIndex.eq_of_name_eq hnodup hn hn' hname.symm]

theorem Faithful.recallExpansion {b : Builder} (h : b.Faithful m) (hnodup : m.index.names.Nodup)
    {n : Nominal} (hn : n ∈ m.index.nominals) {o : Outcome}
    (ho : recallExpansion n.name b = some o) : Yields m (.contents n) o := by
  unfold Builder.recallExpansion at ho
  split at ho
  · simp at ho
  · exact h.yields hnodup hn ho

/-- What comes to be remembered is right, whoever was first. -/
theorem Faithful.remember {b : Builder} (h : b.Faithful m) (hnodup : m.index.names.Nodup)
    {n : Nominal} (hn : n ∈ m.index.nominals) {o : Outcome} (ho : Yields m (.contents n) o) :
    Yields m (.contents n) (remember n.name o b).1 ∧ (remember n.name o b).2.Faithful m := by
  unfold Builder.remember
  split
  · exact ⟨ho, h⟩
  split
  · exact ⟨h.yields hnodup hn ‹_›, h⟩
  · refine ⟨ho, h.handles, h.means, fun name o' ho' => ?_⟩
    simp only [List.lookup_cons] at ho'
    split at ho'
    · obtain rfl : o = o' := Option.some.inj ho'
      exact ⟨n, hn, (eq_of_beq ‹_›).symm, ho⟩
    · exact h.remembers name o' ho'

theorem keeps_keep (t : InterfaceType) : Keeps (Faithful m) (keep t) (· = .ok t) := by
  refine Keeps.bind (Q := (· = .ok ())) (Keeps.modify (fun b hb => ?_) rfl) nofun fun _ _ =>
    Keeps.pure rfl
  exact hb.withTable (TypeTable.nominals_intern _ _)

theorem keeps_keepOutcome (o : Outcome) : Keeps (Faithful m) (keepOutcome o) (· = .ok o) := by
  cases o with
  | ok t => exact (keeps_keep t).map
  | error ps => exact Keeps.pure rfl

theorem keeps_keepAll (t : InterfaceType) : Keeps (Faithful m) (keepAll t) (· = .ok (.ok t)) := by
  refine Keeps.bind (Q := (· = .ok ())) (Keeps.modify (fun b hb => ?_) rfl) nofun fun _ _ =>
    Keeps.pure rfl
  exact hb.withTable (TypeTable.nominals_internAll _ _)

theorem keeps_handle {name : String} {number : Nat}
    (h : (m.index.handled m.graph).idxOf? name = some number) :
    Keeps (Faithful m) (handle name) (· = .ok (.ok (.handle number name))) := by
  unfold handle
  refine Keeps.bind (Q := (· = .ok number)) (Keeps.modifyGet fun b hb => ?_) nofun fun k hk => ?_
  · have hreserve : b.table.reserve name = (number, b.table) :=
      TypeTable.reserve_of_idxOf? (hb.handles ▸ h)
    simp only [hreserve]
    exact ⟨trivial, hb⟩
  · rw [Except.ok.inj hk]
    exact (keeps_keep _).map

/-- What follows on a path that is looked up. -/
theorem keeps_meaning {α : Type} {scope : List String} {e : TypeExpr} {f : Resolution → BuildM α}
    {Q : Except Fault α → Prop} (h : Keeps (Faithful m) (f (m.index.resolve e.names scope)) Q) :
    Keeps (Faithful m) (meaning m scope e >>= f) Q := by
  refine Keeps.bind (Q := (· = .ok (m.index.resolve e.names scope))) (Keeps.modifyGet fun b hb => ?_)
    nofun fun meaning hmeaning => ?_
  · obtain ⟨hanswer, hfaithful⟩ := hb.recallMeaning scope e.names
    exact ⟨congrArg Except.ok hanswer, hfaithful⟩
  · rwa [Except.ok.inj hmeaning]

theorem keeps_build {s : Site} {e : TypeExpr} {Q : Except Fault Outcome → Prop}
    (h : Keeps (Faithful m) (make m s (m.recipe s.scope e)) Q) : Keeps (Faithful m) (build m s e) Q :=
  keeps_meaning h

/-- Contents that are remembered are those that are built, so nothing else is known of them. -/
theorem keeps_remembered (hnodup : m.index.names.Nodup) {n : Nominal} (hn : n ∈ m.index.nominals)
    {compute : BuildM Outcome} {Q : Except Fault Outcome → Prop}
    (h : Keeps (Faithful m) compute Q) (hQ : ∀ o, Q (.ok o) ↔ Yields m (.contents n) o) :
    Keeps (Faithful m) (remembered n.name compute) Q := by
  refine Keeps.getBind fun b hb => ?_
  split
  · exact Keeps.pure ((hQ _).2 (hb.recallExpansion hnodup hn ‹_›))
  · refine Keeps.bind h (fun _ he => he) fun o ho => Keeps.modifyGet fun b hb => ?_
    obtain ⟨hyields, hfaithful⟩ := hb.remember hnodup hn ((hQ o).1 ho)
    exact ⟨(hQ _).2 hyields, hfaithful⟩

section Named

variable {s : Site} {n : Nominal}

theorem keeps_makeFields {fields : List NativeField}
    (h : ∀ f : NativeField, Keeps (Faithful m) (build m (m.expand s n) f.type)
      (OnValue (Yields m (.follow (m.inner n) (m.recipe n.scope f.type))))) :
    Keeps (Faithful m) (makeFields m s n fields) (OnValue fun outs => ∃ made : MadeFields,
      made.map (·.1) = labelledFields 0 fields ∧ Findings.all outs = made.fields
        ∧ ∀ p ∈ made, Yields m (.follow (m.inner n) (m.recipe n.scope p.1.2.type)) p.2) := by
  refine (Keeps.mapM (R := fun x out => ∃ o, out = fieldOf x.1 o
    ∧ Yields m (.follow (m.inner n) (m.recipe n.scope x.2.type)) o) fun x _ => ?_).mono ?_
  · exact Keeps.bindValue (h x.2) fun o ho => Keeps.pure ⟨o, rfl, ho⟩
  · rintro (_ | outs) houts
    · trivial
    · obtain ⟨answers, hfst, rfl, hanswers⟩ := houts
      obtain ⟨made, hmade, hsnd, hall⟩ := exists_made
        (g := fun (x : String × NativeField) o => fieldOf x.1 o)
        (R := fun x o => Yields m (.follow (m.inner n) (m.recipe n.scope x.2.type)) o) hanswers
      exact ⟨made, hmade.trans hfst, by rw [← hsnd]; rfl, hall⟩

theorem keeps_makeRecord {fields : List NativeField} (hbody : n.structFields? = some fields)
    (h : ∀ f : NativeField, Keeps (Faithful m) (build m (m.expand s n) f.type)
      (OnValue (Yields m (.follow (m.inner n) (m.recipe n.scope f.type))))) :
    Keeps (Faithful m) (makeRecord m s n fields) (OnValue (Yields m (.contents n))) := by
  refine Keeps.bindValue (keeps_makeFields h) fun outs houts => ?_
  obtain ⟨made, hlabels, hfields, hparts⟩ := houts
  rw [hfields]
  exact (keeps_keepOutcome _).of_eq (.record hbody hlabels hparts)

theorem keeps_makeUnion {variants : List NativeVariant}
    (hbody : n.declaration.body = .enumeration variants)
    (h : ∀ f : NativeField, Keeps (Faithful m) (build m (m.expand s n) f.type)
      (OnValue (Yields m (.follow (m.inner n) (m.recipe n.scope f.type))))) :
    Keeps (Faithful m) (makeUnion m s n variants) (OnValue (Yields m (.contents n))) := by
  refine Keeps.bindValue (Keeps.mapM (R := fun v out => ∃ made : MadeFields,
    out = variantOf n.name v made ∧ (made.map (·.1) = labelledFields 0 v.variant.fields
      ∧ ∀ p ∈ made, Yields m (.follow (m.inner n) (m.recipe n.scope p.1.2.type)) p.2))
    fun v _ => ?_) fun outs houts => ?_
  · refine Keeps.bindValue (keeps_makeFields h) fun outs houts => Keeps.pure ?_
    obtain ⟨made, hlabels, hfields, hparts⟩ := houts
    exact ⟨made, by rw [hfields]; rfl, hlabels, hparts⟩
  · obtain ⟨answers, hfst, rfl, hanswers⟩ := houts
    obtain ⟨made, hmade, hsnd, hall⟩ := exists_made (g := variantOf n.name)
      (R := fun v fields => fields.map (·.1) = labelledFields 0 v.variant.fields
        ∧ ∀ p ∈ fields, Yields m (.follow (m.inner n) (m.recipe n.scope p.1.2.type)) p.2) hanswers
    have hyields := Yields.union (m := m) hbody (hmade.trans hfst) (fun v hv => (hall v hv).1)
      fun v hv => (hall v hv).2
    refine (keeps_keepOutcome _).of_eq ?_
    rw [← hsnd, ← hfst, ← hmade, List.map_map]
    exact hyields

end Named

/-- What a function returns is made as its recipe has it, behind parameters that are. -/
theorem keeps_makeReturn {s : Site} {ret : Return} {holding : Holding}
    {made : List (TypeExpr × Outcome)}
    (hmade : ∀ p ∈ made,
      Yields m (.follow ((s.inside .function).whole m) (m.recipe s.scope p.1)) p.2)
    (h : ∀ e ∈ ret.types, Keeps (Faithful m) (build m (s.inside .function) e)
      (OnValue (Yields m (.follow ((s.inside .function).whole m) (m.recipe s.scope e))))) :
    Keeps (Faithful m) (makeReturn m (s.inside .function) ret) (OnValue fun r =>
      Yields m (.follow (s.whole m) (.function (made.map (·.1)) ret holding))
        (signatureOf holding (made.map (·.2)) r)) := by
  cases ret with
  | value t =>
    exact Keeps.bindValue (h t List.mem_cons_self) fun o ho => Keeps.pure (.function hmade ho)
  | fallible t e =>
    refine Keeps.bindValue (h t List.mem_cons_self) fun o ho => ?_
    refine Keeps.bindValue (h e (.tail _ List.mem_cons_self)) fun oe hoe => ?_
    exact Keeps.pure (.fallible hmade ho hoe)
  | malformed problem => exact Keeps.pure (.malformed hmade)

/-- What a builder answers is what the recipe yields, and the builder stays faithful. -/
theorem keeps_make (hnodup : m.index.names.Nodup) (s : Site) (r : Recipe) (hr : r.Known m) :
    Keeps (Faithful m) (make m s r) (OnValue (Yields m (.follow (s.whole m) r))) := by
  have hknown := m.known_recipe
  -- The places of the recursion shrink, those of the relation do not: all that is dropped on the
  -- way is which declarations have been entered, and no reference depends on it.
  induction s, r using make_induction with
  | exact s t =>
    rw [make_exact]
    exact (keeps_keepAll t).of_eq (.exact t)
  | refuse s problem =>
    rw [make_refuse]
    exact Keeps.pure (.refuse problem)
  | illFormed s parts reason =>
    rw [make_illFormed]
    refine Keeps.bindValue (Keeps.forM fun t _ => ?_) fun _ _ => Keeps.throw trivial
    exact (keeps_keepAll t).map.of_eq trivial
  | wrap s via part wrapper ih =>
    rw [make_wrap]
    refine Keeps.bindValue (keeps_build (ih _ (hknown _ _))) fun o ho => ?_
    cases o with
    | error ps => exact Keeps.pure (.wrapFailed ho)
    | ok t =>
      refine Keeps.bindValue (Keeps.liftExcept (onValue_self _)) fun o haround => ?_
      exact (keeps_keepOutcome o).of_eq (.wrap ho haround)
  | tuple s parts ih =>
    rw [make_tuple]
    refine Keeps.bindValue (Keeps.mapM fun p hp => keeps_build (ih p hp _ (hknown _ _)))
      fun outs houts => ?_
    obtain ⟨made, rfl, rfl, hmade⟩ := houts
    exact (keeps_keepOutcome _).of_eq (.tuple hmade)
  | function s params ret holding ih =>
    have hparts := fun e he => keeps_build (ih e he _ (hknown s.scope e))
    rw [make_function]
    refine Keeps.bindValue (Keeps.mapM fun p hp => hparts p (List.mem_append_left _ hp))
      fun outs houts => ?_
    obtain ⟨made, rfl, rfl, hmade⟩ := houts
    have hret := fun e he => hparts e (List.mem_append_right _ he)
    exact Keeps.bindValue (keeps_makeReturn hmade hret) fun r hr => (keeps_keepOutcome _).of_eq hr
  | buffer s n element holding ih =>
    rw [make_buffer]
    split
    · refine Keeps.bindValue (keeps_build (ih ‹_› _ (hknown _ _))) fun o ho => ?_
      have hbuffer : Yields m (.follow (s.whole m) (.buffer n element holding))
          (o.map (.buffer · holding)) := .buffer ho
      cases o with
      | error ps => exact Keeps.pure hbuffer
      | ok t => exact (keeps_keep _).map.of_eq hbuffer
    · exact Keeps.throw trivial
  | refused s n mention problem href =>
    rw [make_refused href]
    exact Keeps.pure (.refused href)
  | handled s n mention href =>
    rw [make_handle href]
    obtain ⟨number, hnumber⟩ := TypeModel.exists_number (hr n mention rfl) href
    exact (keeps_handle hnumber).of_eq (.handle href hnumber)
  | opened s n mention target href ih =>
    rw [make_alias href]
    refine (keeps_build (ih _ (hknown n.scope target))).mono fun o ho => ?_
    rcases o with _ | o
    · trivial
    · exact .opened href ho
  | record s n mention fields href ih =>
    rw [make_record href]
    refine (keeps_remembered (Q := OnValue (Yields m (.contents n))) hnodup (hr n mention rfl) ?_
      fun _ => Iff.rfl).mono fun o ho => ?_
    · split
      · exact keeps_makeRecord (TypeModel.fields_of_reference href) fun f =>
          keeps_build (ih ‹_› f _ (hknown _ _))
      · exact Keeps.throw trivial
    · rcases o with _ | o
      · trivial
      · exact .struct href ho
  | emptyUnion s n mention href =>
    rw [make_emptyUnion href]
    exact Keeps.pure (.emptyEnumeration href)
  | union s n mention variants hne href ih =>
    rw [make_union hne href]
    refine (keeps_remembered (Q := OnValue (Yields m (.contents n))) hnodup (hr n mention rfl) ?_
      fun _ => Iff.rfl).mono fun o ho => ?_
    · split
      · exact keeps_makeUnion (TypeModel.variants_of_reference href) fun f =>
          keeps_build (ih ‹_› f _ (hknown _ _))
      · exact Keeps.throw trivial
    · rcases o with _ | o
      · trivial
      · obtain ⟨v, vs, rfl⟩ := List.exists_cons_of_ne_nil hne
        exact .enumeration href ho

end Builder

/-- What an item declares. -/
def Task.ofItem (m : TypeModel) (item : ExportItem) : Task :=
  let site := m.site item.scope
  match item.kind, item.declaration.body with
  | .function, _ =>
    .follow site (.function (parameterTypes item) (.ofExpr (returnType? item)) .value)
  | .alias, .alias target => .follow site (m.recipe site.scope target)
  | _, _ =>
    .follow { site with isDeclaration := true }
      (m.recipe site.scope (.ofNames (QualifiedName.split item.qualifiedName)))

namespace Builder

theorem keeps_buildDeclared (hnodup : m.index.names.Nodup) (item : ExportItem) :
    Keeps (Faithful m) (buildDeclared m item) (OnValue (Yields m (.ofItem m item))) := by
  unfold buildDeclared Task.ofItem
  simp only
  generalize item.kind = kind, item.declaration.body = body
  rcases kind with _ | _ | _ | _
  · exact keeps_make hnodup _ _ fun _ _ h => by simp at h
  · exact keeps_build (keeps_make hnodup _ _ (m.known_recipe _ _))
  · exact keeps_build (keeps_make hnodup _ _ (m.known_recipe _ _))
  · cases body <;> exact keeps_build (keeps_make hnodup _ _ (m.known_recipe _ _))

theorem ok_of_reported {item : ExportItem} {o : Outcome} {t : InterfaceType}
    (h : reported item (unnested item o) = .ok t) : o = .ok t := by
  cases o with
  | error ps => simp [unnested, reported] at h
  | ok u =>
    unfold unnested at h
    simp only at h
    split at h
    · obtain rfl : u = t := Except.ok.inj h
      rfl
    · simp [reported] at h

theorem keeps_buildItem (hnodup : m.index.names.Nodup) (item : ExportItem) :
    Keeps (Faithful m) (buildItem m item)
      (OnValue fun r => ∀ t, r = .ok t → Yields m (.ofItem m item) (.ok t)) := by
  refine Keeps.bindValue (keeps_buildDeclared hnodup item) fun o ho => Keeps.pure fun t ht => ?_
  exact ok_of_reported ht ▸ ho

/-- The builder of a run when some items have been built. -/
def after (m : TypeModel) (items : List ExportItem) : Builder :=
  items.foldl (fun b item => ((buildItem m item).run.run b).2) (ofModel m)

theorem faithful_after (hnodup : m.index.names.Nodup) (items : List ExportItem) :
    (after m items).Faithful m := by
  have hfold : ∀ (items : List ExportItem) (b : Builder), b.Faithful m →
      (items.foldl (fun b item => ((buildItem m item).run.run b).2) b).Faithful m := by
    intro items
    induction items with
    | nil => exact fun b hb => hb
    | cons item items ih => exact fun b hb => ih _ ((keeps_buildItem hnodup item).run hb).2
  exact hfold items _ (faithful_ofModel hnodup)

/-- Whatever was built before, the type of an item is the one that its task yields. -/
theorem yields_of_buildItem (hnodup : m.index.names.Nodup) {items : List ExportItem}
    {item : ExportItem} {t : InterfaceType}
    (h : ((buildItem m item).run.run (after m items)).1 = .ok (.ok t)) :
    Yields m (.ofItem m item) (.ok t) := by
  have hyields := ((keeps_buildItem hnodup item).run (faithful_after hnodup items)).1
  rw [h] at hyields
  exact hyields t rfl

end Builder

end Building

end Crossing
