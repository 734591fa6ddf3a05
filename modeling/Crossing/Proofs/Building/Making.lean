import Crossing.Building.Builder
import Crossing.Proofs.Keeps

/-!
# The parts that are built

`make` builds the parts of a recipe, each at its place, and puts together what they come to. Here is
what it does for each recipe in terms of `build`, which builds a part, and its induction
(`make_induction`): what holds of a recipe when it holds of the parts holds of every recipe. Proofs
about `make` go by these and leave its definition closed.
-/

namespace Crossing.Building

/-- The types that something returned is made of. -/
def Return.types : Return → List TypeExpr
  | .value t => [t]
  | .fallible t error => [t, error]
  | .malformed _ => []

namespace Builder

/-- Builds what a function returns, and its failure. -/
def makeReturn (m : TypeModel) (s : Site) :
    Return → BuildM (Findings Problem (InterfaceType × Failure InterfaceType))
  | .value t => do
    let t ← build m s t
    pure (t.map (·, .never))
  | .fallible t e => do
    let t ← build m s t
    let e ← build m s e
    pure (Findings.combine (fun t e => (t, .typed e)) t e)
  | .malformed problem => pure (.error [problem])

def makeFields (m : TypeModel) (s : Site) (n : Nominal) (fields : List NativeField) :
    BuildM (List (Findings Problem (Field InterfaceType))) :=
  (labelledFields 0 fields).mapM fun (label, f) => do
    let t ← build m (m.expand s n) f.type
    pure (fieldOf label t)

def makeRecord (m : TypeModel) (s : Site) (n : Nominal) (fields : List NativeField) :
    BuildM Outcome := do
  let made ← makeFields m s n fields
  keepOutcome ((Findings.all made).map (.record n.name))

def makeUnion (m : TypeModel) (s : Site) (n : Nominal) (variants : List NativeVariant) :
    BuildM Outcome := do
  let tagged := tagVariants 0 [] variants
  let made ← tagged.mapM fun v => do
    let fields ← makeFields m s n v.variant.fields
    pure (Findings.combine (fun _ fields => ⟨v.variant.name, v.tag, fields⟩)
      (.ofProblems (v.problems n.name)) (Findings.all fields))
  keepOutcome (Findings.combine (fun vs _ => .taggedUnion n.name vs) (Findings.all made)
    (.ofProblems (rangeProblems n.name (tagged.map (·.tag)))))

section Equations

variable {m : TypeModel} {s : Site}

theorem make_exact {t : InterfaceType} : make m s (.exact t) = keepAll t := by
  rw [make]

theorem make_refuse {problem : Problem} : make m s (.refuse problem) = pure (.error [problem]) := by
  rw [make]

theorem make_illFormed {parts : List InterfaceType} {reason : String} :
    make m s (.illFormed parts reason)
      = (parts.forM fun t => discard (keepAll t)) >>= fun _ => throw (.illFormed reason) := by
  rw [make]

theorem make_wrap {via : Via} {part : TypeExpr} {wrapper : Wrapper} :
    make m s (.wrap via part wrapper) = build m (s.inside via) part >>= fun
      | .ok t => liftExcept (wrapper.around t) >>= keepOutcome
      | .error ps => pure (.error ps) := by
  rw [make]
  rfl

theorem make_tuple {parts : List TypeExpr} :
    make m s (.tuple parts) = parts.mapM (build m (s.inside .value)) >>= fun made =>
      keepOutcome ((Findings.all made).map tupleOf) := by
  rw [← attach_mapM, make]
  rfl

theorem make_function {params : List TypeExpr} {ret : Return} {holding : Holding} :
    make m s (.function params ret holding)
      = params.mapM (build m (s.inside .function)) >>= fun made =>
        makeReturn m (s.inside .function) ret >>= fun ret =>
        keepOutcome (signatureOf holding made ret) := by
  rw [← attach_mapM]
  cases ret with
  | value t =>
    rw [make]
    simp only [makeReturn, bind_assoc, pure_bind]
    rfl
  | fallible t e =>
    rw [make]
    simp only [makeReturn, bind_assoc, pure_bind]
    rfl
  | malformed problem =>
    rw [make]
    simp only [makeReturn, pure_bind]
    rfl

variable {n : Nominal} {mention : TypeExpr}

theorem make_buffer {element : TypeExpr} {holding : Holding} :
    make m s (.buffer n element holding) =
      if n.name ∈ s.unentered then
        build m (TypeModel.enter s n) element >>= fun
          | .ok t => .ok <$> keep (.buffer t holding)
          | .error ps => pure (.error ps)
      else throw (.endless n.name) := by
  rw [make]
  rfl

theorem make_refused {problem : Problem} (h : m.reference s n mention = .refuse problem) :
    make m s (.named n mention) = pure (.error [problem]) := by
  rw [make]
  split <;> simp_all

theorem make_handle (h : m.reference s n mention = .handle) :
    make m s (.named n mention) = handle n.name := by
  rw [make]
  split <;> simp_all

theorem make_alias {target : TypeExpr} (h : m.reference s n mention = .alias target) :
    make m s (.named n mention) = build m (m.openAlias s n) target := by
  rw [make]
  split <;> simp_all [build, TypeModel.openAlias]

theorem make_record {fields : List NativeField} (h : m.reference s n mention = .record fields) :
    make m s (.named n mention) = remembered n.name
      (if n.name ∈ s.unexpanded then makeRecord m s n fields else throw (.endless n.name)) := by
  rw [make]
  split <;> simp_all [makeRecord, makeFields, build, TypeModel.expand, TypeModel.site]

theorem make_emptyUnion (h : m.reference s n mention = .union []) :
    make m s (.named n mention)
      = pure (.error [{ message := "enum `" ++ n.name ++ "` has no variants" }]) := by
  rw [make]
  split <;> simp_all

theorem make_union {variants : List NativeVariant} (hne : variants ≠ [])
    (h : m.reference s n mention = .union variants) :
    make m s (.named n mention) = remembered n.name
      (if n.name ∈ s.unexpanded then makeUnion m s n variants else throw (.endless n.name)) := by
  rw [make]
  split <;> simp_all [makeUnion, makeFields, build, TypeModel.expand, TypeModel.site]

end Equations

section Signature

variable {holding : Holding} {params : List Outcome} {o oe : Outcome} {t : InterfaceType}

/-- What a function of some parts is built to. -/
theorem signatureOf_eq_ok {r : Findings Problem (InterfaceType × Failure InterfaceType)} :
    signatureOf holding params r = .ok t ↔ ∃ ts result, params = ts.map .ok
      ∧ r = .ok result ∧ functionOf holding ts result = t := by
  simp only [signatureOf, Findings.combine_eq_ok, Findings.all_eq_ok]

theorem signatureOf_value_eq_ok : signatureOf holding params (o.map (·, .never)) = .ok t ↔
    ∃ ts r, params = ts.map .ok ∧ o = .ok r ∧ .function ts r .never holding = t := by
  rw [signatureOf_eq_ok]
  constructor
  · rintro ⟨ts, _, hts, hr, rfl⟩
    obtain ⟨r, rfl, rfl⟩ := Findings.map_eq_ok.1 hr
    exact ⟨ts, r, hts, rfl, rfl⟩
  · rintro ⟨ts, r, hts, rfl, rfl⟩
    exact ⟨ts, _, hts, rfl, rfl⟩

theorem signatureOf_fallible_eq_ok :
    signatureOf holding params (Findings.combine (fun t e => (t, .typed e)) o oe) = .ok t ↔
      ∃ ts r e, params = ts.map .ok ∧ o = .ok r ∧ oe = .ok e
        ∧ .function ts r (.typed e) holding = t := by
  rw [signatureOf_eq_ok]
  constructor
  · rintro ⟨ts, _, hts, hr, rfl⟩
    obtain ⟨r, e, rfl, rfl, rfl⟩ := Findings.combine_eq_ok.1 hr
    exact ⟨ts, r, e, hts, rfl, rfl, rfl⟩
  · rintro ⟨ts, r, e, hts, rfl, rfl, rfl⟩
    exact ⟨ts, _, hts, rfl, rfl⟩

theorem signatureOf_malformed_ne_ok {problems : List Problem} :
    signatureOf holding params (.error problems) ≠ .ok t := by
  rw [Ne, signatureOf_eq_ok]
  simp

end Signature

section Failure

variable {m : TypeModel} {I : Builder → Prop} {P : Fault → Prop} {s : Site} {n : Nominal}

theorem keeps_makeReturn_failure {ret : Return}
    (h : ∀ e ∈ ret.types, Keeps I (build m s e) (OnFailure P)) :
    Keeps I (makeReturn m s ret) (OnFailure P) := by
  cases ret with
  | value t => exact Keeps.bindFailure (h t List.mem_cons_self) fun _ => Keeps.pure trivial
  | fallible t e =>
    exact Keeps.bindFailure (h t List.mem_cons_self) fun _ =>
      Keeps.bindFailure (h e (.tail _ List.mem_cons_self)) fun _ => Keeps.pure trivial
  | malformed problem => exact Keeps.pure trivial

theorem keeps_makeFields_failure {fields : List NativeField}
    (h : ∀ x ∈ labelledFields 0 fields, Keeps I (build m (m.expand s n) x.2.type) (OnFailure P)) :
    Keeps I (makeFields m s n fields) (OnFailure P) :=
  Keeps.mapMFailure fun x hx => Keeps.bindFailure (h x hx) fun _ => Keeps.pure trivial

end Failure

/-- What holds of a recipe at a place when it holds of its parts at theirs, whatever their paths are
taken to mean, holds of every recipe. -/
@[elab_as_elim]
theorem make_induction {m : TypeModel} {motive : Site → Recipe → Prop}
    (exact : ∀ s t, motive s (.exact t))
    (refuse : ∀ s problem, motive s (.refuse problem))
    (illFormed : ∀ s parts reason, motive s (.illFormed parts reason))
    (wrap : ∀ s via part wrapper, (∀ r, motive (s.inside via) (m.recipeBy r part)) →
      motive s (.wrap via part wrapper))
    (tuple : ∀ s parts, (∀ e ∈ parts, ∀ r, motive (s.inside .value) (m.recipeBy r e)) →
      motive s (.tuple parts))
    (function : ∀ s params ret holding,
      (∀ e ∈ params ++ ret.types, ∀ r, motive (s.inside .function) (m.recipeBy r e)) →
      motive s (.function params ret holding))
    (buffer : ∀ s n element holding,
      (n.name ∈ s.unentered → ∀ r, motive (TypeModel.enter s n) (m.recipeBy r element)) →
      motive s (.buffer n element holding))
    (refused : ∀ s n mention problem, m.reference s n mention = .refuse problem →
      motive s (.named n mention))
    (handled : ∀ s n mention, m.reference s n mention = .handle → motive s (.named n mention))
    (opened : ∀ s n mention target, m.reference s n mention = .alias target →
      (∀ r, motive (m.openAlias s n) (m.recipeBy r target)) → motive s (.named n mention))
    (record : ∀ s n mention fields, m.reference s n mention = .record fields →
      (n.name ∈ s.unexpanded →
        ∀ (f : NativeField) r, motive (m.expand s n) (m.recipeBy r f.type)) →
      motive s (.named n mention))
    (emptyUnion : ∀ s n mention, m.reference s n mention = .union [] → motive s (.named n mention))
    (union : ∀ s n mention variants, variants ≠ [] → m.reference s n mention = .union variants →
      (n.name ∈ s.unexpanded →
        ∀ (f : NativeField) r, motive (m.expand s n) (m.recipeBy r f.type)) →
      motive s (.named n mention))
    (s : Site) (r : Recipe) : motive s r := by
  induction s, r using make.induct m with
  | case1 s t => exact exact s t
  | case2 s problem => exact refuse s problem
  | case3 s parts reason => exact illFormed s parts reason
  | case4 s via part wrapper ih => exact wrap s via part wrapper ih
  | case5 s parts ih => exact tuple s parts ih
  | case6 s params t holding ih iht =>
    refine function s params _ holding fun e he => ?_
    rcases List.mem_append.1 he with he | he
    · exact ih e he
    · obtain rfl := List.mem_singleton.1 he
      exact iht
  | case7 s params t error holding ih iht ihe =>
    refine function s params _ holding fun e he => ?_
    rcases List.mem_append.1 he with he | he
    · exact ih e he
    · rcases List.mem_pair.1 he with rfl | rfl
      · exact iht
      · exact ihe
  | case8 s params problem holding ih =>
    refine function s params _ holding fun e he => ?_
    exact ih e ((List.append_nil params) ▸ he)
  | case9 s n element holding hin ih => exact buffer s n element holding fun _ => ih
  | case10 s n element holding hin => exact buffer s n element holding (absurd · hin)
  | case11 s n mention problem href => exact refused s n mention problem href
  | case12 s n mention href => exact handled s n mention href
  | case13 s n mention target href ih => exact opened s n mention target href ih
  | case14 s n mention fields href ih => exact record s n mention fields href ih
  | case15 s n mention href => exact emptyUnion s n mention href
  | case16 s n mention variants hne href ih => exact union s n mention variants hne href ih

end Builder

end Crossing.Building
