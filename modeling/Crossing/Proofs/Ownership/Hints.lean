import Mathlib
import Crossing.Proofs.Mirrors
import Crossing.Proofs.Ownership.Coherence
import Crossing.Proofs.Ownership.Visited

/-!
# Hints without effect

A hint is told to be without effect when no raw pointer took its mode from it. Of several items
resolved one after the other, such hints may be removed or changed as one likes: every item comes to
the same, and so does the resolver. A hint has an effect if and only if a raw pointer is visited at
its path that no slot around it lends (`unusedHints_inert`).

With other hints the resolver takes the same steps as long as it asks for none of those that differ
(`mirrors_resolveItem`), and what it asks for it notes.
-/

namespace Crossing

/-- What becomes of a hint for the items of a name: one of the chosen is changed as the revision
says, or removed where it says nothing. -/
def revisedHint (chosen : List (String × String))
    (revision : String × String → Option OwnershipMode) (name : String)
    (hint : String × OwnershipMode) : Option (String × OwnershipMode) :=
  if (name, hint.1) ∈ chosen then (revision (name, hint.1)).map (hint.1, ·) else some hint

/-- The hints after a revision of some of them. -/
def OwnershipHints.revised (hints : OwnershipHints) (chosen : List (String × String))
    (revision : String × String → Option OwnershipMode) : OwnershipHints :=
  hints.map fun (name, modes) => (name, modes.filterMap (revisedHint chosen revision name))

namespace Ownership

variable {w : WordSize} {terms : Terms} {hints : OwnershipHints} {chosen : List (String × String)}
  {item : ExportItem} {t : InterfaceType}

/-- The hint for the slots under a path in the items of a name. -/
def Terms.hint? (terms : Terms) (name path : String) : Option OwnershipMode :=
  ((terms.hints.lookup name).getD []).lookup path

def Terms.withHints (terms : Terms) (hints : OwnershipHints) : Terms := { terms with hints }

/-- With the hints in place of its own, the terms have the same hint everywhere, except for some of
its own hints. -/
def Terms.AgreesBut (terms : Terms) (chosen : List (String × String)) (hints : OwnershipHints) :
    Prop :=
  ∀ name path, (terms.withHints hints).hint? name path = terms.hint? name path ∨
    (∃ mode, terms.hint? name path = some mode) ∧ (name, path) ∈ chosen

section Revised

variable {revision : String × String → Option OwnershipMode}

theorem lookup_revised (name path : String) (modes : List (String × OwnershipMode)) :
    (modes.filterMap (revisedHint chosen revision name)).lookup path = modes.lookup path ∨
      (∃ mode, modes.lookup path = some mode) ∧ (name, path) ∈ chosen := by
  induction modes with
  | nil => exact .inl rfl
  | cons m modes ih =>
    obtain ⟨key, mode⟩ := m
    by_cases hkey : path = key
    · subst hkey
      by_cases hchosen : (name, path) ∈ chosen
      · exact .inr ⟨⟨mode, List.lookup_cons_self⟩, hchosen⟩
      · simp [revisedHint, hchosen]
    · have hskip : ∀ (mode : OwnershipMode) rest,
          List.lookup path ((key, mode) :: rest) = rest.lookup path :=
        fun mode rest => by rw [List.lookup_cons, beq_eq_false_iff_ne.2 hkey]
      rw [List.filterMap_cons, hskip]
      by_cases hchosen : (name, key) ∈ chosen
      · cases hrevision : revision (name, key) with
        | none => simpa [revisedHint, hchosen, hrevision] using ih
        | some mode => simpa [revisedHint, hchosen, hrevision, hskip] using ih
      · simpa [revisedHint, hchosen, hskip] using ih

/-- A revision of some hints changes nothing but those. -/
theorem agreesBut_revised (terms : Terms) (chosen : List (String × String))
    (revision : String × String → Option OwnershipMode) :
    terms.AgreesBut chosen (terms.hints.revised chosen revision) := by
  intro name path
  have hlookup : ∀ hints : OwnershipHints, (hints.revised chosen revision).lookup name =
      (hints.lookup name).map (List.filterMap (revisedHint chosen revision name)) := by
    intro hints
    unfold OwnershipHints.revised
    induction hints with
    | nil => rfl
    | cons entry hints ih =>
      obtain ⟨key, modes⟩ := entry
      rw [List.map_cons, List.lookup_cons, List.lookup_cons]
      by_cases hkey : name = key
      · subst hkey
        simp
      · rw [beq_eq_false_iff_ne.2 hkey]
        exact ih
  unfold Terms.hint? Terms.withHints
  rw [hlookup]
  cases terms.hints.lookup name with
  | none => exact .inl rfl
  | some modes => exact lookup_revised name path modes

end Revised

section Mirrors

/-- One of the chosen hints has been applied. -/
def Applies (chosen : List (String × String)) (b : Resolver) : Prop := ∃ h ∈ chosen, h ∈ b.applied

variable (h : terms.AgreesBut chosen hints)
include h

theorem mirrors_modeOf (item : ExportItem) (s : Standing) (path : String) (t : InterfaceType) :
    Mirrors (Applies chosen) (modeOf terms item s path t)
      (modeOf (terms.withHints hints) item s path t) := by
  have hsame : s.verdict t (((terms.withHints hints).hintsFor item).lookup path) =
      s.verdict t ((terms.hintsFor item).lookup path) →
      Mirrors (Applies chosen) (modeOf terms item s path t)
        (modeOf (terms.withHints hints) item s path t) := by
    intro hverdict
    unfold modeOf
    rw [hverdict]
    exact .refl _
  rcases h item.qualifiedName path with heq | ⟨⟨mode, hmode⟩, hchosen⟩
  · exact hsame (congrArg (s.verdict t) heq)
  · by_cases hasks : s.Asks t
    · -- The hint is applied with the terms, whatever is done without.
      have hverdict : s.verdict t ((terms.hintsFor item).lookup path) = .ok (.hinted mode) :=
        Standing.hinted_iff.2 ⟨hasks, hmode⟩
      unfold modeOf
      rw [hverdict]
      exact Steps.Mirrors.off fun b => ⟨_, hchosen, List.mem_cons_self⟩
    · exact hsame (Standing.verdict_congr hasks _ _)

theorem mirrors_slot (item : ExportItem) (s : Standing) (label path : String) (t : InterfaceType) :
    Mirrors (Applies chosen) (slot terms item s label path t)
      (slot (terms.withHints hints) item s label path t) := by
  rw [slot_eq, slot_eq]
  refine (mirrors_modeOf h item s path t).bind fun found => ?_
  cases found with
  | error ds => exact .refl _
  | ok mode =>
    refine (Mirrors.refl _).bind fun layout => ?_
    refine Mirrors.bind (Mirrors.mapM fun x hx => ?_) fun parts => .refl _
    exact mirrors_slot item x.2.2 x.1 (Slot.under path x.1) x.2.1
termination_by sizeOf t
decreasing_by exact Standing.sizeOf_part_lt hx

/-- With other hints, an item is resolved in the same steps until one of the hints is applied that
are not the same. -/
theorem mirrors_resolveItem (item : ExportItem) (t : InterfaceType) :
    Mirrors (Applies chosen) (resolveItem terms item t)
      (resolveItem (terms.withHints hints) item t) := by
  have hroot : Mirrors (Applies chosen) (resolveRoot terms item t)
      (resolveRoot (terms.withHints hints) item t) := by
    unfold resolveRoot
    split
    · unfold functionRoot
      exact (Mirrors.mapM fun x _ => mirrors_slot h item x.2.2 x.1 x.1 x.2.1).bind fun _ => .refl _
    · exact mirrors_slot h item _ _ _ _
  exact hroot.bind fun _ => .refl _

end Mirrors

/-- Resolves items one after the other. A fault of one does not keep the others from it. -/
def resolveAll (terms : Terms) (jobs : List (ExportItem × InterfaceType)) :
    Steps Resolver (List (Except Fault (Findings Diagnostic ResolvedItem))) :=
  jobs.mapM fun (item, t) => (resolveItem terms item t).run

section All

variable {jobs : List (ExportItem × InterfaceType)} {allowed : String × String → Prop}
  {b : Resolver}

/-- A hint is asked for at a place that is visited in one of the items. -/
def Wanted (w : WordSize) (terms : Terms) (jobs : List (ExportItem × InterfaceType))
    (h : String × String) : Prop :=
  ∃ job ∈ jobs, ∃ p, Visited w terms job.1 job.2 p ∧ h ∈ p.noted terms job.1

theorem upholds_resolveAll (hallowed : ∀ h, Wanted w terms jobs h → allowed h) :
    (resolveAll terms jobs).Upholds (resolving w allowed)
      (fun _ b => ∀ h, Wanted w terms jobs h → h ∈ b.applied) b := by
  unfold resolveAll
  induction jobs generalizing b with
  | nil => exact fun _ _ _ ⟨_, hjob, _⟩ => absurd hjob List.not_mem_nil
  | cons job jobs ih =>
    rw [List.mapM_cons]
    have hjob := (ensures_visited job.1 job.2 b fun p hp h hh =>
      hallowed h ⟨job, List.mem_cons_self, p, hp, hh⟩).lasting
    refine Steps.Upholds.bind hjob fun r b _ hnoted => ?_
    have hrest := (ih (b := b) fun h ⟨other, hother, hwanted⟩ =>
      hallowed h ⟨other, .tail _ hother, hwanted⟩).lasting
    refine hrest.bind fun rs b' hb' hrest b'' hb'' => ?_
    rintro h ⟨other, hother, p, hp, hh⟩
    rcases List.mem_cons.1 hother with rfl | hother
    · exact hnoted b'' (hb'.trans hb'') p hp h hh
    · exact hrest b'' hb'' h ⟨other, hother, p, hp, hh⟩

theorem mem_unusedHints_iff {name path : String} {mode : OwnershipMode}
    (h : terms.hint? name path = some mode) :
    (name, path) ∈ b.unusedHints terms ↔ (name, path) ∉ b.applied := by
  unfold Resolver.unusedHints
  rw [List.mem_mergeSort, List.mem_filter]
  have hdeclared : (name, path) ∈
      terms.hints.flatMap fun (name, modes) => modes.map fun m => (name, m.1) := by
    unfold Terms.hint? at h
    cases hmodes : terms.hints.lookup name with
    | none => simp [hmodes] at h
    | some modes =>
      rw [hmodes] at h
      obtain ⟨before, after, hhints, -⟩ := List.lookup_eq_some_iff.1 hmodes
      obtain ⟨before', after', hmodes', -⟩ := List.lookup_eq_some_iff.1 h
      have hmodes' : modes = before' ++ (path, mode) :: after' := hmodes'
      simp [hhints, hmodes']
  simp [hdeclared]

theorem not_applies_unusedHints : ¬ Applies (b.unusedHints terms) b := by
  rintro ⟨h, hunused, happlied⟩
  unfold Resolver.unusedHints at hunused
  rw [List.mem_mergeSort, List.mem_filter] at hunused
  simp [happlied] at hunused

end All

/-- The hints without effect. After any items are resolved, whatever the layouts were asked for
before: with those hints removed or changed, every item comes to the same. And a hint has an effect
if and only if, in an item of its name, a raw pointer is visited at its path that no slot around it
within its position lends. -/
theorem unusedHints_inert (w : WordSize) (queries : List InterfaceType) (terms : Terms)
    (jobs : List (ExportItem × InterfaceType)) :
    let b : Resolver := { engine := .after w queries }
    let unused := ((resolveAll terms jobs).run b).2.unusedHints terms
    (∀ revision, (resolveAll (terms.withHints (terms.hints.revised unused revision)) jobs).run b
        = (resolveAll terms jobs).run b) ∧
      ∀ name path mode, terms.hint? name path = some mode →
        ((name, path) ∉ unused ↔ ∃ job ∈ jobs, job.1.qualifiedName = name ∧
          ∃ p, Visited w terms job.1 job.2 p ∧ p.path = path ∧ p.type.holding = .raw ∧
            ∀ x ∈ p.around, ¬ Lends x) := by
  intro b unused
  have hupholds : (resolveAll terms jobs).Upholds (resolving w (Wanted w terms jobs))
      (fun _ b => ∀ h, Wanted w terms jobs h → h ∈ b.applied) b := upholds_resolveAll fun _ h => h
  have hinv : b.engine.Faithful w := LayoutEngine.faithful_after w queries
  obtain ⟨⟨⟨-, hallowed⟩, -⟩, hnoted⟩ := hupholds.run ⟨hinv, List.forall_mem_nil _⟩
  refine ⟨fun revision => ?_, fun name path mode hhint => ?_⟩
  · have hmirrors : Steps.Mirrors (Applies unused) (resolveAll terms jobs)
        (resolveAll (terms.withHints (terms.hints.revised unused revision)) jobs) :=
      Steps.Mirrors.mapM fun job _ =>
        mirrors_resolveItem (agreesBut_revised terms unused revision) job.1 job.2
    refine hmirrors.run_eq hupholds ⟨hinv, List.forall_mem_nil _⟩ ?_ not_applies_unusedHints
    exact fun s t hst ⟨h, hunused, happlied⟩ => ⟨h, hunused, hst.2.2 h happlied⟩
  · rw [mem_unusedHints_iff hhint, not_not]
    constructor
    · intro happlied
      obtain ⟨job, hjob, p, hp, hh⟩ := hallowed _ happlied
      obtain ⟨heq, hasks, -⟩ := mem_noted_iff.1 hh
      obtain ⟨rfl, rfl⟩ := Prod.mk.inj heq
      exact ⟨job, hjob, rfl, p, hp, rfl, hp.asks_iff.1 hasks⟩
    · rintro ⟨job, hjob, rfl, p, hp, rfl, hraw⟩
      have hh : (job.1.qualifiedName, p.path) ∈ p.noted terms job.1 :=
        mem_noted_iff.2 ⟨rfl, hp.asks_iff.2 hraw, mode, hhint⟩
      exact hnoted _ ⟨job, hjob, p, hp, hh⟩

/-- The hint for the raw pointer is applied, and the one for a text is not. -/
theorem unusedHints_inert_takesRaw :
    let b : Resolver := { engine := .after .bits64 [] }
    let terms : Terms :=
      ⟨renderer, [("crate::f", [("arg0", .transferredIn), ("arg0.*", .borrowed)])]⟩
    ((resolveAll terms [(exported, takesRaw)]).run b).2.unusedHints terms = [("crate::f", "arg0.*")]
      ∧ (resolveAll ⟨renderer, [("crate::f", [("arg0", .transferredIn)])]⟩
            [(exported, takesRaw)]).run b = (resolveAll terms [(exported, takesRaw)]).run b
      ∧ ∃ p, Visited .bits64 terms exported takesRaw p ∧ p.path = "arg0" ∧ p.type.holding = .raw ∧
        ∀ x ∈ p.around, ¬ Lends x := by
  intro b terms
  have happlied : ((resolveAll terms [(exported, takesRaw)]).run b).2.applied =
      [("crate::f", "arg0")] := by
    cbv
  have hunused : ((resolveAll terms [(exported, takesRaw)]).run b).2.unusedHints terms =
      [("crate::f", "arg0.*")] := by
    unfold Resolver.unusedHints
    rw [happlied]
    exact List.mergeSort_singleton _
  obtain ⟨hinert, heffect⟩ := unusedHints_inert .bits64 [] terms [(exported, takesRaw)]
  refine ⟨hunused, ?_, ?_⟩
  · have hremoved := hinert fun _ => none
    rw [hunused] at hremoved
    exact hremoved
  · have hused : ("crate::f", "arg0") ∉
        ((resolveAll terms [(exported, takesRaw)]).run b).2.unusedHints terms := by
      rw [hunused]
      decide
    obtain ⟨job, hjob, -, hvisited⟩ := (heffect "crate::f" "arg0" .transferredIn rfl).1 hused
    obtain rfl := List.mem_singleton.1 hjob
    exact hvisited

end Ownership

end Crossing
