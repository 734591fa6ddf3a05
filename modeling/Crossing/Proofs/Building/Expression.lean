import Crossing.Proofs.Building.Halting

/-!
# What an expression builds to

Where nothing has been entered yet, a builder answers with exactly what the recipe yields, whatever
was built before (`make_eq_ok_iff`). So what an expression builds to there (`Builds`) can be told
from the expression and the place alone (`builds_iff`).
-/

namespace Crossing.Building

variable {m : TypeModel}

/-- A place where nothing has been entered. -/
def TypeModel.outside (m : TypeModel) (scope : List String) (owner : Option String) (via : Via)
    (isDeclaration : Bool) : Site :=
  { m.site scope with owner, via, isDeclaration }

/-- What an expression builds to at a place, whatever was built before. -/
def Builds (m : TypeModel) (s : Site) (e : TypeExpr) (t : InterfaceType) : Prop :=
  ∀ items, ((Builder.build m s e).run.run (Builder.after m items)).1 = .ok (.ok t)

theorem answer_of_keeps {x : BuildM Outcome} {task : Task} {b : Builder} (hb : b.Faithful m)
    (hanswer : Keeps (Builder.Faithful m) x (OnValue (Yields m task)))
    (hfailure : Keeps (Builder.Faithful m) x (OnFailure (task.DoomedBy m))) {o : Outcome} :
    (x.run.run b).1 = .ok o ↔ Yields m task o := by
  have hyields := (hanswer.run hb).1
  have hdoomed := (hfailure.run hb).1
  rcases hr : (x.run.run b).1 with fault | o' <;> rw [hr] at hyields hdoomed
  · exact iff_of_false (by simp) fun h => h.not_doomed hdoomed.doomed
  · constructor
    · intro h
      obtain rfl := Except.ok.inj h
      exact hyields
    · exact fun h => congrArg Except.ok (h.unique hyields)

section Answer

variable (hnodup : m.index.names.Nodup) {scope : List String} {owner : Option String} {via : Via}
  {isDeclaration : Bool}
include hnodup

/-- A builder answers with what the recipe yields, and with nothing else. -/
theorem make_eq_ok_iff {r : Recipe} (hr : r.Regular m) {b : Builder} (hb : b.Faithful m)
    {o : Outcome} :
    ((Builder.make m (m.outside scope owner via isDeclaration) r).run.run b).1 = .ok o
      ↔ Yields m (.follow (m.outside scope owner via isDeclaration) r) o :=
  answer_of_keeps hb (Builder.keeps_make hnodup _ r hr.known)
    (Builder.keeps_make_failure hnodup _ r hr (.begin _ _ _ _))

theorem builds_iff {e : TypeExpr} {t : InterfaceType} :
    Builds m (m.outside scope owner via isDeclaration) e t
      ↔ Yields m (.follow (m.outside scope owner via isDeclaration) (m.recipe scope e)) (.ok t) := by
  have hregular := TypeModel.regular_recipe (m := m) scope e
  have hbuild (items : List ExportItem) :
      ((Builder.build m (m.outside scope owner via isDeclaration) e).run.run
          (Builder.after m items)).1 = .ok (.ok t)
        ↔ Yields m (.follow (m.outside scope owner via isDeclaration) (m.recipe scope e))
          (.ok t) := by
    refine answer_of_keeps (Builder.faithful_after hnodup items) ?_ ?_
    · exact Builder.keeps_meaning (Builder.keeps_make hnodup _ _ hregular.known)
    · exact Builder.keeps_meaning (Builder.keeps_make_failure hnodup _ _ hregular (.begin _ _ _ _))
  exact ⟨fun h => (hbuild []).1 (h []), fun h items => (hbuild items).2 h⟩

theorem builds_of_exact {e : TypeExpr} {t : InterfaceType} (h : m.recipe scope e = .exact t) :
    Builds m (m.outside scope owner via isDeclaration) e t :=
  (builds_iff hnodup).2 (h ▸ .exact t)

end Answer

end Crossing.Building
