import Crossing.Proofs.Building.Halting
import Crossing.Proofs.Nominal.Graph

/-!
# What a recipe asks for is inside its expression

The parts of a recipe stand inside the expression that it is for, and a part that is held by value
stands behind no other indirection than the expression itself (`Recipe.Covered`). So the graph of the
nominal types, which goes through expressions by `TypeExpr.inside`, misses nothing that is built.
-/

namespace Crossing

open Relation (ReflTransGen)

namespace TypeExpr

/-- `e` behind `via` has `u` behind `v` inside, at any depth. -/
def Holds (e : TypeExpr) (via : Via) (u : TypeExpr) (v : Via) : Prop :=
  ReflTransGen (fun p q : Via × TypeExpr => q ∈ p.2.inside p.1) (via, e) (v, u)

section Holds

variable {e u w : TypeExpr} {via v : Via}

theorem Holds.of_mem (h : (v, u) ∈ e.inside via) : e.Holds via u v := .single h

theorem Holds.then {v' : Via} (h : e.Holds via u v) (h' : (v', w) ∈ u.inside v) :
    e.Holds via w v' := ReflTransGen.tail h h'

/-- What is inside an expression is mentioned by it. -/
theorem Holds.mentions {index : NominalIndex} {unopened scope : List String} {x : String × Via}
    (h : e.Holds via u v) (hx : x ∈ index.mentions unopened scope v u) :
    x ∈ index.mentions unopened scope via e := by
  have hall : ∀ q : Via × TypeExpr,
      ReflTransGen (fun p q : Via × TypeExpr => q ∈ p.2.inside p.1) (via, e) q →
      x ∈ index.mentions unopened scope q.1 q.2 → x ∈ index.mentions unopened scope via e := by
    intro q hq
    induction hq with
    | refl => exact id
    | tail _ hstep ih => exact fun hx => ih (NominalIndex.mem_mentions_of_inside hstep hx)
  exact hall _ h hx

end Holds

section Inside

variable {t u : TypeExpr} {names : List String}

theorem wrapped?_eq_some (h : t.wrapped? names = some u) :
    ∃ name, t.standardName? = some name ∧ name ∈ names ∧ t.args = [u] := by
  unfold wrapped? at h
  split at h
  · rename_i name _ arg _ _ hname hlast
    split at h
    · rename_i hmem
      obtain rfl := Option.some.inj h
      exact ⟨name, hname, List.contains_iff_mem.1 hmem, by simp [args, hlast, Segment.args]⟩
    · simp at h
  · simp at h

theorem mem_inside_of_args (h : u ∈ t.args) (via : Via) : (t.argumentVia via, u) ∈ t.inside via := by
  cases t with
  | path ss => exact List.mem_map_of_mem h
  | _ => simp [args, segments] at h

theorem mem_inside_of_wrapped (h : t.wrapped? names = some u) (via : Via) :
    (t.argumentVia via, u) ∈ t.inside via := by
  obtain ⟨-, -, -, hargs⟩ := wrapped?_eq_some h
  exact mem_inside_of_args (hargs ▸ List.mem_singleton_self u) via

theorem mem_inside_of_option (h : t.wrapped? ["Option"] = some u) (via : Via) :
    (via, u) ∈ t.inside via := by
  obtain ⟨name, hname, hmem, -⟩ := wrapped?_eq_some h
  obtain rfl := List.mem_singleton.1 hmem
  have hvia : t.argumentVia via = via := by simp [argumentVia, hname]
  have hmem := mem_inside_of_wrapped h via
  rwa [hvia] at hmem

theorem mem_inside_of_callBound {params : List TypeExpr} {ret : Option TypeExpr}
    (h : t.callBound? = some (params, ret)) (hu : u ∈ params ++ ret.toList) (via : Via) :
    (.function, u) ∈ t.inside via := by
  cases t with
  | bounded kind bounds lifetimes =>
    obtain ⟨bound, hbound, h⟩ := Option.bind_eq_some_iff.1 h
    obtain ⟨segment, hsegment, h⟩ := Option.map_eq_some_iff.1 h
    obtain ⟨rfl, rfl⟩ := Prod.mk.inj h
    refine List.mem_map_of_mem (List.mem_flatMap.2 ⟨bound, List.mem_of_find?_eq_some hbound, ?_⟩)
    exact List.mem_flatMap.2 ⟨segment, List.mem_of_getLast? hsegment, hu⟩
  | _ => simp [callBound?] at h

end Inside

end TypeExpr

namespace Building

open TypeExpr (Holds wrapped? isCallable callBound?)

/-- The expression asks for nothing, or it is inside another one. -/
def IsInside (e u : TypeExpr) (via : Via) : Prop := u = .unit ∨ ∃ v, e.Holds via u v

/-- What the recipe asks for stands inside the expression. -/
def Recipe.Covered (o : Outlook) (e : TypeExpr) : Recipe → Prop
  | .wrap via part _ => ∀ v, ∃ v', e.Holds v part v' ∧ (via = .value → v' = v)
  | .tuple parts => ∀ v, ∀ part ∈ parts, (v, part) ∈ e.inside v
  | .function params ret _ => ∀ v, ∀ part ∈ params ++ ret.types, IsInside e part v
  | .buffer n element _ => o.meaning.nominal? = some n
    ∧ ∃ mutable, Rule.elements? n = some (element, mutable)
  | .named n mention => mention = e ∧ o.meaning.nominal? = some n
  | .exact _ | .refuse _ | .illFormed .. => True

section Rule

variable {o : Outlook} {e : TypeExpr} {r : Recipe}

/-- The function type inside a callable one is that itself or right inside it. -/
theorem holds_callable {f : TypeExpr} {holding : Holding} (h : Rule.callable? e = some (f, holding))
    (via : Via) : ∃ v, e.Holds via f v := by
  unfold Rule.callable? at h
  split at h
  · exact ⟨via, (Prod.mk.inj (Option.some.inj h)).1 ▸ .refl⟩
  · split at h
    · exact ⟨via, (Prod.mk.inj (Option.some.inj h)).1 ▸ .refl⟩
    · simp at h
  · split at h
    · obtain ⟨rfl, -⟩ := Prod.mk.inj (Option.some.inj h)
      exact ⟨.pointer, .of_mem (List.mem_singleton_self _)⟩
    · simp at h
  · simp only [Option.or_eq_some_iff, Option.map_eq_some_iff, Option.filter_eq_some_iff,
      Prod.mk.injEq] at h
    rcases h with ⟨t, ⟨ht, -⟩, rfl, -⟩ | ⟨-, t, ⟨ht, -⟩, rfl, -⟩ <;>
      exact ⟨_, .of_mem (TypeExpr.mem_inside_of_wrapped ht via)⟩

theorem mem_inside_of_signature {f u : TypeExpr} {params : List TypeExpr} {ret : Option TypeExpr}
    (h : Rule.signature? f = some (params, ret)) (hu : u ∈ params ++ ret.toList) (via : Via) :
    (.function, u) ∈ f.inside via := by
  unfold Rule.signature? at h
  split at h
  · obtain ⟨rfl, rfl⟩ := Prod.mk.inj (Option.some.inj h)
    exact List.mem_map_of_mem hu
  · exact TypeExpr.mem_inside_of_callBound h hu via

/-- What a function returns stands in its return type. -/
theorem holds_return {ret : Option TypeExpr} {u : TypeExpr} (hu : u ∈ (Return.ofExpr ret).types) :
    u = .unit ∨ ∃ r, ret = some r ∧ ∃ v, r.Holds .function u v := by
  simp only [Return.ofExpr] at hu
  split at hu
  · split at hu
    · rename_i t error hargs
      cases ret with
      | none => simp [TypeExpr.args, TypeExpr.unit, TypeExpr.segments] at hargs
      | some r =>
        have hmem : u ∈ r.args := by
          rw [show r.args = [t, error] from hargs]
          exact hu
        exact .inr ⟨r, rfl, _, .of_mem (TypeExpr.mem_inside_of_args hmem _)⟩
    · simp [Return.types] at hu
  · obtain rfl := List.mem_singleton.1 hu
    cases ret with
    | none => exact .inl rfl
    | some r => exact .inr ⟨r, rfl, .function, .refl⟩

theorem covered_callable {f : TypeExpr} {params : List TypeExpr} {ret : Option TypeExpr}
    {holding : Holding} (hcallable : Rule.callable? e = some (f, holding))
    (hsignature : Rule.signature? f = some (params, ret)) :
    (Recipe.function params (.ofExpr ret) holding).Covered o e := by
  intro v part hpart
  obtain ⟨v', hinner⟩ := holds_callable hcallable v
  rcases List.mem_append.1 hpart with hpart | hpart
  · have hmem := mem_inside_of_signature hsignature (List.mem_append_left _ hpart) v'
    exact .inr ⟨_, hinner.then hmem⟩
  · rcases holds_return hpart with rfl | ⟨r, rfl, v'', hr⟩
    · exact .inl rfl
    · have hmem := mem_inside_of_signature (u := r) hsignature (by simp) v'
      exact .inr ⟨v'', (hinner.then hmem).trans hr⟩

theorem Rule.Answers.covered {rule : Rule} (h : rule.Answers o e r) : r.Covered o e := by
  cases h with
  | refuse | unit | primitive | text => trivial
  | array => exact fun v => ⟨v, .of_mem (List.mem_singleton_self _), fun _ => rfl⟩
  | slice =>
    exact fun v => ⟨.sequence, (Holds.of_mem (List.mem_singleton_self _)).then
      (List.mem_singleton_self _), nofun⟩
  | vector known | box known | counted known =>
    exact fun v => ⟨_, .of_mem (TypeExpr.mem_inside_of_wrapped known v), nofun⟩
  | boxedSlice known =>
    exact fun v => ⟨.sequence, (Holds.of_mem (TypeExpr.mem_inside_of_wrapped known v)).then
      (List.mem_singleton_self _), nofun⟩
  | callable known signature => exact covered_callable known signature
  | optional known =>
    exact fun v => ⟨v, .of_mem (TypeExpr.mem_inside_of_option known v), fun _ => rfl⟩
  | reference | pointer =>
    exact fun v => ⟨.pointer, .of_mem (List.mem_singleton_self _), nofun⟩
  | tuple => exact fun v part hpart => List.mem_map_of_mem hpart
  | structural meaning elements => exact ⟨meaning, _, elements⟩
  | nominal meaning => exact ⟨rfl, meaning⟩
  | @fixed _ name answer => cases answer <;> trivial

end Rule

theorem TypeModel.covered_recipe (m : TypeModel) (scope : List String) (e : TypeExpr) :
    (m.recipe scope e).Covered ⟨m.wordBits, m.index.resolve e.names scope⟩ e := by
  obtain ⟨rule, hanswers, -⟩ := m.recognizers.exists_answers
    ⟨m.wordBits, m.index.resolve e.names scope⟩ e
  exact hanswers.covered

end Building

end Crossing
