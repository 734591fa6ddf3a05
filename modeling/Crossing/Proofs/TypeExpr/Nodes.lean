import Mathlib.Logic.Relation
import Mathlib.Tactic.ByContra
import Mathlib.Tactic.Push
import Crossing.Nominal.Graph
import Crossing.TypeExpr.Enumerable

/-!
# The nodes of a type expression

`nodes` lists a type and everything inside it, from the outside in and from left to right. What
keeps a type from being enumerated is what its nodes say on their own, in this order
(`obstacles_eq`); a node says nothing when it is no obstruction (`ownObstacles_eq_nil_iff`).
-/

namespace Crossing.TypeExpr

open Relation (ReflTransGen)

/-- The types directly inside a type, in the order of the text. -/
def children : TypeExpr → List TypeExpr
  | .path ss => segmentTypes ss
  | .reference _ _ t => [t]
  | .pointer _ t => [t]
  | .slice t => [t]
  | .array t _ => [t]
  | .tuple ts => ts
  | .function _ _ ps r => ps ++ r.toList
  | .bounded _ bounds _ => bounds.flatMap segmentTypes
  | .never | .infer | .macroCall _ | .unparsed _ => []

theorem sizeOf_lt_of_mem_children {t u : TypeExpr} (h : u ∈ t.children) :
    sizeOf u < sizeOf t := by
  cases t with
  | path ss =>
    have := sizeOf_segmentTypes_lt h
    simp only [path.sizeOf_spec]
    omega
  | tuple ts =>
    have : sizeOf u < sizeOf ts := List.sizeOf_lt_of_mem h
    simp only [tuple.sizeOf_spec]
    omega
  | function isUnsafe abi ps r =>
    rcases List.mem_append.1 h with h | h
    · have := List.sizeOf_lt_of_mem h
      simp only [function.sizeOf_spec]
      omega
    · obtain rfl := Option.mem_toList.1 h
      simp only [function.sizeOf_spec, Option.some.sizeOf_spec]
      omega
  | bounded kind bounds lifetimes =>
    obtain ⟨b, hb, h⟩ := List.mem_flatMap.1 h
    have := sizeOf_segmentTypes_lt h
    have := List.sizeOf_lt_of_mem hb
    simp only [bounded.sizeOf_spec]
    omega
  | reference lifetime mutable t =>
    obtain rfl := List.mem_singleton.1 h
    simp only [reference.sizeOf_spec]
    omega
  | pointer mutable t =>
    obtain rfl := List.mem_singleton.1 h
    simp only [pointer.sizeOf_spec]
    omega
  | slice t =>
    obtain rfl := List.mem_singleton.1 h
    simp only [slice.sizeOf_spec]
    omega
  | array t length =>
    obtain rfl := List.mem_singleton.1 h
    simp only [array.sizeOf_spec]
    omega
  | never => cases h
  | infer => cases h
  | macroCall text => cases h
  | unparsed text => cases h

/-- The type is the other or stands somewhere inside it. -/
def IsNodeOf (u t : TypeExpr) : Prop := ReflTransGen (fun t u => u ∈ t.children) t u

/-- A type and everything inside it, from the outside in and from left to right. -/
def nodes (t : TypeExpr) : List TypeExpr :=
  t :: t.children.attach.flatMap fun ⟨u, _⟩ => u.nodes
termination_by sizeOf t
decreasing_by exact sizeOf_lt_of_mem_children ‹_›

theorem nodes_eq (t : TypeExpr) : t.nodes = t :: t.children.flatMap nodes := by
  rw [nodes]
  simp [List.flatMap_def]

theorem mem_nodes_iff {t u : TypeExpr} : u ∈ t.nodes ↔ u.IsNodeOf t := by
  induction t using nodes.induct with
  | case1 t ih =>
    rw [nodes_eq, List.mem_cons, List.mem_flatMap, IsNodeOf, ReflTransGen.cases_head_iff, eq_comm]
    refine or_congr_right (exists_congr fun v => and_congr_right fun hv => ?_)
    exact ih v hv

mutual

/-- What the nodes of a type say on their own is all that is found in it, in their order. -/
theorem obstacles_eq (generics : List String) :
    ∀ t : TypeExpr, t.obstacles generics = t.nodes.flatMap (ownObstacles generics)
  | .path ss => by
    rw [nodes_eq, obstacles, obstaclesPath_eq generics ss, List.flatMap_cons, children]
  | .reference _ _ t => by
    simp [nodes_eq, obstacles, obstacles_eq generics t, children, ownObstacles]
  | .pointer _ t => by
    simp [nodes_eq, obstacles, obstacles_eq generics t, children, ownObstacles]
  | .slice t => by
    simp [nodes_eq, obstacles, obstacles_eq generics t, children, ownObstacles]
  | .array t _ => by simp [nodes_eq, obstacles, obstacles_eq generics t, children]
  | .tuple ts => by
    simp [nodes_eq, obstacles, obstaclesList_eq generics ts, children, ownObstacles]
  | .function _ _ ps r => by
    simp [nodes_eq, obstacles, obstaclesList_eq generics ps, obstaclesOption_eq generics r,
      children, ownObstacles]
  | .bounded _ bs _ => by
    rw [nodes_eq, obstacles, obstaclesBounds_eq generics bs, List.flatMap_cons, children]
  | .never => by simp [nodes_eq, obstacles, children, ownObstacles]
  | .infer => by simp [nodes_eq, obstacles, children]
  | .macroCall _ => by simp [nodes_eq, obstacles, children]
  | .unparsed _ => by simp [nodes_eq, obstacles, children]

theorem obstaclesList_eq (generics : List String) : ∀ ts : List TypeExpr,
    obstaclesList generics ts = (ts.flatMap nodes).flatMap (ownObstacles generics)
  | [] => rfl
  | t :: ts => by
    rw [obstaclesList, obstacles_eq generics t, obstaclesList_eq generics ts, List.flatMap_cons,
      List.flatMap_append]

theorem obstaclesOption_eq (generics : List String) : ∀ t : Option TypeExpr,
    obstaclesOption generics t = (t.toList.flatMap nodes).flatMap (ownObstacles generics)
  | none => rfl
  | some t => by simp [obstaclesOption, obstacles_eq generics t]

theorem obstaclesSegment_eq (generics : List String) : ∀ s : Segment TypeExpr,
    obstaclesSegment generics s
      = ((s.args ++ s.ret.toList).flatMap nodes).flatMap (ownObstacles generics)
  | .plain _ ts _ _ => by
    simp [obstaclesSegment, obstaclesList_eq generics ts, Segment.args, Segment.ret]
  | .call _ ts r => by
    simp [obstaclesSegment, obstaclesList_eq generics ts, obstaclesOption_eq generics r,
      Segment.args, Segment.ret]

theorem obstaclesPath_eq (generics : List String) : ∀ ss : List (Segment TypeExpr),
    obstaclesPath generics ss = ((segmentTypes ss).flatMap nodes).flatMap (ownObstacles generics)
  | [] => rfl
  | s :: ss => by
    rw [obstaclesPath, obstaclesSegment_eq generics s, obstaclesPath_eq generics ss]
    simp [segmentTypes]

theorem obstaclesBounds_eq (generics : List String) : ∀ bs : List (List (Segment TypeExpr)),
    obstaclesBounds generics bs
      = ((bs.flatMap segmentTypes).flatMap nodes).flatMap (ownObstacles generics)
  | [] => rfl
  | b :: bs => by
    rw [obstaclesBounds, obstaclesPath_eq generics b, obstaclesBounds_eq generics bs,
      List.flatMap_cons, List.flatMap_append, List.flatMap_append]

end

/-- The type does not say on its own which type it is. -/
inductive Obstructs (generics : List String) : TypeExpr → Prop where
  | macroCall (text : String) : Obstructs generics (.macroCall text)
  | unparsed (text : String) : Obstructs generics (.unparsed text)
  | infer : Obstructs generics .infer
  | parameter {s : Segment TypeExpr} (generic : s.name ∈ generics) :
      Obstructs generics (.path [s])
  | self {s : Segment TypeExpr} {ss : List (Segment TypeExpr)} (name_eq : s.name = "Self") :
      Obstructs generics (.path (s :: ss))
  | length (t : TypeExpr) (name : String) : Obstructs generics (.array t (.named name))
  | bounded {kind : BoundKind} {bounds : List (List (Segment TypeExpr))} {lifetimes : List String}
      (silent : ∀ bound ∈ bounds, isCallBound bound = false) :
      Obstructs generics (.bounded kind bounds lifetimes)

theorem isCallable_iff {kind : BoundKind} {bounds : List (List (Segment TypeExpr))}
    {lifetimes : List String} :
    (bounded kind bounds lifetimes).isCallable = true
      ↔ ∃ bound ∈ bounds, isCallBound bound = true := by
  rw [← List.find?_isSome, isCallable, callBound?]
  cases hfind : bounds.find? isCallBound with
  | none => simp
  | some bound =>
    have hcall := List.find?_some hfind
    unfold isCallBound at hcall
    cases hlast : bound.getLast? with
    | none => simp [hlast] at hcall
    | some s => simp [hlast]

theorem pathObstacles_eq_nil_iff {generics : List String} {ss : List (Segment TypeExpr)} :
    pathObstacles generics ss = [] ↔ ¬ Obstructs generics (.path ss) := by
  cases ss with
  | nil => exact iff_of_true rfl (by rintro ⟨⟩)
  | cons s ss =>
    have hiff : Obstructs generics (.path (s :: ss))
        ↔ (ss = [] ∧ s.name ∈ generics) ∨ s.name = "Self" := by
      constructor
      · rintro (_ | _ | _ | hgeneric | hself)
        · exact .inl ⟨rfl, hgeneric⟩
        · exact .inr hself
      · rintro (⟨rfl, hgeneric⟩ | hself)
        · exact .parameter hgeneric
        · exact .self hself
    rw [hiff]
    simp only [pathObstacles, List.map_cons, List.isEmpty_map, List.contains_eq_mem,
      Bool.and_eq_true, List.isEmpty_iff, decide_eq_true_eq, beq_iff_eq]
    split
    · simp_all
    · split <;> simp_all

theorem ownObstacles_eq_nil_iff {generics : List String} {t : TypeExpr} :
    ownObstacles generics t = [] ↔ ¬ Obstructs generics t := by
  cases t with
  | path ss => exact pathObstacles_eq_nil_iff
  | array t length =>
    cases length with
    | literal value spelling => exact iff_of_true rfl (by rintro ⟨⟩)
    | named name => exact iff_of_false (List.cons_ne_nil _ _) (not_not_intro (.length t name))
  | bounded kind bounds lifetimes =>
    have hiff : ¬ Obstructs generics (.bounded kind bounds lifetimes)
        ↔ (bounded kind bounds lifetimes).isCallable = true := by
      rw [isCallable_iff]
      constructor
      · intro h
        by_contra hsilent
        push Not at hsilent
        exact h (.bounded fun bound hbound => Bool.eq_false_iff.2 (hsilent bound hbound))
      · rintro ⟨bound, hbound, hcall⟩ (_ | _ | _ | _ | _ | _ | hsilent)
        simp [hsilent bound hbound] at hcall
    rw [hiff, ownObstacles]
    split <;> simp_all
  | macroCall text => exact iff_of_false (List.cons_ne_nil _ _) (not_not_intro (.macroCall text))
  | unparsed text => exact iff_of_false (List.cons_ne_nil _ _) (not_not_intro (.unparsed text))
  | infer => exact iff_of_false (List.cons_ne_nil _ _) (not_not_intro .infer)
  | reference lifetime mutable t => exact iff_of_true rfl (by rintro ⟨⟩)
  | pointer mutable t => exact iff_of_true rfl (by rintro ⟨⟩)
  | slice t => exact iff_of_true rfl (by rintro ⟨⟩)
  | tuple ts => exact iff_of_true rfl (by rintro ⟨⟩)
  | function isUnsafe abi ps r => exact iff_of_true rfl (by rintro ⟨⟩)
  | never => exact iff_of_true rfl (by rintro ⟨⟩)

end Crossing.TypeExpr
