import Crossing.Proofs.InterfaceType.Parts

/-!
# The walk meets types in preorder

A type may occur at many places below a root, and the stack of the walk may hold it many times
before it is met. The walk meets it once all the same, and meets the types in the order in which a
recursive walk, which goes into every occurrence, first comes to them (`graph_eq_eraseDups`).

What carries this along the stack is where the rest of a type waits that was seen (`Awaited`):
whatever lies inside it was seen too, or lies inside smaller types at the top of the stack. So
nothing of it is left when the type comes up again, and skipping it loses nothing.
-/

namespace Crossing.InterfaceType

/-- Every type at or below a root as often as it occurs, each before its parts and those from left
to right. -/
def preorder (t : InterfaceType) : List InterfaceType :=
  t :: t.parts.attach.flatMap fun ⟨u, _⟩ => preorder u
termination_by sizeOf t
decreasing_by exact sizeOf_part_lt ‹_›

theorem preorder_eq (t : InterfaceType) : t.preorder = t :: t.parts.flatMap preorder := by
  have hparts : t.parts.attach.map (fun u => u.1.preorder) = t.parts.map preorder :=
    List.attach_map_val (f := preorder)
  rw [preorder, List.flatMap_def, List.flatMap_def, ← hparts]

theorem mem_preorder {t u : InterfaceType} : u ∈ t.preorder ↔ t.Contains u := by
  induction t using parts_induction with
  | h t ih =>
    rw [preorder_eq, List.mem_cons, contains_iff, List.mem_flatMap]
    exact or_congr_right (exists_congr fun p => and_congr_right fun hp => ih p hp)

section Stack

variable {stack rest seen : List InterfaceType} {s t : InterfaceType}

/-- What lies inside a type was seen, or lies inside what the stack holds in front of everything
that is not smaller than the type. -/
def Awaited (stack seen : List InterfaceType) (s : InterfaceType) : Prop :=
  ∃ front, front <+: stack ∧ (∀ p ∈ front, sizeOf p < sizeOf s) ∧
    ∀ u, s.Contains u → u ∈ seen ∨ ∃ p ∈ front, p.Contains u

/-- Nothing is left of a type that was seen and comes up again. -/
theorem Awaited.mem_seen (h : Awaited (t :: rest) seen t) : ∀ u, t.Contains u → u ∈ seen := by
  obtain ⟨front, hfront, hsmaller, hinside⟩ := h
  have hnil : front = [] := by
    rcases List.prefix_cons_iff.1 hfront with rfl | ⟨front, rfl, -⟩
    · rfl
    · exact absurd (hsmaller t List.mem_cons_self) (Nat.lt_irrefl _)
  subst hnil
  intro u hu
  exact (hinside u hu).resolve_right (by simp)

theorem Awaited.skip (ht : ∀ u, t.Contains u → u ∈ seen) (h : Awaited (t :: rest) seen s) :
    Awaited rest seen s := by
  obtain ⟨front, hfront, hsmaller, hinside⟩ := h
  rcases List.prefix_cons_iff.1 hfront with rfl | ⟨front, rfl, hrest⟩
  · exact ⟨[], List.nil_prefix, by simp, hinside⟩
  · refine ⟨front, hrest, fun p hp => hsmaller p (.tail _ hp), fun u hu => ?_⟩
    rcases hinside u hu with hseen | ⟨p, hp, hpu⟩
    · exact .inl hseen
    · rcases List.mem_cons.1 hp with rfl | hp
      · exact .inl (ht u hpu)
      · exact .inr ⟨p, hp, hpu⟩

/-- The parts of a type take its place on the stack. -/
theorem Awaited.enter (h : Awaited (t :: rest) seen s) :
    Awaited (t.parts ++ rest) (t :: seen) s := by
  obtain ⟨front, hfront, hsmaller, hinside⟩ := h
  rcases List.prefix_cons_iff.1 hfront with rfl | ⟨front, rfl, hrest⟩
  · refine ⟨[], List.nil_prefix, by simp, fun u hu => .inl (.tail _ ?_)⟩
    exact (hinside u hu).resolve_right (by simp)
  · refine ⟨t.parts ++ front, (List.prefix_append_right_inj _).2 hrest, ?_, fun u hu => ?_⟩
    · intro p hp
      rcases List.mem_append.1 hp with hp | hp
      · exact Nat.lt_trans (sizeOf_part_lt hp) (hsmaller t List.mem_cons_self)
      · exact hsmaller p (.tail _ hp)
    · rcases hinside u hu with hseen | ⟨p, hp, hpu⟩
      · exact .inl (.tail _ hseen)
      · rcases List.mem_cons.1 hp with rfl | hp
        · rcases contains_iff.1 hpu with rfl | ⟨q, hq, hqu⟩
          · exact .inl List.mem_cons_self
          · exact .inr ⟨q, List.mem_append_left _ hq, hqu⟩
        · exact .inr ⟨p, List.mem_append_right _ hp, hpu⟩

theorem awaited_self : Awaited (t.parts ++ rest) (t :: seen) t := by
  refine ⟨t.parts, List.prefix_append .., fun p hp => sizeOf_part_lt hp, fun u hu => ?_⟩
  rcases contains_iff.1 hu with rfl | ⟨p, hp, hpu⟩
  · exact .inl List.mem_cons_self
  · exact .inr ⟨p, hp, hpu⟩

/-- The walk meets what a recursive walk over the stack comes to, first occurrences only, and leaves
out what was seen before. -/
theorem walk_eq_eraseDups (h : ∀ s ∈ seen, Awaited stack seen s) :
    walk stack seen = ((stack.flatMap preorder).filter fun u => u ∉ seen).eraseDups := by
  induction stack, seen using walk.induct with
  | case1 seen => simp [walk]
  | case2 seen t rest hseen ih =>
    have hinside := (h t hseen).mem_seen
    have hskipped : (t.preorder.filter fun u => u ∉ seen) = [] := by
      simpa [List.filter_eq_nil_iff] using fun u hu => hinside u (mem_preorder.1 hu)
    rw [walk, if_pos hseen, ih fun s hs => (h s hs).skip hinside, List.flatMap_cons,
      List.filter_append, hskipped, List.nil_append]
  | case3 seen t rest hseen ih =>
    have hawaited : ∀ s ∈ t :: seen, Awaited (t.parts ++ rest) (t :: seen) s :=
      List.forall_mem_cons.2 ⟨awaited_self, fun s hs => (h s hs).enter⟩
    have hunseen : ∀ us : List InterfaceType, (us.filter fun u => u ∉ t :: seen)
        = (us.filter fun u => u ∉ seen).filter fun u => !u == t := by
      intro us
      rw [List.filter_filter]
      exact List.filter_congr fun u _ => by simp [Bool.beq_eq_decide_eq]
    rw [walk, if_neg hseen, ih hawaited, hunseen, List.flatMap_cons, preorder_eq, List.cons_append,
      List.filter_cons_of_pos (by simpa using hseen), List.eraseDups_cons, List.flatMap_append]

end Stack

/-- The types at and below a root are met in the order of a recursive walk, each where that walk
first comes to it. -/
theorem graph_eq_eraseDups (t : InterfaceType) : t.graph = t.preorder.eraseDups := by
  rw [graph, walk_eq_eraseDups (by simp), List.flatMap_singleton, List.filter_eq_self.2 (by simp)]

theorem mem_graph {t u : InterfaceType} : u ∈ t.graph ↔ t.Contains u := by
  rw [graph_eq_eraseDups, List.mem_eraseDups, mem_preorder]

end Crossing.InterfaceType
