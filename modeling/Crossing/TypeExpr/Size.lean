import Crossing.TypeExpr.Name

/-!
# Parts are smaller than the whole

The arguments, wrapped types and call bounds of a type expression are smaller than the
expression. Every recursion that takes a type expression apart ends by these facts.
-/

namespace Crossing.TypeExpr

/-- No list is of size zero. -/
theorem sizeOf_list_pos {α : Type} [SizeOf α] (xs : List α) : 0 < sizeOf xs := by
  cases xs <;> grind

theorem sizeOf_option_pos {α : Type} [SizeOf α] (a : Option α) : 0 < sizeOf a := by
  cases a <;> grind

theorem sizeOf_pos (t : TypeExpr) : 0 < sizeOf t := by
  cases t <;> grind

/-- The inputs and the result of a segment are together smaller than it. -/
theorem sizeOf_segment_lt (s : Segment TypeExpr) :
    sizeOf s.args + sizeOf s.ret < sizeOf s + 1 := by
  cases s <;> grind [Segment.args, Segment.ret]

theorem sizeOf_args_le (t : TypeExpr) : sizeOf t.args ≤ sizeOf t := by
  unfold args
  split
  · rename_i s hs
    cases t with
    | path ss =>
      replace hs : ss.getLast? = some s := hs
      have hseg := sizeOf_segment_lt s
      have := List.sizeOf_lt_of_mem (List.mem_of_getLast? hs)
      simp only [path.sizeOf_spec]
      omega
    | _ => simp [segments] at hs
  · have := sizeOf_pos t
    simp only [List.nil.sizeOf_spec]
    omega

theorem sizeOf_wrapped_lt {t u : TypeExpr} {names : List String}
    (h : t.wrapped? names = some u) : sizeOf u < sizeOf t := by
  unfold wrapped? at h
  split at h
  · rename_i s arg ls cs _ hs
    split at h
    · injection h with h
      subst h
      have hargs : t.args = [arg] := by simp [args, hs, Segment.args]
      have hle := sizeOf_args_le t
      rw [hargs] at hle
      simp only [List.cons.sizeOf_spec] at hle
      omega
    · simp at h
  · simp at h

/-- The inputs and the result of a call bound leave room for four more. -/
theorem sizeOf_callBound_lt {t : TypeExpr} {params : List TypeExpr} {ret : Option TypeExpr}
    (h : t.callBound? = some (params, ret)) : sizeOf params + sizeOf ret + 4 ≤ sizeOf t := by
  unfold callBound? at h
  split at h
  · rename_i k bounds ls
    obtain ⟨b, hb, hm⟩ := Option.bind_eq_some_iff.1 h
    obtain ⟨s, hs, hp⟩ := Option.map_eq_some_iff.1 hm
    injection hp with hp hr
    subst hp
    subst hr
    have h1 := sizeOf_segment_lt s
    have h2 := List.sizeOf_lt_of_mem (List.mem_of_getLast? hs)
    have h3 := List.sizeOf_lt_of_mem (List.mem_of_find?_eq_some hb)
    have h4 := sizeOf_list_pos ls
    have h5 : 0 < sizeOf k := by cases k <;> simp
    simp only [bounded.sizeOf_spec]
    omega
  · simp at h

end Crossing.TypeExpr
