import Crossing.Nominal.Component
import Mathlib.Data.List.Nodup
import Mathlib.Data.List.Perm.Basic
import Mathlib.Logic.Relation

/-!
# What the walk over a graph finds

The visits that are not over cut the stack into segments (`Walk.Nested`), each of which lies in one
component (`Walk.Fits.leads`), and a visit accounts for every edge that was followed from its
segment. So nothing leads out of a segment whose number is the lowest that is known but into
components that are complete, and the segment is a component itself (`Walk.mem_iff_of_closed`).
Every step keeps this (`Walk.sound_step`), and when no step is left the stack is empty: the
components hold every node once (`components_perm`), and two nodes are in one component when edges
lead from each to the other (`mem_component_iff`).
-/

namespace Crossing

open Relation (ReflTransGen TransGen)

theorem nodup_eraseDups {α : Type} [BEq α] [LawfulBEq α] (xs : List α) : xs.eraseDups.Nodup := by
  cases xs with
  | nil => exact .nil
  | cons x xs =>
    rw [List.eraseDups_cons, List.nodup_cons]
    refine ⟨fun h => ?_, nodup_eraseDups _⟩
    simpa using (List.mem_filter.1 (List.mem_eraseDups.1 h)).2
termination_by xs.length
decreasing_by exact Nat.lt_succ_of_le (List.length_filter_le _ _)

namespace Digraph

/-- An edge between two nodes of the graph. -/
def Edge (g : Digraph) (v w : String) : Prop := v ∈ g.nodes ∧ w ∈ g.nodes ∧ w ∈ g.next v

/-- A path of edges. -/
abbrev Leads (g : Digraph) : String → String → Prop := ReflTransGen g.Edge

namespace Walk

variable {g : Digraph} {unvisited unvisited' : List String} {s t : Walk} {v u : Visit}
  {outer : List Visit} {above below stack : List (String × Nat)} {low : Nat} {w : String}

/-- A node was entered, and its number is no lower than `low` if it is in this part of the stack. -/
def Accounts (unvisited : List String) (below : List (String × Nat)) (low : Nat) (w : String) :
    Prop :=
  w ∉ unvisited ∧ ∀ number, (w, number) ∈ below → low ≤ number

/-- A visit with what is above its node and below it on the stack. -/
structure Fits (g : Digraph) (unvisited : List String) (v : Visit)
    (above below : List (String × Nat)) : Prop where
  pending : ∀ w ∈ v.pending, w ∈ g.next v.node
  leads : ∀ x ∈ above, g.Leads v.node x.1 ∧ g.Leads x.1 v.node
  low_le : v.low ≤ v.number
  lowest : v.low < v.number → ∃ x, (x, v.low) ∈ below ∧ g.Leads v.node x
  finished : ∀ x ∈ above, ∀ w, g.Edge x.1 w → Accounts unvisited below v.low w
  followed : ∀ w, g.Edge v.node w → w ∈ v.pending ∨ Accounts unvisited below v.low w

/-- The visits cut the stack into segments, and an edge leads from each visit to the next one. -/
inductive Nested (g : Digraph) (unvisited : List String) :
    List Visit → List (String × Nat) → Prop where
  | nil : Nested g unvisited [] []
  | cons {v : Visit} {outer : List Visit} {above below : List (String × Nat)}
      (fits : Fits g unvisited v above below) (edge : ∀ u ∈ outer.head?, g.Edge u.node v.node)
      (nested : Nested g unvisited outer below) :
      Nested g unvisited (v :: outer) (above ++ (v.node, v.number) :: below)

/-- What holds all along a walk. -/
structure Sound (g : Digraph) (s : Walk) : Prop where
  starts : ∀ v ∈ s.unvisited, v ∈ s.starts
  perm : (s.unvisited ++ s.stack.map (·.1) ++ s.components.flatten).Perm g.nodes.eraseDups
  numbers : s.stack.Pairwise fun x y => y.2 < x.2
  entered : ∀ x ∈ s.stack, x.2 < s.entered
  nested : Nested g s.unvisited s.visits s.stack
  closed : ∀ v ∈ s.components.flatten, ∀ w, g.Edge v w → w ∈ s.components.flatten
  component : ∀ c ∈ s.components, c ≠ [] ∧
    ∀ v ∈ c, ∀ w, w ∈ c ↔ g.Leads v w ∧ g.Leads w v

/-! ## The segments of the stack -/

theorem Accounts.mono {below' : List (String × Nat)} {low' : Nat}
    (h : Accounts unvisited below low w) (hunvisited : ∀ w ∈ unvisited', w ∈ unvisited)
    (hbelow : ∀ x ∈ below', x ∈ below) (hlow : low' ≤ low) : Accounts unvisited' below' low' w :=
  ⟨fun hw => h.1 (hunvisited w hw), fun n hn => Nat.le_trans hlow (h.2 n (hbelow _ hn))⟩

theorem Fits.mono (h : Fits g unvisited v above below)
    (hunvisited : ∀ w ∈ unvisited', w ∈ unvisited) : Fits g unvisited' v above below :=
  { h with
    finished := fun x hx w hw => (h.finished x hx w hw).mono hunvisited (fun _ => id) (Nat.le_refl _)
    followed := fun w hw =>
      (h.followed w hw).imp_right (·.mono hunvisited (fun _ => id) (Nat.le_refl _)) }

theorem Nested.mono {visits : List Visit} (h : Nested g unvisited visits stack)
    (hunvisited : ∀ w ∈ unvisited', w ∈ unvisited) : Nested g unvisited' visits stack := by
  induction h with
  | nil => exact .nil
  | cons fits edge _ ih => exact .cons (fits.mono hunvisited) edge ih

/-- The stack leads to the node of the innermost visit. -/
theorem Nested.leads_innermost (h : Nested g unvisited (v :: outer) stack) :
    ∀ x ∈ stack, g.Leads x.1 v.node := by
  generalize hvisits : v :: outer = visits at h
  induction h generalizing v outer with
  | nil => cases hvisits
  | @cons v' outer' above below fits edge nested ih =>
    obtain ⟨rfl, rfl⟩ := List.cons.inj hvisits
    intro x hx
    rcases List.mem_append.1 hx with hx | hx
    · exact (fits.leads x hx).2
    rcases List.mem_cons.1 hx with rfl | hx
    · exact .refl
    cases outer with
    | nil => cases nested; simp at hx
    | cons u outer => exact (ih rfl x hx).tail (edge u rfl)

section Segment

variable (hnumbers : (above ++ (v.node, v.number) :: below).Pairwise fun x y => y.2 < x.2)
include hnumbers

theorem number_lt_of_mem_above : ∀ x ∈ above, v.number < x.2 :=
  fun x hx => (List.pairwise_append.1 hnumbers).2.2 x hx _ List.mem_cons_self

theorem number_lt_of_mem_below : ∀ x ∈ below, x.2 < v.number :=
  (List.pairwise_cons.1 (List.pairwise_append.1 hnumbers).2.1).1

/-- What has a lower number than a visit is below its node. -/
theorem mem_below_of_lt {x : String × Nat} (hx : x ∈ above ++ (v.node, v.number) :: below)
    (hlt : x.2 < v.number) : x ∈ below := by
  rcases List.mem_append.1 hx with hx | hx
  · exact absurd (number_lt_of_mem_above hnumbers x hx) (by omega)
  · refine (List.mem_cons.1 hx).resolve_left ?_
    rintro rfl
    exact absurd hlt (Nat.lt_irrefl _)

end Segment

/-- A visit told of a number on the stack to which an edge leads. -/
theorem Fits.lower {number : Nat} (h : Fits g unvisited v above below)
    (hnumbers : (above ++ (v.node, v.number) :: below).Pairwise fun x y => y.2 < x.2)
    (hnumber : (w, number) ∈ above ++ (v.node, v.number) :: below) (hedge : g.Edge v.node w) :
    Fits g unvisited { v with low := min v.low number } above below where
  pending := h.pending
  leads := h.leads
  low_le := Nat.le_trans (Nat.min_le_left _ _) h.low_le
  lowest hlow := by
    rcases Nat.le_total v.low number with hle | hle
    · simp only [Nat.min_eq_left hle] at hlow ⊢
      exact h.lowest hlow
    · simp only [Nat.min_eq_right hle] at hlow ⊢
      exact ⟨w, mem_below_of_lt hnumbers hnumber hlow, .single hedge⟩
  finished x hx w' hw' :=
    (h.finished x hx w' hw').mono (fun _ => id) (fun _ => id) (Nat.min_le_left _ _)
  followed w' hw' :=
    (h.followed w' hw').imp_right (·.mono (fun _ => id) (fun _ => id) (Nat.min_le_left _ _))

/-- A visit that has followed its next edge, if it accounts for where the edge leads. -/
theorem Fits.next {pending : List String} (h : Fits g unvisited v above below)
    (hpending : v.pending = w :: pending) (hw : Accounts unvisited below v.low w) :
    Fits g unvisited { v with pending } above below where
  pending w' hw' := h.pending w' (hpending ▸ List.mem_cons_of_mem _ hw')
  leads := h.leads
  low_le := h.low_le
  lowest := h.lowest
  finished := h.finished
  followed w' hw' := by
    rcases h.followed w' hw' with hmem | hacc
    · rw [hpending] at hmem
      rcases List.mem_cons.1 hmem with rfl | hmem
      · exact .inr hw
      · exact .inl hmem
    · exact .inr hacc

/-- The visit around one that leaves its segment on the stack takes the segment over. -/
theorem Fits.merge {above' below' : List (String × Nat)} (hpending : v.pending = [])
    (hv : Fits g unvisited v above (above' ++ (u.node, u.number) :: below'))
    (hu : Fits g unvisited u above' below') (hedge : g.Edge u.node v.node)
    (hback : g.Leads v.node u.node)
    (hnumbers : (above' ++ (u.node, u.number) :: below').Pairwise fun x y => y.2 < x.2)
    (hlow : v.low < v.number) :
    Fits g unvisited { u with low := min u.low v.low } (above ++ (v.node, v.number) :: above')
      below' := by
  have hbelow : ∀ x ∈ below', x ∈ above' ++ (u.node, u.number) :: below' :=
    fun x hx => List.mem_append_right _ (.tail _ hx)
  have hinner : ∀ {w}, Accounts unvisited (above' ++ (u.node, u.number) :: below') v.low w →
      Accounts unvisited below' (min u.low v.low) w :=
    fun hw => hw.mono (fun _ => id) hbelow (Nat.min_le_right _ _)
  have houter : ∀ {w}, Accounts unvisited below' u.low w →
      Accounts unvisited below' (min u.low v.low) w :=
    fun hw => hw.mono (fun _ => id) (fun _ => id) (Nat.min_le_left _ _)
  refine ⟨hu.pending, fun x hx => ?_, Nat.le_trans (Nat.min_le_left _ _) hu.low_le, fun hlt => ?_,
    fun x hx w hw => ?_, fun w hw => (hu.followed w hw).imp_right houter⟩
  · rcases List.mem_append.1 hx with hx | hx
    · exact ⟨.head hedge (hv.leads x hx).1, (hv.leads x hx).2.trans hback⟩
    rcases List.mem_cons.1 hx with rfl | hx
    · exact ⟨.single hedge, hback⟩
    · exact hu.leads x hx
  · rcases Nat.le_total u.low v.low with hle | hle
    · simp only [Nat.min_eq_left hle] at hlt ⊢
      exact hu.lowest hlt
    · simp only [Nat.min_eq_right hle] at hlt ⊢
      obtain ⟨x, hx, hleads⟩ := hv.lowest hlow
      exact ⟨x, mem_below_of_lt hnumbers hx hlt, .head hedge hleads⟩
  · rcases List.mem_append.1 hx with hx | hx
    · exact hinner (hv.finished x hx w hw)
    rcases List.mem_cons.1 hx with rfl | hx
    · refine hinner ((hv.followed w hw).resolve_left ?_)
      simp [hpending]
    · exact houter (hu.finished x hx w hw)

/-- The nodes of a segment and the node of its visit lead to each other. -/
theorem Fits.leads_segment (h : Fits g unvisited v above below) :
    ∀ x ∈ above.map (·.1) ++ [v.node], g.Leads v.node x ∧ g.Leads x v.node := by
  intro x hx
  rcases List.mem_append.1 hx with hx | hx
  · obtain ⟨y, hy, rfl⟩ := List.mem_map.1 hx
    exact h.leads y hy
  · obtain rfl := List.mem_singleton.1 hx
    exact ⟨.refl, .refl⟩

/-- A visit that has followed all its edges accounts for those of its segment. -/
theorem Fits.accounts (h : Fits g unvisited v above below) (hpending : v.pending = []) :
    ∀ x ∈ above.map (·.1) ++ [v.node], ∀ w, g.Edge x w → Accounts unvisited below v.low w := by
  intro x hx w hw
  rcases List.mem_append.1 hx with hx | hx
  · obtain ⟨y, hy, rfl⟩ := List.mem_map.1 hx
    exact h.finished y hy w hw
  · obtain rfl := List.mem_singleton.1 hx
    exact (h.followed w hw).resolve_left (by simp [hpending])

/-! ## A complete component -/

/-- Nodes that lead to each other are a component, where edges lead out of them only to a closed set
of nodes that has none of them. -/
theorem mem_iff_of_closed {c done : List String} {root : String}
    (hleads : ∀ v ∈ c, g.Leads root v ∧ g.Leads v root)
    (hclosed : ∀ v ∈ done, ∀ w, g.Edge v w → w ∈ done)
    (hedge : ∀ v ∈ c, ∀ w, g.Edge v w → w ∈ c ∨ w ∈ done) (hdisjoint : root ∉ done) :
    ∀ v ∈ c, ∀ w, w ∈ c ↔ g.Leads v w ∧ g.Leads w v := by
  have hstays : ∀ {v w}, v ∈ done → g.Leads v w → w ∈ done := by
    intro v w hv hvw
    induction hvw with
    | refl => exact hv
    | tail _ hlast ih => exact hclosed _ ih _ hlast
  have hout : ∀ {v w}, v ∈ c → g.Leads v w → w ∈ c ∨ w ∈ done := by
    intro v w hv hvw
    induction hvw with
    | refl => exact .inl hv
    | tail _ hlast ih =>
      exact ih.elim (fun hin => hedge _ hin _ hlast) fun hdone => .inr (hclosed _ hdone _ hlast)
  intro v hv w
  constructor
  · exact fun hw => ⟨(hleads v hv).2.trans (hleads w hw).1, (hleads w hw).2.trans (hleads v hv).1⟩
  · rintro ⟨hvw, hwv⟩
    refine (hout hv hvw).resolve_right fun hdone => hdisjoint (hstays hdone ?_)
    exact hwv.trans (hleads v hv).2

/-! ## The steps -/

section Facts

variable (h : Sound g s)
include h

theorem Sound.nodup : (s.unvisited ++ s.stack.map (·.1) ++ s.components.flatten).Nodup :=
  h.perm.nodup_iff.2 (nodup_eraseDups _)

theorem Sound.mem_nodes_iff :
    w ∈ g.nodes ↔ (w ∈ s.unvisited ∨ w ∈ s.stack.map (·.1)) ∨ w ∈ s.components.flatten := by
  rw [← List.mem_eraseDups, ← h.perm.mem_iff, List.mem_append, List.mem_append]

theorem Sound.nodup_unvisited : s.unvisited.Nodup :=
  (List.nodup_append.1 (List.nodup_append.1 h.nodup).1).1

theorem Sound.nodup_stack : (s.stack.map (·.1)).Nodup :=
  (List.nodup_append.1 (List.nodup_append.1 h.nodup).1).2.1

theorem Sound.not_mem_stack (hw : w ∈ s.unvisited) (number : Nat) : (w, number) ∉ s.stack :=
  fun hstack => (List.nodup_append.1 (List.nodup_append.1 h.nodup).1).2.2 w hw w
    (List.mem_map_of_mem hstack) rfl

/-- What was entered and is not on the stack is in a complete component. -/
theorem Sound.mem_done (hw : w ∈ g.nodes) (hunvisited : w ∉ s.unvisited)
    (hstack : w ∉ s.stack.map (·.1)) : w ∈ s.components.flatten :=
  (h.mem_nodes_iff.1 hw).resolve_left fun hor => hor.elim hunvisited hstack

end Facts

/-- The next node to start from is left to the visits. -/
theorem Sound.start {v : String} {starts : List String} (h : Sound g s)
    (hstarts : s.starts = v :: starts) (hv : v ∉ s.unvisited) : Sound g { s with starts } :=
  { h with
    starts := fun w hw => by
      have hmem := h.starts w hw
      rw [hstarts] at hmem
      refine (List.mem_cons.1 hmem).resolve_left ?_
      rintro rfl
      exact hv hw }

/-- A walk goes into a node. -/
theorem Sound.enter {v : String} {starts : List String} {visits : List Visit} (h : Sound g s)
    (hv : v ∈ s.unvisited) (hstarts : ∀ w ∈ s.unvisited, w = v ∨ w ∈ starts)
    (hnested : Nested g (s.unvisited.erase v) visits s.stack)
    (hedge : ∀ u ∈ visits.head?, g.Edge u.node v) :
    Sound g ({ s with starts, visits }.enter g.next v) where
  starts w hw := by
    have hne := (h.nodup_unvisited.mem_erase_iff.1 hw).1
    exact (hstarts w (List.mem_of_mem_erase hw)).resolve_left hne
  perm := by
    refine List.Perm.trans (List.Perm.append_right _ ?_) h.perm
    refine List.perm_middle.trans ?_
    exact (List.perm_cons_erase hv).symm.append_right _
  numbers := List.pairwise_cons.2 ⟨fun x hx => h.entered x hx, h.numbers⟩
  entered x hx := by
    rcases List.mem_cons.1 hx with rfl | hx
    · exact Nat.lt_succ_self _
    · exact Nat.lt_succ_of_lt (h.entered x hx)
  nested := by
    have fits : Fits g (s.unvisited.erase v) ⟨v, s.entered, s.entered, g.next v⟩ [] s.stack :=
      { pending := fun _ => id
        leads := by simp
        low_le := Nat.le_refl _
        lowest := fun hlt => absurd hlt (Nat.lt_irrefl _)
        finished := by simp
        followed := fun w hw => .inl hw.2.2 }
    exact .cons fits hedge hnested
  closed := h.closed
  component := h.component

section Innermost

variable (h : Sound g s)
include h

/-- The segment of the innermost visit. -/
theorem Sound.exists_segment (hvisits : s.visits = v :: outer) : ∃ above below,
    s.stack = above ++ (v.node, v.number) :: below ∧ Fits g s.unvisited v above below ∧
      (∀ u ∈ outer.head?, g.Edge u.node v.node) ∧ Nested g s.unvisited outer below := by
  have hnested := h.nested
  rw [hvisits] at hnested
  generalize s.stack = stack at hnested
  cases hnested with
  | cons fits edge nested => exact ⟨_, _, rfl, fits, edge, nested⟩

theorem Sound.follow {pending : List String} (hvisits : s.visits = v :: outer)
    (hpending : v.pending = w :: pending) :
    Sound g (s.follow g.next v outer w pending) := by
  obtain ⟨above, below, hstack, fits, edge, nested⟩ := h.exists_segment hvisits
  have hnext : w ∈ g.next v.node := fits.pending w (hpending ▸ List.mem_cons_self)
  have hnode : v.node ∈ g.nodes := h.mem_nodes_iff.2 (.inl (.inr (by simp [hstack])))
  have hbelow : ∀ x ∈ below, x ∈ s.stack :=
    fun x hx => hstack ▸ List.mem_append_right _ (.tail _ hx)
  unfold Walk.follow
  simp only
  -- The edge leads to a node that was never entered, to one on the stack, or to a complete component.
  split
  · rename_i hw
    have hedge : g.Edge v.node w := ⟨hnode, h.mem_nodes_iff.2 (.inl (.inl hw)), hnext⟩
    refine h.enter hw (fun x hx => .inr (h.starts x hx)) ?_ (by simpa using hedge)
    rw [hstack]
    -- The node being entered is not below the one that it is entered from.
    have haccounts : Accounts (s.unvisited.erase w) below v.low w :=
      ⟨h.nodup_unvisited.not_mem_erase, fun n hn => absurd (hbelow _ hn) (h.not_mem_stack hw n)⟩
    exact .cons ((fits.mono fun _ => List.mem_of_mem_erase).next hpending haccounts) edge
      (nested.mono fun _ => List.mem_of_mem_erase)
  rename_i hw
  split
  · rename_i number hlookup
    have hmem : (w, number) ∈ s.stack := by
      obtain ⟨l, r, hlr, -⟩ := List.lookup_eq_some_iff.1 hlookup
      simp [hlr]
    have hedge : g.Edge v.node w :=
      ⟨hnode, h.mem_nodes_iff.2 (.inl (.inr (List.mem_map_of_mem hmem))), hnext⟩
    have hunique : ∀ n, (w, n) ∈ below → n = number := fun n hn =>
      congrArg Prod.snd (List.inj_on_of_nodup_map h.nodup_stack (hbelow _ hn) hmem rfl)
    refine { h with nested := ?_ }
    simp only [hstack, Walk.lower]
    refine .cons ((fits.lower (hstack ▸ h.numbers) (hstack ▸ hmem) hedge).next hpending
      ⟨hw, fun n hn => ?_⟩) edge nested
    rw [hunique n hn]
    exact Nat.min_le_right _ _
  · rename_i hlookup
    refine { h with nested := ?_ }
    simp only [hstack]
    refine .cons (fits.next hpending ⟨hw, fun n hn => ?_⟩) edge nested
    have hne := List.lookup_eq_none_iff.1 hlookup _ (hbelow _ hn)
    simp at hne

/-- The end of a visit that knows a lower number than its own. -/
theorem Sound.leave_of_lt (hvisits : s.visits = v :: outer) (hpending : v.pending = [])
    (hlow : v.low < v.number) : Sound g (s.leave v outer) := by
  obtain ⟨above, below, hstack, fits, edge, nested⟩ := h.exists_segment hvisits
  obtain ⟨x, hx, hleads⟩ := fits.lowest hlow
  rw [Walk.leave, if_neg (Nat.ne_of_lt hlow)]
  refine { h with nested := ?_ }
  have hnumbers := (List.pairwise_append.1 (hstack ▸ h.numbers)).2.1.tail
  simp only [hstack]
  -- The lower number is that of a node below, so there is a visit around this one.
  cases nested with
  | nil => simp at hx
  | @cons u outer above' below' fits' edge' nested' =>
    have hback := hleads.trans (Nested.leads_innermost (.cons fits' edge' nested') _ hx)
    have hmerge := Fits.merge hpending fits fits' (edge u rfl) hback hnumbers hlow
    have hcons := Nested.cons hmerge edge' nested'
    rwa [List.append_assoc, List.cons_append] at hcons

/-- What the end of the visit to the first node of a component takes off the stack. -/
theorem Sound.split_stack (hstack : s.stack = above ++ (v.node, v.number) :: below) :
    s.stack.takeWhile (·.1 != v.node) = above ∧
      (s.stack.dropWhile (·.1 != v.node)).drop 1 = below := by
  have habove : ∀ x ∈ above, (x.1 != v.node) = true := by
    intro x hx
    have hnodes := h.nodup_stack
    rw [hstack, List.map_append, List.nodup_append] at hnodes
    exact bne_iff_ne.2 (hnodes.2.2 x.1 (List.mem_map_of_mem hx) v.node (by simp))
  rw [hstack, List.takeWhile_append_of_pos habove, List.dropWhile_append_of_pos habove]
  simp

/-- Where no lower number is known, edges lead out of the segment only to complete components. -/
theorem Sound.edge_segment (hstack : s.stack = above ++ (v.node, v.number) :: below)
    (fits : Fits g s.unvisited v above below) (hpending : v.pending = [])
    (hlow : v.low = v.number) : ∀ x ∈ above.map (·.1) ++ [v.node], ∀ w, g.Edge x w →
      w ∈ above.map (·.1) ++ [v.node] ∨ w ∈ s.components.flatten := by
  intro x hx w hw
  obtain ⟨hunvisited, hlowest⟩ := fits.accounts hpending x hx w hw
  by_cases hwstack : w ∈ s.stack.map (·.1)
  · obtain ⟨⟨w, n⟩, hmem, rfl⟩ := List.mem_map.1 hwstack
    have hnumbers := h.numbers
    rw [hstack] at hmem hnumbers
    rcases List.mem_append.1 hmem with hmem | hmem
    · exact .inl (List.mem_append_left _ (List.mem_map_of_mem hmem))
    rcases List.mem_cons.1 hmem with heq | hmem
    · exact .inl (List.mem_append_right _ (List.mem_singleton.2 (congrArg Prod.fst heq)))
    · have hlt : n < v.number := number_lt_of_mem_below hnumbers _ hmem
      have hle := hlowest n hmem
      omega
  · exact .inr (h.mem_done hw.2.1 hunvisited hwstack)

/-- A segment that no edge leads out of but to complete components is a component. -/
theorem Sound.complete (hstack : s.stack = above ++ (v.node, v.number) :: below)
    (fits : Fits g s.unvisited v above below) (nested : Nested g s.unvisited outer below)
    (hedge : ∀ x ∈ above.map (·.1) ++ [v.node], ∀ w, g.Edge x w →
      w ∈ above.map (·.1) ++ [v.node] ∨ w ∈ s.components.flatten) :
    Sound g { s with
      visits := outer
      stack := below
      components := s.components ++ [above.map (·.1) ++ [v.node]] } where
  starts := h.starts
  perm := by
    refine List.Perm.trans ?_ h.perm
    have hswap : (below.map (·.1) ++ s.components.flatten ++ (above.map (·.1) ++ [v.node])).Perm
        (above.map (·.1) ++ [v.node] ++ (below.map (·.1) ++ s.components.flatten)) :=
      List.perm_append_comm
    simpa [hstack] using hswap.append_left s.unvisited
  numbers := (List.pairwise_append.1 (hstack ▸ h.numbers)).2.1.tail
  entered x hx := h.entered x (hstack ▸ List.mem_append_right _ (.tail _ hx))
  nested := nested
  closed x hx w hw := by
    rw [List.flatten_append, List.flatten_singleton] at hx ⊢
    rcases List.mem_append.1 hx with hx | hx
    · exact List.mem_append_left _ (h.closed x hx w hw)
    · exact List.mem_append.2 (hedge x hx w hw).symm
  component c hc := by
    rcases List.mem_append.1 hc with hc | hc
    · exact h.component c hc
    obtain rfl := List.mem_singleton.1 hc
    have hdisjoint : v.node ∉ s.components.flatten := fun hdone =>
      (List.nodup_append.1 h.nodup).2.2 v.node (by simp [hstack]) v.node hdone rfl
    exact ⟨by simp, mem_iff_of_closed fits.leads_segment h.closed hedge hdisjoint⟩

/-- The end of the visit to the first node of a component. -/
theorem Sound.leave_of_eq (hvisits : s.visits = v :: outer) (hpending : v.pending = [])
    (hlow : v.low = v.number) : Sound g (s.leave v outer) := by
  obtain ⟨above, below, hstack, fits, -, nested⟩ := h.exists_segment hvisits
  have hcomplete := h.complete hstack fits nested (h.edge_segment hstack fits hpending hlow)
  have hlower : Walk.lower v.low outer = outer := by
    cases nested with
    | nil => rfl
    | @cons u outer above' below' fits' =>
      have hnumbers := h.numbers
      rw [hstack] at hnumbers
      have hlt : u.number < v.number := number_lt_of_mem_below hnumbers (u.node, u.number) (by simp)
      have hle := fits'.low_le
      rw [Walk.lower, Nat.min_eq_left (by omega)]
  rw [Walk.leave, if_pos hlow, (h.split_stack hstack).1, (h.split_stack hstack).2, hlower]
  exact hcomplete

end Innermost

/-- Every step keeps the walk sound. -/
theorem sound_step (h : Sound g s) (hstep : s.step g.next = some t) : Sound g t := by
  unfold step at hstep
  split at hstep
  · rename_i hvisits
    split at hstep
    · cases hstep
    · rename_i v starts hstarts
      obtain rfl := Option.some.inj hstep
      split
      · rename_i hv
        refine h.enter hv (fun w hw => ?_) ?_ (by simp [hvisits])
        · exact List.mem_cons.1 (hstarts ▸ h.starts w hw)
        · exact h.nested.mono fun _ => List.mem_of_mem_erase
      · exact h.start hstarts ‹_›
  · rename_i v outer hvisits
    split at hstep
    · rename_i hpending
      obtain rfl := Option.some.inj hstep
      obtain ⟨above, below, -, fits, -, -⟩ := h.exists_segment hvisits
      rcases Nat.lt_or_eq_of_le fits.low_le with hlow | hlow
      · exact h.leave_of_lt hvisits hpending hlow
      · exact h.leave_of_eq hvisits hpending hlow
    · rename_i w pending hpending
      obtain rfl := Option.some.inj hstep
      exact h.follow hvisits hpending

theorem sound_ofNodes (g : Digraph) : Sound g (ofNodes g.nodes) where
  starts _ := List.mem_eraseDups.1
  perm := by simp [ofNodes]
  numbers := .nil
  entered := by simp [ofNodes]
  nested := .nil
  closed := by simp [ofNodes]
  component := by simp [ofNodes]

/-- A whole walk is sound, and no step is left at its end. -/
theorem sound_finish (h : Sound g s) :
    Sound g (s.finish g.next) ∧ (s.finish g.next).step g.next = none := by
  induction s using finish.induct g.next with
  | case1 s hstep =>
    rw [finish]
    split
    · exact ⟨h, hstep⟩
    · rename_i heq
      exact absurd (heq.symm.trans hstep) (by simp)
  | case2 s t hstep ih =>
    rw [finish]
    split
    · rename_i heq
      exact absurd (heq.symm.trans hstep) (by simp)
    · rename_i t' heq
      obtain rfl := Option.some.inj (heq.symm.trans hstep)
      exact ih (sound_step h hstep)

theorem eq_nil_of_step (h : s.step g.next = none) : s.visits = [] ∧ s.starts = [] := by
  unfold step at h
  split at h
  · split at h
    · exact ⟨‹_›, ‹_›⟩
    · cases h
  · split at h <;> cases h

end Walk

/-! ## The components -/

variable {g : Digraph} {c : List String} {v w : String}

/-- The components hold every node once. -/
theorem components_perm (g : Digraph) : g.components.flatten.Perm g.nodes.eraseDups := by
  obtain ⟨hsound, hend⟩ := Walk.sound_finish (Walk.sound_ofNodes g)
  obtain ⟨hvisits, hstarts⟩ := Walk.eq_nil_of_step hend
  have hunvisited := List.eq_nil_iff_forall_not_mem.2 fun v hv => by
    simpa [hstarts] using hsound.starts v hv
  have hstack : ((Walk.ofNodes g.nodes).finish g.next).stack = [] := by
    have hnested := hsound.nested
    rw [hvisits] at hnested
    generalize ((Walk.ofNodes g.nodes).finish g.next).stack = stack at hnested
    cases hnested
    rfl
  have hperm := hsound.perm
  rwa [hunvisited, hstack, List.map_nil, List.append_nil, List.nil_append] at hperm

theorem nodup_components (g : Digraph) : g.components.flatten.Nodup :=
  (components_perm g).nodup_iff.2 (nodup_eraseDups _)

theorem ne_nil_of_mem_components (hc : c ∈ g.components) : c ≠ [] :=
  ((Walk.sound_finish (Walk.sound_ofNodes g)).1.component c hc).1

/-- The nodes of a component are those that edges lead to from one of them and back. -/
theorem mem_component_iff (hc : c ∈ g.components) (hv : v ∈ c) :
    w ∈ c ↔ g.Leads v w ∧ g.Leads w v :=
  ((Walk.sound_finish (Walk.sound_ofNodes g)).1.component c hc).2 v hv w

theorem exists_component (hv : v ∈ g.nodes) : ∃ c ∈ g.components, v ∈ c :=
  List.mem_flatten.1 ((components_perm g).mem_iff.2 (List.mem_eraseDups.2 hv))

/-- Two nodes share a component when edges lead from each to the other. -/
theorem share_component_iff (hv : v ∈ g.nodes) :
    (∃ c ∈ g.components, v ∈ c ∧ w ∈ c) ↔ g.Leads v w ∧ g.Leads w v := by
  constructor
  · rintro ⟨c, hc, hvc, hwc⟩
    exact (mem_component_iff hc hvc).1 hwc
  · intro hleads
    obtain ⟨c, hc, hvc⟩ := exists_component hv
    exact ⟨c, hc, hvc, (mem_component_iff hc hvc).2 hleads⟩

/-- A component is cyclic when a cycle runs through one of its nodes, and then through each. -/
theorem isCyclic_iff (hc : c ∈ g.components) (hv : v ∈ c) :
    g.isCyclic c = true ↔ TransGen g.Edge v v := by
  have hnodup : c.Nodup := (List.nodup_flatten.1 (nodup_components g)).1 c hc
  have hnodes : ∀ u ∈ c, u ∈ g.nodes := fun u hu =>
    List.mem_eraseDups.1 ((components_perm g).mem_iff.1 (List.mem_flatten_of_mem hc hu))
  have hcycle : ∀ {u w}, u ∈ c → w ∈ c → TransGen g.Edge u w → TransGen g.Edge v v := by
    intro u w hu hw huw
    have hvu := ((mem_component_iff hc hv).1 hu).1
    have hwv := ((mem_component_iff hc hv).1 hw).2
    exact (TransGen.trans_right hvu huw).trans_left hwv
  have hfirst : TransGen g.Edge v v → ∃ u ∈ c, g.Edge v u := by
    intro h
    obtain ⟨u, hedge, hback⟩ := TransGen.head'_iff.1 h
    exact ⟨u, (mem_component_iff hc hv).2 ⟨.single hedge, hback⟩, hedge⟩
  rcases c with _ | ⟨a, _ | ⟨b, rest⟩⟩
  · exact absurd hv List.not_mem_nil
  · have hself : g.isCyclic [a] = true ↔ a ∈ g.next a := by simp [isCyclic]
    rw [hself]
    constructor
    · intro h
      have ha := hnodes a List.mem_cons_self
      exact hcycle List.mem_cons_self List.mem_cons_self (.single ⟨ha, ha, h⟩)
    · intro h
      obtain ⟨u, hu, hedge⟩ := hfirst h
      obtain rfl := List.mem_singleton.1 hv
      obtain rfl := List.mem_singleton.1 hu
      exact hedge.2.2
  · have hmany : g.isCyclic (a :: b :: rest) = true := by simp [isCyclic]
    have hb : b ∈ a :: b :: rest := .tail _ List.mem_cons_self
    have hab : a ≠ b := fun heq => (List.nodup_cons.1 hnodup).1 (heq ▸ List.mem_cons_self)
    refine iff_of_true hmany (hcycle List.mem_cons_self hb ?_)
    have hleads := ((mem_component_iff hc List.mem_cons_self).1 hb).1
    exact (Relation.reflTransGen_iff_eq_or_transGen.1 hleads).resolve_left hab.symm

/-- Two nodes share a cyclic component when a closed path runs through both. -/
theorem share_cyclic_iff :
    (∃ c ∈ g.components, g.isCyclic c = true ∧ v ∈ c ∧ w ∈ c) ↔
      TransGen g.Edge v w ∧ TransGen g.Edge w v := by
  constructor
  · rintro ⟨c, hc, hcyclic, hv, hw⟩
    have hcycle := (isCyclic_iff hc hv).1 hcyclic
    obtain ⟨hvw, hwv⟩ := (mem_component_iff hc hv).1 hw
    exact ⟨hcycle.trans_left hvw, TransGen.trans_right hwv hcycle⟩
  · rintro ⟨hvw, hwv⟩
    obtain ⟨_, hedge, -⟩ := TransGen.head'_iff.1 hvw
    obtain ⟨c, hc, hv⟩ := exists_component hedge.1
    refine ⟨c, hc, (isCyclic_iff hc hv).2 (hvw.trans hwv), hv, ?_⟩
    exact (mem_component_iff hc hv).2 ⟨hvw.to_reflTransGen, hwv.to_reflTransGen⟩

/-- The nodes of the cyclic components are those that a closed path runs through. -/
theorem mem_cyclic_iff : v ∈ (g.components.filter g.isCyclic).flatten ↔ TransGen g.Edge v v := by
  rw [← and_self_iff (a := TransGen g.Edge v v), ← share_cyclic_iff]
  simp only [List.mem_flatten, List.mem_filter, and_self, and_assoc]

end Digraph

end Crossing
