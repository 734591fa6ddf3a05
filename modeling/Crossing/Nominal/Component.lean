/-!
# Components of a finite graph

Two nodes are in one component when edges lead from each to the other. `components` finds all of
them in a single walk. Nodes are numbered in the order in which they are entered, and each stays on
a stack until its component is complete. A node under visit keeps the lowest number on the stack
that edges from it are known to lead to. When no number is lower than its own at the end of the
visit, it is the first node of its component, and the rest of the component is above it on the
stack.
-/

namespace Crossing

/-- A graph on some names. -/
structure Digraph where
  nodes : List String
  next : String → List String

namespace Digraph

/-- A visit that is not over. -/
structure Visit where
  node : String
  number : Nat
  /-- The lowest number on the stack that edges are known to lead to. -/
  low : Nat
  /-- Where the edges lead that were not followed yet. -/
  pending : List String

/-- The state of a walk. -/
structure Walk where
  /-- The nodes to start from. -/
  starts : List String
  unvisited : List String
  /-- The number of nodes that were entered. -/
  entered : Nat
  /-- The visits that are not over, the innermost first. -/
  visits : List Visit
  /-- The nodes whose components are not complete with their numbers, the latest first. -/
  stack : List (String × Nat)
  components : List (List String)

namespace Walk

/-- Begins to visit a node. -/
def enter (next : String → List String) (s : Walk) (v : String) : Walk :=
  { s with
    unvisited := s.unvisited.erase v
    entered := s.entered + 1
    visits := ⟨v, s.entered, s.entered, next v⟩ :: s.visits
    stack := (v, s.entered) :: s.stack }

/-- The visits when the innermost one is told of a number on the stack. -/
def lower (low : Nat) : List Visit → List Visit
  | [] => []
  | v :: outer => { v with low := min v.low low } :: outer

/-- Follows an edge of the innermost visit. -/
def follow (next : String → List String) (s : Walk) (v : Visit) (outer : List Visit) (w : String)
    (pending : List String) : Walk :=
  let s := { s with visits := { v with pending } :: outer }
  if w ∈ s.unvisited then s.enter next w
  else match s.stack.lookup w with
    | some number => { s with visits := lower number s.visits }
    | none => s

/-- Ends the innermost visit. -/
def leave (s : Walk) (v : Visit) (outer : List Visit) : Walk :=
  let s := { s with visits := lower v.low outer }
  if v.low = v.number then
    { s with
      components := s.components ++ [(s.stack.takeWhile (·.1 != v.node)).map (·.1) ++ [v.node]]
      stack := (s.stack.dropWhile (·.1 != v.node)).drop 1 }
  else s

/-- The next step of a walk; none at its end. -/
def step (next : String → List String) (s : Walk) : Option Walk :=
  match s.visits with
  | [] =>
    match s.starts with
    | [] => none
    | v :: starts =>
      let s := { s with starts }
      some (if v ∈ s.unvisited then s.enter next v else s)
  | v :: outer =>
    match v.pending with
    | [] => some (s.leave v outer)
    | w :: pending => some (s.follow next v outer w pending)

/-- The number of steps that are certain before another node is entered. -/
def ahead (s : Walk) : Nat :=
  s.starts.length + s.visits.length + (s.visits.flatMap (·.pending)).length

theorem pending_lower (low : Nat) (visits : List Visit) :
    (lower low visits).length = visits.length ∧
      (lower low visits).flatMap (·.pending) = visits.flatMap (·.pending) := by
  cases visits with
  | nil => exact ⟨rfl, rfl⟩
  | cons v outer => exact ⟨rfl, rfl⟩

/-- A step takes a node out of those that are not visited, or it is one of those ahead. -/
theorem lt_of_step {next : String → List String} {s t : Walk} (h : s.step next = some t) :
    Prod.Lex (· < ·) (· < ·) (t.unvisited.length, t.ahead) (s.unvisited.length, s.ahead) := by
  have henter : ∀ {u : Walk} {v : String}, v ∈ u.unvisited →
      (u.enter next v).unvisited.length < u.unvisited.length := by
    intro u v hv
    have hlen := List.length_erase_of_mem hv
    have hpos := List.length_pos_of_mem hv
    simp only [enter]
    omega
  unfold step at h
  split at h
  · split at h
    · cases h
    · rename_i hvisits _ v starts hstarts
      obtain rfl := Option.some.inj h
      split
      · exact Prod.Lex.left _ _ (henter ‹_›)
      · exact Prod.Lex.right _ (by simp [ahead, hvisits, hstarts])
  · rename_i v outer hvisits
    split at h
    · rename_i hpending
      obtain rfl := Option.some.inj h
      have hahead : (s.leave v outer).ahead < s.ahead := by
        obtain ⟨hlength, hsame⟩ := pending_lower v.low outer
        unfold leave ahead
        split <;> simp [hvisits, hpending, hlength, hsame]
      have hunvisited : (s.leave v outer).unvisited = s.unvisited := by
        unfold leave
        split <;> rfl
      rw [hunvisited]
      exact Prod.Lex.right _ hahead
    · rename_i w pending hpending
      obtain rfl := Option.some.inj h
      unfold follow
      simp only
      split
      · exact Prod.Lex.left _ _ (henter ‹_›)
      · split <;> exact Prod.Lex.right _ (by simp [ahead, lower, hvisits, hpending])

/-- The end of a walk. -/
def finish (next : String → List String) (s : Walk) : Walk :=
  match _h : s.step next with
  | none => s
  | some t => finish next t
termination_by (s.unvisited.length, s.ahead)
decreasing_by exact lt_of_step _h

/-- A walk that has not begun. -/
def ofNodes (nodes : List String) : Walk where
  starts := nodes
  unvisited := nodes.eraseDups
  entered := 0
  visits := []
  stack := []
  components := []

end Walk

/-- The components, in the order in which the walk completes them. -/
def components (g : Digraph) : List (List String) :=
  ((Walk.ofNodes g.nodes).finish g.next).components

/-- Whether a cycle runs through a component: it has several nodes, or an edge from its node leads
to the node itself. -/
def isCyclic (g : Digraph) (component : List String) : Bool :=
  decide (1 < component.length) || component.head?.any fun v => (g.next v).contains v

end Digraph

end Crossing
