import Crossing.Nominal.Component
import Crossing.Nominal.Index
import Crossing.TypeExpr.Name

/-!
# How nominal types depend on each other

The mentions of nominal types in a declaration, with the innermost indirection that each stands
behind, and from them which types are recursive. Aliases are seen through: an alias inside its own
target is not opened twice. Mentions of the same component are where the builder cuts a recursive
type, and a cycle of mentions by value makes a type of infinite size.
-/

namespace Crossing

/-- The innermost indirection that a mention stands behind. -/
inductive Via where
  | value
  | pointer
  | sequence
  | function
  deriving DecidableEq

namespace TypeExpr

/-- The indirection that the arguments of a path stand behind, when the path does behind `via`. -/
def argumentVia (via : Via) (t : TypeExpr) : Via :=
  match t.standardName? with
  | some name =>
    if ["Box", "Arc", "Rc"].contains name then .pointer
    else if name == "Vec" then .sequence else via
  | none => via

/-- The arguments and results of segments. -/
def segmentTypes (segments : List (Segment TypeExpr)) : List TypeExpr :=
  segments.flatMap fun s => s.args ++ s.ret.toList

/-- The types directly inside a type that stands behind `via`, with their own indirections. -/
def inside (via : Via) : TypeExpr → List (Via × TypeExpr)
  | .path ss => (args (.path ss)).map (argumentVia via (.path ss), ·)
  | .reference _ _ t => [(.pointer, t)]
  | .pointer _ t => [(.pointer, t)]
  | .slice t => [(.sequence, t)]
  | .array t _ => [(via, t)]
  | .tuple ts => ts.map (via, ·)
  | .function _ _ ps r => (ps ++ r.toList).map (.function, ·)
  | .bounded _ bounds _ => (bounds.flatMap segmentTypes).map (.function, ·)
  | .never | .infer | .macroCall _ | .unparsed _ => []

theorem sizeOf_segmentTypes_lt {ss : List (Segment TypeExpr)} {t : TypeExpr}
    (h : t ∈ segmentTypes ss) : sizeOf t < sizeOf ss := by
  obtain ⟨s, hs, ht⟩ := List.mem_flatMap.1 h
  have hlt := List.sizeOf_lt_of_mem hs
  have : sizeOf t < sizeOf s := by
    rcases List.mem_append.1 ht with ht | ht <;> cases s with
    | plain n ts ls cs =>
      first
        | (have hlt := List.sizeOf_lt_of_mem ht
           simp only [Segment.args, Segment.plain.sizeOf_spec] at *; omega)
        | simp [Segment.ret] at ht
    | call n ts r =>
      first
        | (have hlt := List.sizeOf_lt_of_mem ht
           simp only [Segment.args, Segment.call.sizeOf_spec] at *; omega)
        | (have hr : r = some t := by simpa [Segment.ret] using ht
           subst hr
           simp only [Segment.call.sizeOf_spec, Option.some.sizeOf_spec]; omega)
  omega

/-- What is inside a type is smaller than the type. -/
theorem sizeOf_inside_lt {via v : Via} {e t : TypeExpr} (h : (v, t) ∈ inside via e) :
    sizeOf t < sizeOf e := by
  cases e with
  | path ss =>
    simp only [inside, List.mem_map, Prod.mk.injEq] at h
    obtain ⟨u, hu, -, rfl⟩ := h
    unfold args segments at hu
    simp only at hu
    split at hu
    · rename_i s hs
      have hmem : u ∈ segmentTypes ss :=
        List.mem_flatMap.2 ⟨s, List.mem_of_getLast? hs, List.mem_append_left _ hu⟩
      have := sizeOf_segmentTypes_lt hmem
      simp only [path.sizeOf_spec]
      omega
    · simp at hu
  | tuple ts =>
    simp only [inside, List.mem_map, Prod.mk.injEq] at h
    obtain ⟨u, hu, -, rfl⟩ := h
    have := List.sizeOf_lt_of_mem hu
    simp only [tuple.sizeOf_spec]
    omega
  | function u a ps r =>
    simp only [inside, List.mem_map, Prod.mk.injEq, List.mem_append, Option.mem_toList] at h
    obtain ⟨u, hu, -, rfl⟩ := h
    rcases hu with hu | hu
    · have := List.sizeOf_lt_of_mem hu
      simp only [function.sizeOf_spec]
      omega
    · subst hu
      simp only [function.sizeOf_spec, Option.some.sizeOf_spec]
      omega
  | bounded k bs ls =>
    simp only [inside, List.mem_map, Prod.mk.injEq, List.mem_flatMap] at h
    obtain ⟨u, ⟨b, hb, hu⟩, -, rfl⟩ := h
    have := sizeOf_segmentTypes_lt hu
    have := List.sizeOf_lt_of_mem hb
    simp only [bounded.sizeOf_spec]
    omega
  | reference l m t' =>
    simp only [inside, List.mem_singleton, Prod.mk.injEq] at h
    obtain ⟨-, rfl⟩ := h
    simp only [reference.sizeOf_spec]
    omega
  | pointer m t' =>
    simp only [inside, List.mem_singleton, Prod.mk.injEq] at h
    obtain ⟨-, rfl⟩ := h
    simp only [pointer.sizeOf_spec]
    omega
  | slice t' =>
    simp only [inside, List.mem_singleton, Prod.mk.injEq] at h
    obtain ⟨-, rfl⟩ := h
    simp only [slice.sizeOf_spec]
    omega
  | array t' n =>
    simp only [inside, List.mem_singleton, Prod.mk.injEq] at h
    obtain ⟨-, rfl⟩ := h
    simp only [array.sizeOf_spec]
    omega
  | never => simp [inside] at h
  | infer => simp [inside] at h
  | macroCall s => simp [inside] at h
  | unparsed s => simp [inside] at h

end TypeExpr

namespace NominalIndex

/-- The nominal types that a type mentions from a scope, behind `via` and with their
indirections. Only the aliases in `unopened` are seen through. -/
def mentions (index : NominalIndex) (unopened scope : List String) (via : Via) (t : TypeExpr) :
    List (String × Via) :=
  (match (index.resolve t.names scope).nominal? with
    | none => []
    | some n =>
      match n.aliasTarget? with
      | none => [(n.name, via)]
      | some target =>
        if n.name ∈ unopened then
          index.mentions (unopened.erase n.name) n.scope via target
        else [])
    ++ (t.inside via).attach.flatMap fun ⟨(v, u), _⟩ => index.mentions unopened scope v u
termination_by (unopened.length, sizeOf t)
decreasing_by
  · have hn : n.name ∈ unopened := ‹_›
    have hlen := List.length_erase_of_mem hn
    have hpos := List.length_pos_of_mem hn
    exact Prod.Lex.left _ _ (by omega)
  · exact Prod.Lex.right _ (TypeExpr.sizeOf_inside_lt ‹_›)

/-- The nominal types that a declaration mentions. -/
def edges (index : NominalIndex) (n : Nominal) : List (String × Via) :=
  n.types.flatMap (index.mentions index.aliases n.scope .value)

end NominalIndex

/-- A component of nominal types, and whether a cycle runs through it. -/
structure NominalComponent where
  members : List String
  isRecursive : Bool
  deriving DecidableEq

/-- The components of the structs and enumerations of an index, and those that lie on a cycle of
mentions by value. -/
structure NominalGraph where
  components : List NominalComponent
  valueCyclic : List String

namespace NominalGraph

/-- The targets of a node in a list of edges. -/
def targets (edges : List (String × List (String × Via))) (keep : Via → Bool) (v : String) :
    List String :=
  match edges.lookup v with
  | some out => (out.filter fun (_, via) => keep via).map (·.1)
  | none => []

def ofIndex (index : NominalIndex) : NominalGraph :=
  let nominals := index.nominals.filter fun n => !n.isAlias
  let nodes := nominals.map (·.name)
  let edges := nominals.map fun n => (n.name, index.edges n)
  let all : Digraph := ⟨nodes, targets edges fun _ => true⟩
  let byValue : Digraph := ⟨nodes, targets edges (· = .value)⟩
  { components := all.components.map fun members => ⟨members, all.isCyclic members⟩
    valueCyclic := (byValue.components.filter byValue.isCyclic).flatten }

/-- Whether a nominal type is in a recursive component. -/
def isRecursive (g : NominalGraph) (name : String) : Bool :=
  g.components.any fun c => c.isRecursive && c.members.contains name

/-- Whether two nominal types are in one recursive component. -/
def sameRecursive (g : NominalGraph) (a b : String) : Bool :=
  g.components.any fun c => c.isRecursive && c.members.contains a && c.members.contains b

end NominalGraph

/-- The nominal types that are only handed out as handles somewhere: the recursive ones and those
with private fields, in the order of their declaration. -/
def NominalIndex.handled (index : NominalIndex) (g : NominalGraph) : List String :=
  (index.nominals.filter fun n =>
    !n.isAlias && (g.isRecursive n.name || n.hasPrivateFields)).map (·.name)

end Crossing
