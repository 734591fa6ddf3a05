import Crossing.InterfaceType.Graph
import Mathlib.Logic.Relation

/-!
# The parts of a type

A type is taken apart into its direct parts, whatever its variant, so that one induction
(`parts_induction`) serves for all of them. A type `Contains` what lies anywhere inside it, behind
pointers and in signatures too; it `Places` what its values hold in their own memory.
-/

namespace Crossing.InterfaceType

theorem sizeOf_part_lt {t u : InterfaceType} (h : u ∈ t.parts) : sizeOf u < sizeOf t :=
  Nat.lt_of_le_of_lt (sizeOf_le_totalSize h) (totalSize_parts_lt t)

/-- What holds of a type when it holds of its parts holds of every type. -/
theorem parts_induction {P : InterfaceType → Prop} (h : ∀ t, (∀ u ∈ t.parts, P u) → P t)
    (t : InterfaceType) : P t :=
  h t fun u _ => parts_induction h u
termination_by sizeOf t
decreasing_by exact sizeOf_part_lt ‹_›

section Parts

@[simp]
theorem parts_primitive (k : PrimitiveKind) (b : Int) (s : Bool) : (primitive k b s).parts = [] :=
  rfl

@[simp]
theorem parts_pointer (t : InterfaceType) (n : Bool) (h : Holding) (m : Bool) :
    (pointer t n h m).parts = [t] := rfl

@[simp]
theorem parts_buffer (t : InterfaceType) (h : Holding) : (buffer t h).parts = [t] := rfl

@[simp]
theorem parts_array (t : InterfaceType) (h : Holding) (n : Int) : (array t h n).parts = [t] := rfl

@[simp]
theorem parts_text (c : TextEncoding) (h : Holding) : (text c h).parts = [] := rfl

@[simp]
theorem parts_record (name : String) (fs : List (Field InterfaceType)) :
    (record name fs).parts = fs.map (·.type) := by
  simp [parts, children, Function.comp_def]

@[simp]
theorem parts_taggedUnion (name : String) (vs : List (Variant InterfaceType)) :
    (taggedUnion name vs).parts = vs.flatMap fun v => v.fields.map (·.type) := by
  simp [parts, children, List.map_flatMap, Function.comp_def]

@[simp]
theorem parts_function (ps : List InterfaceType) (r : InterfaceType) (f : Failure InterfaceType)
    (h : Holding) :
    (function ps r f h).parts = ps ++ r :: (failureParts f).map (·.2) := by
  simp [parts, children, map_snd_numbered]

@[simp]
theorem parts_handle (n : Int) (s : String) : (handle n s).parts = [] := rfl

end Parts

/-- `t.Contains u`: `u` is `t` or lies somewhere inside it. -/
def Contains : InterfaceType → InterfaceType → Prop :=
  Relation.ReflTransGen fun t u => u ∈ t.parts

theorem contains_iff {t u : InterfaceType} : t.Contains u ↔ u = t ∨ ∃ p ∈ t.parts, p.Contains u := by
  unfold Contains
  rw [Relation.ReflTransGen.cases_head_iff, eq_comm]

theorem mem_postorder {t u : InterfaceType} : u ∈ t.postorder ↔ t.Contains u := by
  induction t using parts_induction with
  | h t ih =>
    rw [postorder, List.mem_append, List.mem_singleton, contains_iff, or_comm]
    simp only [List.mem_flatMap, List.mem_attach, true_and, Subtype.exists]
    exact or_congr_right (exists_congr fun p =>
      ⟨fun ⟨hp, hu⟩ => ⟨hp, (ih p hp).1 hu⟩, fun ⟨hp, hu⟩ => ⟨hp, (ih p hp).2 hu⟩⟩)

/-- The parts that a value holds in its own memory. -/
def placed : InterfaceType → List InterfaceType
  | .array e _ _ => [e]
  | .record _ fs => fs.map (·.type)
  | .taggedUnion _ vs => vs.flatMap fun v => v.fields.map (·.type)
  | _ => []

theorem mem_parts_of_mem_placed {t u : InterfaceType} (h : u ∈ t.placed) : u ∈ t.parts := by
  cases t <;> simp_all [placed]

/-- `t.Places u`: a value of `t` holds one of `u` in its own memory, or `u` is `t`. -/
def Places : InterfaceType → InterfaceType → Prop :=
  Relation.ReflTransGen fun t u => u ∈ t.placed

end Crossing.InterfaceType
