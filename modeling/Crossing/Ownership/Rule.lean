import Crossing.InterfaceType.Graph
import Crossing.Ownership.Resource
import Crossing.Ownership.Slot

/-!
# Who owns the value of a slot

The mode of a slot follows from how the native side holds the value and from how the slot is
reached: at a position of its own, behind a reference that only lends, or inside a value that is
transferred. What is owned is transferred in the direction of the position, references are lent,
counted pointers are shared. A raw pointer says nothing about its owner: where it is not lent by its
position, it needs a hint.
-/

namespace Crossing

/-- How a slot is reached. -/
inductive Reach where
  | position
  /-- Behind a reference that lends what is behind it. -/
  | view
  /-- Inside a value that is transferred. -/
  | transfer (mode : OwnershipMode)
  deriving DecidableEq

structure Standing where
  reach : Reach
  role : Role
  deriving DecidableEq

namespace InterfaceType

def Misheld.message : Misheld → String
  | .holding t | .resources t => "`" ++ t.render ++ "` is optional without being a pointer"

/-- How a value is held as a whole. An optional value whose contents borrow is as good as a
reference. -/
def effectiveHolding : InterfaceType → Except Misheld Holding
  | .pointer target _ .optional _ => .ok (if target.borrows then .borrowed else .optional)
  | t => if t.holding = .optional then .error (.holding t) else .ok t.holding

end InterfaceType

/-- The mode of a slot, or why there is none. -/
inductive ModeVerdict where
  | mode (mode : OwnershipMode)
  /-- A raw pointer takes the mode of its hint. -/
  | hinted (mode : OwnershipMode)
  /-- A raw pointer without a hint. -/
  | unknownOwner
  /-- A reference inside a transferred value. -/
  | lentInside (transfer : OwnershipMode)
  deriving DecidableEq

namespace Standing

/-- The mode of a plain value, which is lent when there is nothing to own. -/
def plain (t : InterfaceType) (transfer : OwnershipMode) :
    Except InterfaceType.Misheld ModeVerdict :=
  t.ownsResources.map fun owns => .mode (if owns then transfer else .borrowed)

/-- The verdict on a type at a standing, given the hint for the slot. -/
def verdict (s : Standing) (t : InterfaceType) (hint : Option OwnershipMode) :
    Except InterfaceType.Misheld ModeVerdict := do
  match s.reach, ← t.effectiveHolding with
  | .view, _ => pure (.mode .borrowed)
  | .position, .raw =>
    match hint with
    | some m => pure (.hinted m)
    | none => pure (if s.role.lendsRaw then .mode .borrowed else .unknownOwner)
  | .transfer _, .raw =>
    match hint with
    | some m => pure (.hinted m)
    | none => pure .unknownOwner
  | _, .counted => pure (.mode .sharedCounted)
  | .transfer m, .borrowed => pure (.lentInside m)
  | .transfer m, .value => plain t m
  | .transfer m, _ => pure (.mode m)
  | .position, .borrowed => pure (.mode .borrowed)
  | .position, .value => plain t s.role.transfer
  | .position, _ => pure (.mode s.role.transfer)

/-- How the parts of a value are reached that crosses in a mode. Plain values that are lent hand
on how they are reached themselves. -/
def below (s : Standing) (t : InterfaceType) (mode : OwnershipMode) : Standing :=
  match mode with
  | .transferredIn | .transferredOut => ⟨.transfer mode, s.role⟩
  | .sharedCounted => ⟨.view, s.role⟩
  | .borrowed =>
    match s.reach with
    | .view => s
    | _ => if t.holding = .value then s else ⟨.view, s.role⟩

/-- The positions of a signature, under labels for its parameters. -/
def signature (label : Nat → String) (param ret : Role) (params : List InterfaceType)
    (returned : InterfaceType) (failure : Failure InterfaceType) :
    List (String × InterfaceType × Standing) :=
  (InterfaceType.numbered label 0 params).map (fun (l, t) => (l, t, ⟨.position, param⟩))
    ++ (("return", returned) :: InterfaceType.failureParts failure).map
      fun (l, t) => (l, t, ⟨.position, ret⟩)

/-- The parts of a value that crosses in a mode, with how they are reached. The signature of a
callback has positions of its own. -/
def parts (s : Standing) (t : InterfaceType) (mode : OwnershipMode) :
    List (String × InterfaceType × Standing) :=
  match t with
  | .function params ret failure _ =>
    signature (fun i => "arg" ++ toString i) .callbackParameter .callbackReturn params ret failure
  | t => t.children.map fun (label, u) => (label, u, s.below t mode)

/-- The parts are those of the type. -/
theorem map_parts (s : Standing) (t : InterfaceType) (mode : OwnershipMode) :
    (s.parts t mode).map (fun p => p.2.1) = t.parts := by
  unfold parts
  split
  · simp [signature, InterfaceType.parts, InterfaceType.children, Function.comp_def]
  · simp [InterfaceType.parts, Function.comp_def]

theorem mem_parts {s : Standing} {t : InterfaceType} {mode : OwnershipMode}
    {x : String × InterfaceType × Standing} (h : x ∈ s.parts t mode) : x.2.1 ∈ t.parts := by
  rw [← s.map_parts t mode]
  exact List.mem_map.2 ⟨x, h, rfl⟩

theorem sizeOf_part_lt {s : Standing} {t u : InterfaceType} {mode : OwnershipMode} {label : String}
    {below : Standing} (h : (label, u, below) ∈ s.parts t mode) : sizeOf u < sizeOf t :=
  Nat.lt_of_le_of_lt (InterfaceType.sizeOf_le_totalSize (mem_parts h))
    (InterfaceType.totalSize_parts_lt t)

end Standing

end Crossing
