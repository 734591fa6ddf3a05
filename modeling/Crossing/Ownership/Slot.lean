import Crossing.Export.Item
import Crossing.InterfaceType.Render
import Crossing.Layout.Engine
import Crossing.Ownership.Mode

/-!
# Slots

A slot is a place inside an item where a value crosses: its type and layout, who owns the value,
and the duty that comes with that. The slots of an item form a tree along its type.
-/

namespace Crossing

/-- The position of a value in an item or in the signature of a callback. -/
inductive Role where
  | parameter
  | returned
  | declaration
  | callbackParameter
  | callbackReturn
  deriving DecidableEq, Inhabited

namespace Role

def name : Role → String
  | .parameter => "parameter"
  | .returned => "return"
  | .declaration => "declaration"
  | .callbackParameter => "callback_parameter"
  | .callbackReturn => "callback_return"

/-- The role in words. -/
def phrase : Role → String
  | .parameter => "parameter"
  | .returned => "return"
  | .declaration => "declaration"
  | .callbackParameter => "callback parameter"
  | .callbackReturn => "callback return"

/-- The direction in which an owned value crosses. -/
def transfer : Role → OwnershipMode
  | .parameter | .callbackReturn => .transferredIn
  | .returned | .declaration | .callbackParameter => .transferredOut

/-- Whether a raw pointer is lent unless something else is declared. -/
def lendsRaw : Role → Bool
  | .parameter | .declaration | .callbackParameter => true
  | .returned | .callbackReturn => false

end Role

/-- A place where a value crosses, and the places inside it. -/
structure Slot where
  label : String
  /-- The labels on the way from the item, with dots between them. -/
  path : String
  type : InterfaceType
  layout : IssuedLayout
  mode : OwnershipMode
  obligation : Obligation
  role : Role
  children : List Slot
  deriving Inhabited

namespace Slot

mutual

/-- The slot and all slots inside it, each before those inside it. -/
def preorder : Slot → List Slot
  | ⟨label, path, type, layout, mode, obligation, role, children⟩ =>
    ⟨label, path, type, layout, mode, obligation, role, children⟩ :: preorderAll children
termination_by structural s => s

def preorderAll : List Slot → List Slot
  | [] => []
  | s :: ss => preorder s ++ preorderAll ss
termination_by structural ss => ss

end

mutual

/-- The slot as a document. -/
def toJson : Slot → Json
  | ⟨label, path, type, layout, mode, obligation, role, children⟩ =>
    .obj [("label", .str label), ("path", .str path), ("type", .str type.render),
      ("role", .str role.name), ("mode", .str mode.name), ("obligation", obligation.toJson),
      ("size", .int layout.layout.size), ("align", .int layout.layout.align),
      ("children", .arr (toJsonAll children))]
termination_by structural s => s

def toJsonAll : List Slot → List Json
  | [] => []
  | s :: ss => toJson s :: toJsonAll ss
termination_by structural ss => ss

end

/-- The path of a part. -/
def under (path label : String) : String := if path.isEmpty then label else path ++ "." ++ label

end Slot

/-- An item with its type and its slots. -/
structure ResolvedItem where
  item : ExportItem
  type : InterfaceType
  root : Slot

namespace ResolvedItem

def slots (r : ResolvedItem) : List Slot := r.root.preorder

def layout (r : ResolvedItem) : Layout := r.root.layout.layout

def mode (r : ResolvedItem) : OwnershipMode := r.root.mode

end ResolvedItem

end Crossing
