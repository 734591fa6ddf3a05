import Crossing.Text.Letter
import Crossing.Json.Basic

/-!
# Ownership modes

Who owns a value that crosses the boundary, and the duty that comes with it: the side that ends up
with a transferred value releases it, and a counted value is retained and released.
-/

namespace Crossing

inductive OwnershipMode where
  /-- The caller keeps the value; it is used during the call only. -/
  | borrowed
  /-- The native side hands the value out; the caller releases it. -/
  | transferredOut
  /-- The caller hands the value in; the native side releases it. -/
  | transferredIn
  /-- Both sides hold a count. -/
  | sharedCounted
  deriving DecidableEq, Inhabited

namespace OwnershipMode

def all : List OwnershipMode := [.borrowed, .transferredOut, .transferredIn, .sharedCounted]

def name : OwnershipMode → String
  | .borrowed => "Borrowed"
  | .transferredOut => "TransferredOut"
  | .transferredIn => "TransferredIn"
  | .sharedCounted => "SharedCounted"

/-- The spelling in configurations. -/
def setting : OwnershipMode → String
  | .borrowed => "borrowed"
  | .transferredOut => "transferred_out"
  | .transferredIn => "transferred_in"
  | .sharedCounted => "shared_counted"

def ofName? (s : String) : Option OwnershipMode := all.find? (·.name == s)

/-- The mode that a text spells: a setting in any case, or the exact name. -/
def parse? (s : String) : Option OwnershipMode :=
  let small := String.ofList (Text.lower s.toList)
  (all.find? (·.setting == small)).or (ofName? s)

/-- Why a text is no mode. -/
def refusal (s : String) : String := "unknown ownership mode '" ++ s ++ "'"

def isTransfer : OwnershipMode → Bool
  | .transferredIn | .transferredOut => true
  | .borrowed | .sharedCounted => false

end OwnershipMode

inductive ObligationKind where
  | none
  | releaseByCaller
  | releaseByCallee
  | retainRelease
  deriving DecidableEq, Inhabited

def ObligationKind.name : ObligationKind → String
  | .none => "none"
  | .releaseByCaller => "release_by_caller"
  | .releaseByCallee => "release_by_callee"
  | .retainRelease => "retain_release"

/-- The duty that comes with a mode. -/
def OwnershipMode.obligation : OwnershipMode → ObligationKind
  | .borrowed => .none
  | .transferredOut => .releaseByCaller
  | .transferredIn => .releaseByCallee
  | .sharedCounted => .retainRelease

/-- A duty with the helpers that fulfil it. -/
structure Obligation where
  kind : ObligationKind
  release : Option String := none
  retain : Option String := none
  deriving DecidableEq, Inhabited

namespace Obligation

/-- No duty. -/
def free : Obligation := { kind := .none }

/-- Whether a helper is there and has a name. -/
def isNamed (helper : Option String) : Bool := helper.any fun s => !s.isEmpty

/-- Whether every helper that the duty needs is there. -/
def isConcrete (o : Obligation) : Bool :=
  match o.kind with
  | .none => true
  | .retainRelease => isNamed o.release && isNamed o.retain
  | .releaseByCaller | .releaseByCallee => isNamed o.release

def toJson (o : Obligation) : Json :=
  .obj [("kind", .str o.kind.name), ("release", .ofString? o.release),
    ("retain", .ofString? o.retain)]

end Obligation

end Crossing
