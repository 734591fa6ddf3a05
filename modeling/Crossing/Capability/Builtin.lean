import Crossing.Capability.Table
import Crossing.Report

/-!
# Built-in targets

The tables that have a name of their own. The Dart table has no wide integers; it renders every
mode through helpers of one runtime, except that only pointers, functions and handles are counted
and primitives are always borrowed.
-/

namespace Crossing.CapabilityTable

/-- Entries that free a value by a helper. -/
def released (template : String) : CapabilityEntry := { release := some template }

/-- The entry of a counted value. -/
def counted : CapabilityEntry :=
  { release := some "rua_release_\x7bsymbol\x7d", retain := some "rua_retain_\x7bsymbol\x7d" }

def dartEntries : TypeKind → OwnershipMode → Option CapabilityEntry
  | _, .borrowed => some {}
  | .primitive, _ => none
  | .function, .sharedCounted | .handle, .sharedCounted | .pointer, .sharedCounted => some counted
  | .function, _ | .handle, _ => some (released "rua_drop_\x7bsymbol\x7d")
  | _, .sharedCounted => none
  | _, _ => some (released "rua_free_\x7bsymbol\x7d")

def dart : CapabilityTable where
  target := "dart"
  entries := dartEntries
  intBits := [8, 16, 32, 64]
  floatBits := [32, 64]
  encodings := [.cString, .utf8]

/-- The built-in table of a name. -/
def builtin? (name : String) : Option CapabilityTable := if name = "dart" then some dart else none

/-- The report of a target that is neither the name of a table nor a file. -/
def unknownTarget (name : String) : Report where
  reason := Report.Kind.capabilityFormat.code
  message := "no built-in target '" ++ name ++ "' and no such capability file"
  path := some name
  place := some "$"

end Crossing.CapabilityTable
