import Crossing.Capability.Table
import Crossing.Diagnostic
import Crossing.Findings
import Crossing.Log.Record
import Crossing.Ownership.Rule

/-!
# Resolving items

`slot` resolves a type at a standing into its slot and the slots of its parts. What is wrong with a
slot or with any of its parts is reported; a slot comes out only when nothing is. A slot without a
mode is not looked into. Every layout is asked of one engine, and every hint that a raw pointer
takes its mode from is noted, so that hints without effect can be told.
-/

namespace Crossing

/-- The modes declared for slots, by the name of the item and the path of the slot. -/
abbrev OwnershipHints := List (String × List (String × OwnershipMode))

namespace Ownership

/-- What a run resolves its items against. -/
structure Terms where
  capabilities : CapabilityTable
  hints : OwnershipHints := []

/-- Why an item cannot be resolved at all. -/
inductive Fault where
  /-- A helper name cannot be made. -/
  | helper (fault : Text.Template.Fault)
  /-- A union without a layout. -/
  | tags (range : TagRange)
  /-- A type that cannot be held as it says. -/
  | misheld (misheld : InterfaceType.Misheld)

/-- The layouts so far, and the hints that had an effect: each an item and a path. -/
structure Resolver where
  engine : LayoutEngine
  applied : List (String × String) := []

/-- A computation that resolves slots. A fault keeps what was noted before it. -/
abbrev ResolveM := ExceptT Fault (Steps Resolver)

/-- The hints for an item. -/
def Terms.hintsFor (terms : Terms) (item : ExportItem) : List (String × OwnershipMode) :=
  (terms.hints.lookup item.qualifiedName).getD []

/-- A diagnostic of the resolver about the slot of an item. -/
def diagnostic (kind : Diagnostic.Kind) (item : ExportItem) (path : String) (t : InterfaceType)
    (problem : String) (notes : List String) : Diagnostic where
  kind
  message := "`" ++ (if path.isEmpty then item.name else path) ++ "`: " ++ problem
  item := some item.qualifiedName
  type := some t.render
  stage := some "abi_resolver"
  span := item.span
  notes

/-- The hint that a user can give for a slot. -/
def hintNote (item : ExportItem) (path : String) : String :=
  "declare it in ruaconf.toml: [ownership] \"" ++ item.qualifiedName ++ "\" = \x7b \"" ++ path
    ++ "\" = \"transferred_out\" \x7d"

/-- How a raw pointer of unknown owner is reached, in words. -/
def Standing.phrase (s : Standing) : String :=
  match s.reach with
  | .transfer _ => "inside a transferred value"
  | .position | .view => "as a " ++ s.role.phrase

def unknownOwner (item : ExportItem) (path : String) (t : InterfaceType) (s : Standing) :
    Diagnostic :=
  diagnostic .ambiguousOwnership item path t
    ("ownership of a raw pointer " ++ Standing.phrase s ++ " cannot be inferred")
    [hintNote item path]

def lentInside (item : ExportItem) (path : String) (t : InterfaceType) (mode : OwnershipMode) :
    Diagnostic :=
  diagnostic .layoutConflict item path t
    ("borrowed reference inside a value transferred as " ++ mode.name)
    ["a transferred value must own everything it points to"]

/-- The mode of a slot. A hint that it comes from is noted. -/
def modeOf (terms : Terms) (item : ExportItem) (s : Standing) (path : String)
    (t : InterfaceType) : ResolveM (Findings Diagnostic OwnershipMode) :=
  match s.verdict t ((terms.hintsFor item).lookup path) with
  | .error misheld => throw (.misheld misheld)
  | .ok (.mode m) => pure (.ok m)
  | .ok (.hinted m) => do
    modify fun r => { r with applied := (item.qualifiedName, path) :: r.applied }
    pure (.ok m)
  | .ok .unknownOwner => pure (.error [unknownOwner item path t s])
  | .ok (.lentInside m) => pure (.error [lentInside item path t m])

/-- What the target lacks for a slot. -/
def gaps (terms : Terms) (item : ExportItem) (path : String) (t : InterfaceType)
    (mode : OwnershipMode) : List Diagnostic :=
  match terms.capabilities.gap? t mode with
  | none => []
  | some gap =>
    [diagnostic .unsupported item path t (gap.message terms.capabilities.target) []]

/-- Asks the engine for a layout. The engine answers one question at a time. -/
def layoutOf (t : InterfaceType) : ResolveM IssuedLayout := do
  let answer ← modifyGet fun r =>
    let (answer, engine) := r.engine.layoutOf t
    (answer, { r with engine })
  match answer with
  | .ok l => pure l
  | .error range => throw (.tags range)

/-- The duty for a type in a mode. -/
def obligation (terms : Terms) (t : InterfaceType) (mode : OwnershipMode) : ResolveM Obligation :=
  match terms.capabilities.obligation t mode with
  | .ok o => pure o
  | .error fault => throw (.helper fault)

/-- Resolves the slot of a type that is reached in some way, under a label and a path. -/
def slot (terms : Terms) (item : ExportItem) (s : Standing) (label path : String)
    (t : InterfaceType) : ResolveM (Findings Diagnostic Slot) := do
  match ← modeOf terms item s path t with
  | .error ds => pure (.error ds)
  | .ok mode => do
    let layout ← layoutOf t
    let parts ← (s.parts t mode).attach.mapM fun ⟨(label, u, s), _⟩ =>
      slot terms item s label (Slot.under path label) u
    match Findings.combine (fun _ children => children)
        (.ofProblems (gaps terms item path t mode)) (Findings.all parts) with
    | .error ds => pure (.error ds)
    | .ok children => do
      let obligation ← obligation terms t mode
      pure (.ok { label, path, type := t, layout, mode, obligation, role := s.role, children })
termination_by sizeOf t
decreasing_by exact Standing.sizeOf_part_lt ‹_›

/-- The labels of the parameters of a function item. -/
def parameterLabels (item : ExportItem) : List String :=
  (item.typeRefs.map (·.1)).filter (· != "return")

/-- The positions of a function item, under the labels of its parameters. -/
def positions (item : ExportItem) (params : List InterfaceType) (ret : InterfaceType)
    (failure : Failure InterfaceType) : List (String × InterfaceType × Standing) :=
  Standing.signature (fun i => (parameterLabels item)[i]?.getD ("arg" ++ toString i)) .parameter
    .returned params ret failure

/-- Resolves the slots of a function item. The function itself is lent, whatever crosses through
it. -/
def functionRoot (terms : Terms) (item : ExportItem) (t : InterfaceType)
    (params : List InterfaceType) (ret : InterfaceType) (failure : Failure InterfaceType) :
    ResolveM (Findings Diagnostic Slot) := do
  let parts ← (positions item params ret failure).mapM fun (label, u, s) =>
    slot terms item s label label u
  match Findings.combine (fun children _ => children) (Findings.all parts)
      (.ofProblems (gaps terms item "" t .borrowed)) with
  | .error ds => pure (.error ds)
  | .ok children => do
    let layout ← layoutOf t
    pure (.ok {
      label := item.name, path := "", type := t, layout, mode := .borrowed
      obligation := .free, role := .declaration, children })

/-- Resolves the root slot of an item: a function item by its signature, any other as a whole. -/
def resolveRoot (terms : Terms) (item : ExportItem) (t : InterfaceType) :
    ResolveM (Findings Diagnostic Slot) :=
  match item.kind, t with
  | .function, .function params ret failure holding =>
    functionRoot terms item (.function params ret failure holding) params ret failure
  | _, t => slot terms item ⟨.position, .declaration⟩ item.name "" t

/-- Resolves an item of a type. -/
def resolveItem (terms : Terms) (item : ExportItem) (t : InterfaceType) :
    ResolveM (Findings Diagnostic ResolvedItem) := do
  let root ← resolveRoot terms item t
  pure (root.map fun root => { item, type := t, root })

/-- What the log tells about a resolved item. -/
def record (item : ExportItem) (r : Findings Diagnostic ResolvedItem) : Log.Record :=
  Log.debug "rua.abi_resolver" ("resolve " ++ item.qualifiedName ++ ": " ++ match r with
    | .ok r => toString r.slots.length ++ " slot(s)"
    | .error ds => toString ds.length ++ " diagnostic(s)")

/-- The ascending order of items and paths. -/
def hintLe (a b : String × String) : Bool :=
  decide (a.1 < b.1) || (a.1 == b.1 && decide (a.2 ≤ b.2))

/-- The hints that no raw pointer took its mode from, in ascending order. -/
def Resolver.unusedHints (r : Resolver) (terms : Terms) : List (String × String) :=
  (((terms.hints.flatMap fun (name, modes) => modes.map fun m => (name, m.1)).filter
    fun h => !r.applied.contains h)).mergeSort hintLe

end Ownership

end Crossing
