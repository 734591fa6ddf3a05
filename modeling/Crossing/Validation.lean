import Crossing.Capability.Table
import Crossing.Diagnostic
import Crossing.InterfaceType.Table
import Crossing.Json.Display
import Crossing.Layout.Check
import Crossing.Log.Record
import Crossing.Ownership.Slot
import Crossing.Report

/-!
# Validation

The gate before anything is handed out. It trusts no stage before it: a submission may hold a value
that is no type, a slot without a mode, or a layout that is not the one on record. Such a thing is a
fault, and ends the validation. That a target has no entry or no helper for a slot is told in a
diagnostic, and all of them are told.
-/

namespace Crossing.Validation

/-- A slot as it is submitted. -/
structure SubmittedSlot where
  label : String
  path : String
  type : InterfaceType
  layout : IssuedLayout
  mode : Option OwnershipMode
  obligation : Obligation

/-- An item as it is submitted, with its slots from the outside in. -/
structure Submission where
  item : ExportItem
  type : Except Json InterfaceType
  slots : List SubmittedSlot

def SubmittedSlot.ofSlot (s : Slot) : SubmittedSlot where
  label := s.label
  path := s.path
  type := s.type
  layout := s.layout
  mode := some s.mode
  obligation := s.obligation

def Submission.ofItem (r : ResolvedItem) : Submission where
  item := r.item
  type := .ok r.type
  slots := r.slots.map .ofSlot

/-- What must not be in a submission. -/
inductive Cause where
  | foreign (value : Json)
  | unregistered (type : InterfaceType)
  | withoutLayout (type : InterfaceType)
  | inconsistent (type : InterfaceType) (problems : List Layout.Problem)
  | withoutMode
  | otherLayout

def Cause.message : Cause → String
  | .foreign value => "non-IT object " ++ value.quote ++ " in the type graph"
  | .unregistered t => "IT `" ++ t.render ++ "` was not interned in this run's table"
  | .withoutLayout t => "IT `" ++ t.render ++ "` reached the validator without a layout"
  | .inconsistent t problems =>
    "inconsistent layout for `" ++ t.render ++ "`: "
      ++ "; ".intercalate (problems.map Layout.Problem.message)
  | .withoutMode => "slot has no ownership mode"
  | .otherLayout => "slot layout is not the IT's single layout"

structure Fault where
  cause : Cause
  place : String

def Fault.report (f : Fault) : Report where
  reason := Report.Kind.internalFault.code
  message := f.cause.message
  path := none
  place := some f.place

/-- What submissions are checked against. Without a table, types need not be registered. -/
structure Records where
  capabilities : CapabilityTable
  engine : LayoutEngine
  table : Option TypeTable

/-- What is wrong with the layout of a type. -/
def layoutCause? (t : InterfaceType) (l : Layout) : Option Cause :=
  match l.problems t with
  | [] => none
  | problems => some (.inconsistent t problems)

/-- What is wrong with a type of a submission. -/
def typeCause? (records : Records) (t : InterfaceType) : Option Cause :=
  if records.table.any fun table => !table.contains t then some (.unregistered t)
  else match records.engine.cache.lookup t with
    | none => some (.withoutLayout t)
    | some issued => layoutCause? t issued.layout

/-- Whether a layout is the one on record for a type. -/
def isOnRecord (records : Records) (t : InterfaceType) (l : IssuedLayout) : Bool :=
  (records.engine.cache.lookup t).any (·.number == l.number)

def slotDiagnostic (item : ExportItem) (s : SubmittedSlot) (problem : String)
    (notes : List String) : Diagnostic where
  kind := .unsupported
  message := "`" ++ (if s.path.isEmpty then s.label else s.path) ++ "`: " ++ problem
  item := some item.qualifiedName
  type := some s.type.render
  stage := some "validator"
  span := item.span
  notes

/-- The helpers that a duty needs, in words. -/
def neededHelper : ObligationKind → String
  | .retainRelease => "retain/release"
  | .none | .releaseByCaller | .releaseByCallee => "release"

/-- What the target lacks for a slot in a mode. -/
def slotDiagnostics (records : Records) (item : ExportItem) (s : SubmittedSlot)
    (mode : OwnershipMode) : List Diagnostic :=
  if (records.capabilities.entry s.type.kind mode).isNone then
    [slotDiagnostic item s
      ("no capability entry for " ++ s.type.kind.name ++ " as " ++ mode.name) []]
  else if s.obligation.isConcrete then []
  else
    [slotDiagnostic item s
      (mode.name ++ " requires a " ++ neededHelper s.obligation.kind ++ " helper for `"
        ++ s.type.render ++ "`")
      ["target `" ++ records.capabilities.target
        ++ "` declares no helper name for this combination"]]

/-- Checks a slot of an item. -/
def checkSlot (records : Records) (item : ExportItem) (s : SubmittedSlot) :
    Except Fault (List Diagnostic) :=
  let place := item.qualifiedName ++ ":" ++ (if s.path.isEmpty then "<root>" else s.path)
  match s.mode with
  | none => .error ⟨.withoutMode, place⟩
  | some mode =>
    if isOnRecord records s.type s.layout then .ok (slotDiagnostics records item s mode)
    else .error ⟨.otherLayout, place⟩

/-- Checks the types of an item. -/
def checkTypes (records : Records) (s : Submission) : Except Fault Unit :=
  match s.type with
  | .error value => .error ⟨.foreign value, s.item.qualifiedName⟩
  | .ok t =>
    match t.graph.findSome? (typeCause? records) with
    | some cause => .error ⟨cause, s.item.qualifiedName⟩
    | none => .ok ()

/-- Checks an item: every type in it, and then its slots. -/
def checkItem (records : Records) (s : Submission) : Except Fault (List Diagnostic) := do
  checkTypes records s
  let found ← s.slots.mapM (checkSlot records s.item)
  pure found.flatten

/-- What the target lacks for some items, unless one of them is at fault. -/
def validate (records : Records) (items : List Submission) : Except Fault (List Diagnostic) := do
  let found ← items.mapM (checkItem records)
  pure found.flatten

/-- What the log tells about a validation without fault. -/
def record (items : List Submission) (diagnostics : List Diagnostic) : Log.Record :=
  Log.debug "rua.validator" ("validated " ++ toString items.length ++ " item(s): "
    ++ if diagnostics.isEmpty then "ok"
      else toString diagnostics.length ++ " diagnostic(s)")

end Crossing.Validation
