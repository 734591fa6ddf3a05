import Crossing.Export.Item
import Crossing.Native.Tree
import Crossing.Diagnostic
import Crossing.Identifier.Style
import Crossing.Log.Record
import Crossing.TypeExpr.Enumerable

/-!
# Collecting the items of a module

Every declaration of a module tree, a module's own items before those of its children, is either
collected, ignored or refused. It is collected when nothing stands in its way: it and the modules
around it are visible, it has a supported shape, and its types can be enumerated. What stands in
the way of a declaration with an export marker is told in a diagnostic; without one the
declaration is ignored, and so is everything with a skip marker.
-/

namespace Crossing.Export

open NativeModule (Scope)

def defaultMarkers : List String := ["rua::export", "rua_export"]

def skipMarkers : List String := ["rua::skip", "rua_skip"]

/-- Whether one of the attributes has one of the paths. -/
def isMarked (attrs paths : List String) : Bool :=
  attrs.any fun a => paths.contains (String.ofList (attributePath a.toList))

/-- Why the shape of a declaration keeps it from crossing. -/
def shapeReasons (d : Declaration) : List String :=
  match d.body with
  | .other kind => ["`" ++ kind ++ "` items cannot cross the boundary"]
  | .function _ _ receiver isAsync _ _ =>
    (match receiver with
      | some r => ["methods (receiver `" ++ r ++ "`) cannot cross the boundary"]
      | none => [])
      ++ (if isAsync then ["async functions are not supported"] else []) ++ genericReasons
  | _ => genericReasons
where
  genericReasons : List String :=
    if d.generics.isEmpty then []
    else ["generic items are not supported ("
      ++ ", ".intercalate (d.generics.map fun g => "`" ++ g ++ "`") ++ ")"]

/-- Why the types of a declaration cannot be enumerated, each reason under the label of its
type. -/
def typeReasons (d : Declaration) : List String :=
  d.typeRefs.flatMap fun (label, t) =>
    (t.obstacles d.generics).map fun reason => "`" ++ label ++ "`: " ++ reason

/-- The members of a list, each at its first place only. -/
def distinct (reasons : List String) : List String := reasons.eraseDups

/-- Everything that stands in the way of a declaration. -/
def reasons (scope : Scope) (d : Declaration) : List String :=
  distinct ((if d.visibility.crossesBoundary then []
      else ["item is not `pub` (visibility `" ++ d.visibility.name ++ "`)"])
    ++ scope.hidden.map (fun m => "enclosing module `" ++ m ++ "` is not `pub`")
    ++ shapeReasons d ++ typeReasons d)

/-- What becomes of a declaration. -/
inductive Verdict where
  | skipped
  | ignored (reasons : List String)
  | refused (first : String) (others : List String)
  | collected (kind : ItemKind) (isExplicit : Bool)

def judge (markers : List String) (scope : Scope) (d : Declaration) : Verdict :=
  if isMarked d.attrs skipMarkers then .skipped
  else match reasons scope d, d.body.itemKind? with
    | [], some kind => .collected kind (isMarked d.attrs markers)
    | [], none => .ignored []
    | first :: others, _ =>
      if isMarked d.attrs markers then .refused first others else .ignored (first :: others)

/-- What a module exports, and why marked declarations are not among it. -/
structure Collection where
  items : List ExportItem := []
  diagnostics : List Diagnostic := []
  log : List Log.Record := []

namespace Collection

def logger : String := "rua.collector"

/-- Adds a declaration by its verdict. -/
def add (c : Collection) (scope : Scope) (d : Declaration) : Verdict → Collection
  | .skipped =>
    { c with log := c.log ++ [Log.debug logger
        ("skip " ++ scope.qualify d.name ++ ": marked skip")] }
  | .ignored reasons =>
    { c with log := c.log ++ [Log.debug logger
        ("skip " ++ scope.qualify d.name ++ ": " ++ "; ".intercalate reasons)] }
  | .refused first others =>
    { c with diagnostics := c.diagnostics ++ [{
        kind := .unsupported
        message := "item is marked for export but cannot cross the boundary: " ++ first
        item := some (scope.qualify d.name)
        stage := some "collector"
        span := d.span
        notes := others }] }
  | .collected kind isExplicit =>
    { c with items := c.items ++ [{
        qualifiedName := scope.qualify d.name
        kind
        isExplicit
        symbol := Identifier.exportSymbol scope.path d.name
        index := c.items.length
        modulePath := scope.path
        declaration := d }] }

/-- The record that closes the collection. -/
def summary (c : Collection) : Log.Record :=
  Log.debug logger ("collected " ++ toString c.items.length ++ " item(s), "
    ++ toString c.diagnostics.length ++ " diagnostic(s)")

end Collection

/-- Collects the items of a module, given the attributes that mark exports. -/
def collect (m : NativeModule) (markers : List String) : Collection :=
  let paths := markers.map fun s => String.ofList (attributePath s.toList)
  let c := m.declarations.foldl
    (fun (c : Collection) (scope, d) => c.add scope d (judge paths scope d)) {}
  { c with log := c.log ++ [c.summary] }

end Crossing.Export
