import Crossing.Building.Builder
import Crossing.Diagnostic
import Crossing.Export.Item
import Crossing.InterfaceType.Render
import Crossing.Log.Record

/-!
# Building the type of an item

The type of a function is built from its signature, that of an alias from its target, and that of a
struct or an enumeration as a mention of itself. Callbacks may be passed to functions, but not to
callbacks. Each problem of an item is told once.
-/

namespace Crossing.Building

/-- The problem of a callback with callbacks in its signature. -/
def callbackProblems (label : String) (t : InterfaceType) : List Problem :=
  if 1 < t.callbackDepth then
    [{ message := "`" ++ label
        ++ "`: a callback whose signature contains another callback is not supported"
       type := some t.render
       notes := ["only one level of callback nesting can cross the boundary"] }]
  else []

/-- The nesting problems of the type of an item. The positions of a function are checked one by
one, under the labels of its signature. -/
def nestingProblems (item : ExportItem) (t : InterfaceType) : List Problem :=
  match item.kind, t with
  | .function, .function params ret failure _ =>
    ((item.typeRefs.map (·.1)).zip (params ++ [ret])).flatMap (fun (label, t) =>
        callbackProblems label t)
      ++ match failure with
        | .typed error => callbackProblems "error" error
        | .never | .untyped => []
  | .function, _ => []
  | .alias, t => callbackProblems "target" t
  | .struct, t | .enumeration, t => callbackProblems item.name t

/-- A built type in which callbacks do not nest. -/
def unnested (item : ExportItem) : Outcome → Outcome
  | .error ps => .error ps
  | .ok t =>
    match nestingProblems item t with
    | [] => .ok t
    | ps => .error ps

/-- A problem as a diagnostic of an item. -/
def Problem.diagnostic (item : ExportItem) (p : Problem) : Diagnostic where
  kind := .unsupported
  message := p.message
  item := some item.qualifiedName
  type := p.type
  stage := some "type_builder"
  span := item.span
  notes := p.notes

/-- The type of an item, or a diagnostic for each of its problems. -/
def reported (item : ExportItem) : Outcome → Findings Diagnostic InterfaceType
  | .ok t => .ok t
  | .error ps => .error (ps.eraseDups.map (·.diagnostic item))

/-- The types of the parameters of a function item. -/
def parameterTypes (item : ExportItem) : List TypeExpr :=
  (item.typeRefs.filter (·.1 != "return")).map (·.2)

/-- The return type of a function item. -/
def returnType? (item : ExportItem) : Option TypeExpr := item.typeRefs.reverse.lookup "return"

namespace Builder

/-- Builds what an item declares. -/
def buildDeclared (m : TypeModel) (item : ExportItem) : BuildM Outcome :=
  let site := m.site item.scope
  match item.kind, item.declaration.body with
  | .function, _ =>
    make m site (.function (parameterTypes item) (.ofExpr (returnType? item)) .value)
  | .alias, .alias target => build m site target
  | _, _ =>
    build m { site with isDeclaration := true }
      (.ofNames (QualifiedName.split item.qualifiedName))

/-- The type of an item, or the diagnostics that it has none for. -/
def buildItem (m : TypeModel) (item : ExportItem) :
    BuildM (Findings Diagnostic InterfaceType) := do
  let outcome ← buildDeclared m item
  pure (reported item (unnested item outcome))

end Builder

/-- What the log tells about a built item. -/
def record (item : ExportItem) (r : Findings Diagnostic InterfaceType) : Log.Record :=
  Log.debug "rua.type_builder" ("build " ++ item.qualifiedName ++ match r with
    | .ok t => " -> " ++ t.render
    | .error ds => ": " ++ toString ds.length ++ " problem(s)")

end Crossing.Building
