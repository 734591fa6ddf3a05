import Crossing.Building.Tags
import Crossing.Building.TypeModel
import Crossing.InterfaceType.Table
import Crossing.Steps

/-!
# Building interface types

`make` follows a recipe. Parts are built in their order, and everything that is wrong with any of
them is reported; a type is registered in the table when all its parts are there. What a path means
is looked up once, and the contents of a nominal type are built once and remembered, with their
problems; where others build the same contents meanwhile, the first to end is remembered. The
recursion ends because a declaration is not expanded inside its own expansion, nor an alias opened
inside its own target, nor a buffer struct entered inside its own element type, and because the
parts of a recipe are smaller than the expression it is for.
-/

namespace Crossing.Building

/-- A built type, or what keeps it from being built. -/
abbrev Outcome := Findings Problem InterfaceType

/-- The types built so far, what paths mean, and what became of the contents of nominal types. -/
structure Builder where
  table : TypeTable := {}
  /-- The meanings of paths, by their names and the scope that they stand in. -/
  meanings : List ((List String × List String) × Resolution) := []
  expansions : List (String × Outcome) := []
  /-- Whether nothing is remembered, so that contents are built anew at every mention. -/
  forgets : Bool := false

/-- A computation that builds types. A fault keeps what was built before it. -/
abbrev BuildM := ExceptT Fault (Steps Builder)

namespace Builder

/-- A builder with the handles of a model reserved. -/
def ofModel (m : TypeModel) : Builder where
  table := (m.index.handled m.graph).foldl (fun table name => (table.reserve name).2) {}

/-- Registers a type. -/
def keep (t : InterfaceType) : BuildM InterfaceType := do
  modify fun b => { b with table := b.table.intern t }
  pure t

/-- Registers a type if it was built. -/
def keepOutcome : Outcome → BuildM Outcome
  | .ok t => .ok <$> keep t
  | .error ps => pure (.error ps)

/-- Registers a type with all of its parts. -/
def keepAll (t : InterfaceType) : BuildM Outcome := do
  modify fun b => { b with table := b.table.internAll t }
  pure (.ok t)

/-- The handle of a nominal type: its number, and then the type with that number. -/
def handle (name : String) : BuildM Outcome := do
  let number : Nat ← modifyGet fun b =>
    let (number, table) := b.table.reserve name
    (number, { b with table })
  .ok <$> keep (.handle number name)

/-- What a path means from a scope, as it is remembered or else looked up and remembered. -/
def recallMeaning (m : TypeModel) (scope names : List String) (b : Builder) : Resolution × Builder :=
  if b.forgets then (m.index.resolve names scope, b)
  else match b.meanings.lookup (names, scope) with
    | some meaning => (meaning, b)
    | none =>
      let meaning := m.index.resolve names scope
      (meaning, { b with meanings := ((names, scope), meaning) :: b.meanings })

def meaning (m : TypeModel) (scope : List String) (e : TypeExpr) : BuildM Resolution :=
  modifyGet (recallMeaning m scope e.names)

/-- What is remembered of the contents of a nominal type. -/
def recallExpansion (name : String) (b : Builder) : Option Outcome :=
  if b.forgets then none else b.expansions.lookup name

/-- Remembers what became of the contents of a nominal type, unless something is remembered. -/
def remember (name : String) (o : Outcome) (b : Builder) : Outcome × Builder :=
  if b.forgets then (o, b)
  else match b.expansions.lookup name with
    | some first => (first, b)
    | none => (o, { b with expansions := (name, o) :: b.expansions })

/-- The contents of a nominal type, as they are remembered or else by a computation. -/
def remembered (name : String) (compute : BuildM Outcome) : BuildM Outcome := do
  match recallExpansion name (← get) with
  | some o => pure o
  | none => do
    let o ← compute
    modifyGet (remember name o)

/-- A tuple of built parts: a record without a name whose fields are numbered. -/
def tupleOf (parts : List InterfaceType) : InterfaceType :=
  .record "" (parts.zipIdx.map fun (t, i) => ⟨toString i, t⟩)

/-- A function of built parts. -/
def functionOf (holding : Holding) (params : List InterfaceType)
    (ret : InterfaceType × Failure InterfaceType) : InterfaceType :=
  .function params ret.1 ret.2 holding

/-- A function of parts as far as they were built. -/
def signatureOf (holding : Holding) (params : List Outcome)
    (ret : Findings Problem (InterfaceType × Failure InterfaceType)) : Outcome :=
  Findings.combine (functionOf holding) (Findings.all params) ret

/-- A field of a built type. -/
def fieldOf (label : String) (t : Outcome) : Findings Problem (Field InterfaceType) :=
  t.map fun t => ⟨label, t⟩

/-- A name less is fewer names. -/
theorem length_erase_lt {name : String} {names : List String} (h : name ∈ names) :
    (names.erase name).length < names.length := by
  have := List.length_erase_of_mem h
  have := List.length_pos_of_mem h
  omega

/-- A part of a recipe is lighter than the recipe, and nothing else changes. -/
theorem lex_part (m : TypeModel) {a b c w : Nat} (meaning : Resolution) {e : TypeExpr}
    (h : sizeOf e ≤ w) :
    Prod.Lex (· < ·) (Prod.Lex (· < ·) (Prod.Lex (· < ·) (· < ·)))
      (a, b, c, (m.recipeBy meaning e).weight) (a, b, c, w) :=
  .right _ (.right _ (.right _ (Nat.lt_of_lt_of_le (m.weight_recipeBy_lt meaning e) h)))

theorem sizeOf_param_le {p : TypeExpr} {params : List TypeExpr} {ret : Return} {holding : Holding}
    (h : p ∈ params) : sizeOf p ≤ (Recipe.function params ret holding).weight := by
  have := List.sizeOf_lt_of_mem h
  simp only [Recipe.weight]
  omega

/-- Follows a recipe at a place. -/
def make (m : TypeModel) (s : Site) (r : Recipe) : BuildM Outcome :=
  match r with
  | .exact t => keepAll t
  | .refuse problem => pure (.error [problem])
  | .illFormed parts reason => do
    parts.forM fun t => discard (keepAll t)
    throw (.illFormed reason)
  | .wrap via part wrapper => do
    match ← make m (s.inside via) (m.recipeBy (← meaning m s.scope part) part) with
    | .ok t => do
      let around ← liftExcept (wrapper.around t)
      keepOutcome around
    | .error ps => pure (.error ps)
  | .tuple parts => do
    let made ← parts.attach.mapM fun ⟨p, _⟩ => do
      make m (s.inside .value) (m.recipeBy (← meaning m s.scope p) p)
    keepOutcome ((Findings.all made).map tupleOf)
  | .function params (.value t) holding => do
    let made ← params.attach.mapM fun ⟨p, _⟩ => do
      make m (s.inside .function) (m.recipeBy (← meaning m s.scope p) p)
    let t ← make m (s.inside .function) (m.recipeBy (← meaning m s.scope t) t)
    keepOutcome (signatureOf holding made (t.map (·, .never)))
  | .function params (.fallible t e) holding => do
    let made ← params.attach.mapM fun ⟨p, _⟩ => do
      make m (s.inside .function) (m.recipeBy (← meaning m s.scope p) p)
    let t ← make m (s.inside .function) (m.recipeBy (← meaning m s.scope t) t)
    let e ← make m (s.inside .function) (m.recipeBy (← meaning m s.scope e) e)
    keepOutcome (signatureOf holding made (Findings.combine (fun t e => (t, .typed e)) t e))
  | .function params (.malformed problem) holding => do
    let made ← params.attach.mapM fun ⟨p, _⟩ => do
      make m (s.inside .function) (m.recipeBy (← meaning m s.scope p) p)
    keepOutcome (signatureOf holding made (.error [problem]))
  | .buffer n element holding =>
    if n.name ∈ s.unentered then do
      match ← make m (TypeModel.enter s n) (m.recipeBy (← meaning m n.scope element) element) with
      | .ok t => .ok <$> keep (.buffer t holding)
      | .error ps => pure (.error ps)
    else throw (.endless n.name)
  | .named n mention =>
    match h : m.reference s n mention with
    | .refuse problem => pure (.error [problem])
    | .handle => handle n.name
    | .alias target => do
      make m (m.openAlias s n) (m.recipeBy (← meaning m n.scope target) target)
    | .record fields =>
      remembered n.name do
        if n.name ∈ s.unexpanded then do
          let made ← (labelledFields 0 fields).mapM fun (label, f) => do
            let t ← make m (m.expand s n) (m.recipeBy (← meaning m n.scope f.type) f.type)
            pure (fieldOf label t)
          keepOutcome ((Findings.all made).map (.record n.name))
        else throw (.endless n.name)
    | .union [] => pure (.error [{ message := "enum `" ++ n.name ++ "` has no variants" }])
    | .union variants =>
      remembered n.name do
        if n.name ∈ s.unexpanded then do
          let tagged := tagVariants 0 [] variants
          let made ← tagged.mapM fun v => do
            let fields ← (labelledFields 0 v.variant.fields).mapM fun (label, f) => do
              let t ← make m (m.expand s n) (m.recipeBy (← meaning m n.scope f.type) f.type)
              pure (fieldOf label t)
            pure (Findings.combine (fun _ fields => ⟨v.variant.name, v.tag, fields⟩)
              (.ofProblems (v.problems n.name)) (Findings.all fields))
          keepOutcome (Findings.combine (fun vs _ => .taggedUnion n.name vs) (Findings.all made)
            (.ofProblems (rangeProblems n.name (tagged.map (·.tag)))))
        else throw (.endless n.name)
termination_by
  (s.unexpanded.length, s.unopened.length, s.unentered.length, r.weight)
decreasing_by
  · exact lex_part m _ (Nat.le_refl _)
  · exact lex_part m _ (Nat.le_of_lt (List.sizeOf_lt_of_mem ‹_›))
  · exact lex_part m _ (sizeOf_param_le ‹_›)
  · exact lex_part m _ (Nat.le_add_left ..)
  · exact lex_part m _ (sizeOf_param_le ‹_›)
  · refine lex_part m _ ?_
    simp only [Recipe.weight, Return.weight]
    omega
  · refine lex_part m _ ?_
    simp only [Recipe.weight, Return.weight]
    omega
  · exact lex_part m _ (sizeOf_param_le ‹_›)
  · exact Prod.Lex.right _ (Prod.Lex.right _ (Prod.Lex.left _ _ (length_erase_lt ‹_›)))
  · exact Prod.Lex.right _ (Prod.Lex.left _ _ (length_erase_lt (TypeModel.mem_unopened h)))
  · exact Prod.Lex.left _ _ (length_erase_lt ‹_›)
  · exact Prod.Lex.left _ _ (length_erase_lt ‹_›)

/-- Builds the type of an expression at a place. -/
def build (m : TypeModel) (s : Site) (e : TypeExpr) : BuildM Outcome := do
  make m s (m.recipeBy (← meaning m s.scope e) e)

end Builder

end Crossing.Building
