import Crossing.Building.Builder

/-!
# What building yields

`Yields` says what comes of following a recipe at a place, and of the contents of a nominal type,
without a builder: nothing is remembered, and no place knows which declarations it is inside of.
Parts are listed with their outcomes, in the order of the recipe, so that an induction over a
derivation has one hypothesis for each part.
-/

namespace Crossing.Building

/-- The place as it is where no declaration has been entered yet. -/
def Site.whole (m : TypeModel) (s : Site) : Site := { s with unexpanded := m.index.names }

/-- The place of the contents of a declaration. -/
def TypeModel.inner (m : TypeModel) (n : Nominal) : Site :=
  { m.site n.scope with owner := some n.name }

/-- The fields of a declaration with what came of their types. -/
abbrev MadeFields := List ((String × NativeField) × Outcome)

/-- The fields of a built type, or what is wrong with them. -/
def MadeFields.fields (made : MadeFields) : Findings Problem (List (Field InterfaceType)) :=
  Findings.all (made.map fun p => Builder.fieldOf p.1.1 p.2)

def variantOf (name : String) (v : TaggedVariant) (made : MadeFields) :
    Findings Problem (Variant InterfaceType) :=
  Findings.combine (fun _ fields => ⟨v.variant.name, v.tag, fields⟩) (.ofProblems (v.problems name))
    made.fields

def unionOf (name : String) (made : List (TaggedVariant × MadeFields)) : Outcome :=
  Findings.combine (fun vs _ => .taggedUnion name vs)
    (Findings.all (made.map fun p => variantOf name p.1 p.2))
    (.ofProblems (rangeProblems name (made.map (·.1.tag))))

/-- Something to build: what a recipe says at a place, or the contents of a nominal type. -/
inductive Task where
  | follow (site : Site) (recipe : Recipe)
  | contents (nominal : Nominal)

/-- What comes of a task. -/
inductive Yields (m : TypeModel) : Task → Outcome → Prop where
  | exact {s : Site} (t : InterfaceType) : Yields m (.follow s (.exact t)) (.ok t)
  | refuse {s : Site} (problem : Problem) :
      Yields m (.follow s (.refuse problem)) (.error [problem])
  | wrap {s : Site} {via : Via} {e : TypeExpr} {w : Wrapper} {t : InterfaceType} {o : Outcome}
      (part : Yields m (.follow (s.inside via) (m.recipe s.scope e)) (.ok t))
      (around : w.around t = .ok o) : Yields m (.follow s (.wrap via e w)) o
  | wrapFailed {s : Site} {via : Via} {e : TypeExpr} {w : Wrapper} {ps : List Problem}
      (part : Yields m (.follow (s.inside via) (m.recipe s.scope e)) (.error ps)) :
      Yields m (.follow s (.wrap via e w)) (.error ps)
  | tuple {s : Site} {made : List (TypeExpr × Outcome)}
      (parts : ∀ p ∈ made, Yields m (.follow (s.inside .value) (m.recipe s.scope p.1)) p.2) :
      Yields m (.follow s (.tuple (made.map (·.1))))
        ((Findings.all (made.map (·.2))).map Builder.tupleOf)
  | function {s : Site} {made : List (TypeExpr × Outcome)} {ret : TypeExpr} {o : Outcome}
      {holding : Holding}
      (params : ∀ p ∈ made, Yields m (.follow (s.inside .function) (m.recipe s.scope p.1)) p.2)
      (result : Yields m (.follow (s.inside .function) (m.recipe s.scope ret)) o) :
      Yields m (.follow s (.function (made.map (·.1)) (.value ret) holding))
        (Builder.signatureOf holding (made.map (·.2)) (o.map (·, .never)))
  | fallible {s : Site} {made : List (TypeExpr × Outcome)} {ret error : TypeExpr} {o oe : Outcome}
      {holding : Holding}
      (params : ∀ p ∈ made, Yields m (.follow (s.inside .function) (m.recipe s.scope p.1)) p.2)
      (result : Yields m (.follow (s.inside .function) (m.recipe s.scope ret)) o)
      (failure : Yields m (.follow (s.inside .function) (m.recipe s.scope error)) oe) :
      Yields m (.follow s (.function (made.map (·.1)) (.fallible ret error) holding))
        (Builder.signatureOf holding (made.map (·.2))
          (Findings.combine (fun t e => (t, .typed e)) o oe))
  | malformed {s : Site} {made : List (TypeExpr × Outcome)} {problem : Problem} {holding : Holding}
      (params : ∀ p ∈ made, Yields m (.follow (s.inside .function) (m.recipe s.scope p.1)) p.2) :
      Yields m (.follow s (.function (made.map (·.1)) (.malformed problem) holding))
        (Builder.signatureOf holding (made.map (·.2)) (.error [problem]))
  | buffer {s : Site} {n : Nominal} {element : TypeExpr} {holding : Holding} {o : Outcome}
      (part : Yields m (.follow (TypeModel.enter s n) (m.recipe n.scope element)) o) :
      Yields m (.follow s (.buffer n element holding)) (o.map (.buffer · holding))
  | refused {s : Site} {n : Nominal} {mention : TypeExpr} {problem : Problem}
      (reference : m.reference s n mention = .refuse problem) :
      Yields m (.follow s (.named n mention)) (.error [problem])
  /-- A handle has the number of its name among those that are handed out as handles. -/
  | handle {s : Site} {n : Nominal} {mention : TypeExpr} {number : Nat}
      (reference : m.reference s n mention = .handle)
      (reserved : (m.index.handled m.graph).idxOf? n.name = some number) :
      Yields m (.follow s (.named n mention)) (.ok (.handle number n.name))
  | opened {s : Site} {n : Nominal} {mention target : TypeExpr} {o : Outcome}
      (reference : m.reference s n mention = .alias target)
      (part : Yields m (.follow (m.openAlias s n) (m.recipe n.scope target)) o) :
      Yields m (.follow s (.named n mention)) o
  | struct {s : Site} {n : Nominal} {mention : TypeExpr} {fields : List NativeField} {o : Outcome}
      (reference : m.reference s n mention = .record fields)
      (whole : Yields m (.contents n) o) : Yields m (.follow s (.named n mention)) o
  | emptyEnumeration {s : Site} {n : Nominal} {mention : TypeExpr}
      (reference : m.reference s n mention = .union []) :
      Yields m (.follow s (.named n mention))
        (.error [{ message := "enum `" ++ n.name ++ "` has no variants" }])
  | enumeration {s : Site} {n : Nominal} {mention : TypeExpr} {v : NativeVariant}
      {vs : List NativeVariant} {o : Outcome}
      (reference : m.reference s n mention = .union (v :: vs))
      (whole : Yields m (.contents n) o) : Yields m (.follow s (.named n mention)) o
  | record {n : Nominal} {fields : List NativeField} {made : MadeFields}
      (body : n.structFields? = some fields) (labels : made.map (·.1) = labelledFields 0 fields)
      (parts : ∀ p ∈ made, Yields m (.follow (m.inner n) (m.recipe n.scope p.1.2.type)) p.2) :
      Yields m (.contents n) (made.fields.map (.record n.name))
  | union {n : Nominal} {variants : List NativeVariant} {made : List (TaggedVariant × MadeFields)}
      (body : n.declaration.body = .enumeration variants)
      (tags : made.map (·.1) = tagVariants 0 [] variants)
      (labels : ∀ v ∈ made, v.2.map (·.1) = labelledFields 0 v.1.variant.fields)
      (parts : ∀ v ∈ made, ∀ p ∈ v.2,
        Yields m (.follow (m.inner n) (m.recipe n.scope p.1.2.type)) p.2) :
      Yields m (.contents n) (unionOf n.name made)

end Crossing.Building
