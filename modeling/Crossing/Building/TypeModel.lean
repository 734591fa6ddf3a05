import Crossing.Building.Recognizer

/-!
# What a run knows about the types of a module

The nominal types of the module with their dependencies, the width of a word, and the recognizers.
From these alone it is decided what a type expression is and how a mention of a nominal type is
taken: by its contents, by a handle, or not at all. A recursive type is cut at the mentions of its
own component that stand behind a pointer.
-/

namespace Crossing.Building

structure TypeModel where
  index : NominalIndex
  graph : NominalGraph
  wordBits : Int
  recognizers : RecognizerSet

/-- Where a type expression stands. -/
structure Site where
  /-- The modules around it. -/
  scope : List String
  /-- The nominal type whose declaration it is in. -/
  owner : Option String := none
  /-- The innermost indirection since the declaration began. -/
  via : Via := .value
  /-- Whether it is the declaration of an item itself. -/
  isDeclaration : Bool := false
  /-- The declarations, aliases and buffer structs that it is not inside of. -/
  unexpanded : List String
  unopened : List String
  unentered : List String

/-- The place of a part that stands behind `via`. A signature is an indirection only inside a
declaration. -/
def Site.inside (s : Site) (via : Via) : Site :=
  let via := match via with
    | .value => s.via
    | .function => if s.owner.isSome then .function else s.via
    | via => via
  { s with via, isDeclaration := false }

/-- How a mention of a nominal type is taken. -/
inductive Reference where
  | refuse (problem : Problem)
  | handle
  | alias (target : TypeExpr)
  | record (fields : List NativeField)
  | union (variants : List NativeVariant)

namespace TypeModel

def ofModule (m : NativeModule) (wordBits : Int) (recognizers : RecognizerSet) : TypeModel :=
  let index := NominalIndex.ofModule m
  { index, graph := .ofIndex index, wordBits, recognizers }

/-- The place of a type expression in a signature. -/
def site (m : TypeModel) (scope : List String) : Site where
  scope
  unexpanded := m.index.names
  unopened := m.index.names
  unentered := m.index.names

/-- The recipe for an expression, by what its path means. -/
def recipeBy (m : TypeModel) (meaning : Resolution) (e : TypeExpr) : Recipe :=
  m.recognizers.recipe ⟨m.wordBits, meaning⟩ e

def recipe (m : TypeModel) (scope : List String) (e : TypeExpr) : Recipe :=
  m.recipeBy (m.index.resolve e.names scope) e

/-- The place of the element type of a buffer struct. -/
def enter (s : Site) (n : Nominal) : Site :=
  { s with scope := n.scope, via := .sequence, isDeclaration := false
           unentered := s.unentered.erase n.name }

/-- The place of the target of an alias. -/
def openAlias (m : TypeModel) (s : Site) (n : Nominal) : Site :=
  { s with scope := n.scope, unopened := s.unopened.erase n.name, unentered := m.index.names }

/-- The place of the contents of a declaration. -/
def expand (m : TypeModel) (s : Site) (n : Nominal) : Site :=
  { m.site n.scope with owner := some n.name, unexpanded := s.unexpanded.erase n.name }

/-- How a mention of a struct or an enumeration is taken that could be taken by its contents. -/
def content (m : TypeModel) (s : Site) (n : Nominal) (mention : TypeExpr) (whole : Reference) :
    Reference :=
  let recurs := s.owner.any fun owner => m.graph.sameRecursive owner n.name
  let refuse := fun message => Reference.refuse (.about mention message)
  if recurs && s.via = .pointer then .handle
  else if recurs && s.via = .sequence then
    refuse ("recursive type `" ++ n.name ++ "` recurs through a sequence element")
  else if recurs && s.via = .function then
    refuse ("recursive type `" ++ n.name ++ "` recurs through a callback signature")
  else if n.hasPrivateFields then
    if s.isDeclaration || s.via = .pointer then .handle
    else
      refuse ("struct `" ++ n.name ++ "` has private fields and can only cross behind a pointer")
  else if m.graph.valueCyclic.contains n.name then
    refuse ("recursive type `" ++ n.name ++ "` has infinite size (it contains itself by value)")
  else whole

/-- How a mention of a nominal type is taken. -/
def reference (m : TypeModel) (s : Site) (n : Nominal) (mention : TypeExpr) : Reference :=
  let refuse := fun message => Reference.refuse (.about mention message)
  if !n.declaration.generics.isEmpty then
    refuse ("generic type `" ++ n.name ++ "` cannot cross the boundary")
  else if !mention.args.isEmpty then
    refuse ("type `" ++ n.name ++ "` takes no generic arguments")
  else match n.declaration.body with
    | .alias target =>
      if s.unopened.contains n.name then .alias target
      else refuse ("type alias `" ++ n.name ++ "` refers to itself")
    | .struct fields _ => m.content s n mention (.record fields)
    | .enumeration variants => m.content s n mention (.union variants)
    | .function .. | .other .. => refuse ("`" ++ n.name ++ "` is not a type")

theorem weight_recipeBy_lt (m : TypeModel) (meaning : Resolution) (e : TypeExpr) :
    (m.recipeBy meaning e).weight < sizeOf e := m.recognizers.weight_recipe_lt _ e

/-- The contents of a declaration are never those of an alias. -/
theorem content_ne_alias {m : TypeModel} {s : Site} {n : Nominal} {mention target : TypeExpr}
    {whole : Reference} (hw : whole ≠ .alias target) :
    m.content s n mention whole ≠ .alias target := by
  simp only [content]
  split
  · simp
  · split
    · simp
    · split
      · simp
      · split
        · split <;> simp
        · split
          · simp
          · exact hw

/-- An alias is opened only where it is not open already. -/
theorem mem_unopened {m : TypeModel} {s : Site} {n : Nominal} {mention target : TypeExpr}
    (h : m.reference s n mention = .alias target) : n.name ∈ s.unopened := by
  simp only [reference] at h
  split at h
  · simp at h
  · split at h
    · simp at h
    · split at h
      · split at h
        · exact List.contains_iff_mem.1 ‹_›
        · simp at h
      · exact absurd h (content_ne_alias (by simp))
      · exact absurd h (content_ne_alias (by simp))
      · simp at h
      · simp at h

end TypeModel

end Crossing.Building
