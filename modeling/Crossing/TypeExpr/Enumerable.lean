import Crossing.TypeExpr.Name
import Crossing.TypeExpr.Render

/-!
# Types that can be enumerated

A type can be enumerated when every part of it says on its own which type it is. `obstacles`
lists, from the outside in and from left to right, the parts that do not: macro calls, texts that
are no types, `_`, generic parameters, `Self`, arrays whose length is a name, and bounded types
without a call trait.
-/

namespace Crossing.TypeExpr

/-- Why a path on its own names no type: it is a generic parameter, or starts with `Self`. -/
def pathObstacles (generics : List String) (segments : List (Segment TypeExpr)) : List String :=
  match segments.map (·.name) with
  | [] => []
  | head :: rest =>
    if rest.isEmpty && generics.contains head then
      ["generic parameter `" ++ head ++ "` is not a concrete type"]
    else if head == "Self" then ["`Self` does not name a type outside an impl"]
    else []

/-- Why a type stands in the way itself, whatever its parts are. -/
def ownObstacles (generics : List String) : TypeExpr → List String
  | .macroCall text => ["type `" ++ text ++ "` requires macro expansion"]
  | .unparsed text => ["type `" ++ text ++ "` could not be decoded"]
  | .infer => ["`_` is not a concrete type"]
  | .path ss => pathObstacles generics ss
  | .array _ (.named name) => ["array length `" ++ name ++ "` is not a literal"]
  | .bounded k bs ls =>
    if isCallable (.bounded k bs ls) then []
    else ["trait object `" ++ render (.bounded k bs ls) ++ "` is not callable"]
  | _ => []

mutual

/-- Why a type cannot be enumerated; empty when it can. -/
def obstacles (generics : List String) : TypeExpr → List String
  | .path ss => ownObstacles generics (.path ss) ++ obstaclesPath generics ss
  | .reference _ _ t => obstacles generics t
  | .pointer _ t => obstacles generics t
  | .slice t => obstacles generics t
  | .array t n => ownObstacles generics (.array t n) ++ obstacles generics t
  | .tuple ts => obstaclesList generics ts
  | .function _ _ ps r => obstaclesList generics ps ++ obstaclesOption generics r
  | .bounded k bs ls =>
    ownObstacles generics (.bounded k bs ls) ++ obstaclesBounds generics bs
  | .never => []
  | .infer => ownObstacles generics .infer
  | .macroCall s => ownObstacles generics (.macroCall s)
  | .unparsed s => ownObstacles generics (.unparsed s)
termination_by structural t => t

def obstaclesList (generics : List String) : List TypeExpr → List String
  | [] => []
  | t :: ts => obstacles generics t ++ obstaclesList generics ts
termination_by structural ts => ts

def obstaclesOption (generics : List String) : Option TypeExpr → List String
  | some t => obstacles generics t
  | none => []
termination_by structural t => t

def obstaclesSegment (generics : List String) : Segment TypeExpr → List String
  | .plain _ ts _ _ => obstaclesList generics ts
  | .call _ ts r => obstaclesList generics ts ++ obstaclesOption generics r
termination_by structural s => s

def obstaclesPath (generics : List String) : List (Segment TypeExpr) → List String
  | [] => []
  | s :: ss => obstaclesSegment generics s ++ obstaclesPath generics ss
termination_by structural ss => ss

def obstaclesBounds (generics : List String) : List (List (Segment TypeExpr)) → List String
  | [] => []
  | b :: bs => obstaclesPath generics b ++ obstaclesBounds generics bs
termination_by structural bs => bs

end

end Crossing.TypeExpr
