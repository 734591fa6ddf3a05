import Crossing.Native.Declaration
import Crossing.QualifiedName

/-!
# The declarations of a module tree

Every declaration of a tree of modules in one order, a module's own before those of the modules
inside it, each with the scope it is found in.
-/

namespace Crossing.NativeModule

/-- Where a declaration is found. -/
structure Scope where
  /-- The names of the modules around it, from the root. -/
  modules : List String
  /-- The modules around it below the root. -/
  path : List String
  /-- The qualified names of the modules around it that are not visible. -/
  hidden : List String

def Scope.qualify (s : Scope) (name : String) : String := QualifiedName.join (s.modules ++ [name])

/-- The scope of a module inside another. -/
def Scope.enter (s : Scope) (child : NativeModule) : Scope where
  modules := s.modules ++ [child.name]
  path := s.path ++ [child.name]
  hidden := s.hidden
    ++ if child.visibility.crossesBoundary then [] else [s.qualify child.name]

mutual

/-- Every declaration of a module tree with its scope, a module's own before its children's. -/
def declarationsFrom (scope : Scope) : NativeModule → List (Scope × Declaration)
  | ⟨_, items, children, _, _⟩ => items.map (scope, ·) ++ declarationsInside scope children
termination_by structural m => m

def declarationsInside (scope : Scope) : List NativeModule → List (Scope × Declaration)
  | [] => []
  | m :: ms => declarationsFrom (scope.enter m) m ++ declarationsInside scope ms
termination_by structural ms => ms

end

def declarations (m : NativeModule) : List (Scope × Declaration) :=
  declarationsFrom ⟨[m.name], [], []⟩ m

end Crossing.NativeModule
