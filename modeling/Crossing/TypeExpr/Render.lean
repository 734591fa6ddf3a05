import Crossing.TypeExpr.Basic

/-!
# Writing type expressions

The canonical spelling of a type: arguments by kind with lifetimes first, bounds before lifetimes,
and no more blanks than are needed.
-/

namespace Crossing.TypeExpr

/-- A name with arguments between angle brackets, if there are any. -/
def withArguments (name : String) (arguments : List String) : String :=
  if arguments.isEmpty then name else name ++ "<" ++ ", ".intercalate arguments ++ ">"

def BoundKind.word : BoundKind → String
  | .object => "dyn"
  | .anonymous => "impl"

/-- The spelling of an array length: the value of a literal, or the name. -/
def lengthText : ArrayLength → String
  | .literal n _ => toString n
  | .named name => name

mutual

/-- The canonical spelling of a type. -/
def render : TypeExpr → String
  | .path ss => renderPath ss
  | .reference lifetime mutable t =>
    "&" ++ (match lifetime with
      | some l => l ++ " "
      | none => "") ++ (if mutable then "mut " else "") ++ render t
  | .pointer mutable t => (if mutable then "*mut " else "*const ") ++ render t
  | .slice t => "[" ++ render t ++ "]"
  | .array t n => "[" ++ render t ++ "; " ++ lengthText n ++ "]"
  | .tuple [t] => "(" ++ render t ++ ",)"
  | .tuple ts => "(" ++ ", ".intercalate (renderList ts) ++ ")"
  | .function isUnsafe abi ps r =>
    (if isUnsafe then "unsafe " else "") ++ (match abi with
      | some a => "extern \"" ++ a ++ "\" "
      | none => "") ++ "fn(" ++ ", ".intercalate (renderList ps) ++ ")" ++ renderResult r
  | .bounded k bs ls =>
    BoundKind.word k ++ " " ++ " + ".intercalate (renderBounds bs ++ ls)
  | .never => "!"
  | .infer => "_"
  | .macroCall s => s
  | .unparsed s => s
termination_by structural t => t

def renderList : List TypeExpr → List String
  | [] => []
  | t :: ts => render t :: renderList ts
termination_by structural ts => ts

/-- The result of a function behind its inputs. -/
def renderResult : Option TypeExpr → String
  | some t => " -> " ++ render t
  | none => ""
termination_by structural t => t

def renderSegment : Segment TypeExpr → String
  | .plain name ts ls cs => withArguments name (ls ++ renderList ts ++ cs)
  | .call name ts r => name ++ "(" ++ ", ".intercalate (renderList ts) ++ ")" ++ renderResult r
termination_by structural s => s

def renderPath : List (Segment TypeExpr) → String
  | [] => ""
  | [s] => renderSegment s
  | s :: ss => renderSegment s ++ "::" ++ renderPath ss
termination_by structural ss => ss

def renderBounds : List (List (Segment TypeExpr)) → List String
  | [] => []
  | b :: bs => renderPath b :: renderBounds bs
termination_by structural bs => bs

end

end Crossing.TypeExpr
