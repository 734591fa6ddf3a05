import Crossing.TypeExpr.Basic

/-!
# The names in a type expression

What a path names, and when it names something of the standard library: a bare name does, and so
does a path under one of the roots `std`, `core`, `alloc` and `libc`. A bounded type is callable
when one of its bounds is a call trait in the call form.
-/

namespace Crossing.TypeExpr

/-- The segments of a path; none for other types. -/
def segments : TypeExpr → List (Segment TypeExpr)
  | .path ss => ss
  | _ => []

/-- The names of a path, in order. -/
def names (t : TypeExpr) : List String := t.segments.map (·.name)

/-- The path with its names only; empty for other types. -/
def pathName (t : TypeExpr) : String := "::".intercalate t.names

/-- The roots of the standard library. -/
def standardRoots : List String := ["std", "core", "alloc", "libc"]

/-- The last name of a bare path or of a path under a standard root. -/
def standardName? (t : TypeExpr) : Option String :=
  match t.names with
  | [] => none
  | [name] => some name
  | root :: rest => if standardRoots.contains root then rest.getLast? else none

/-- The type arguments of the last segment of a path. -/
def args (t : TypeExpr) : List TypeExpr :=
  match t.segments.getLast? with
  | some s => s.args
  | none => []

/-- Whether the type is one of some standard names without arguments. -/
def isPlain (t : TypeExpr) (names : List String) : Bool :=
  t.standardName?.any names.contains && t.args.isEmpty

/-- The argument of a standard wrapper with one of some names. -/
def wrapped? (t : TypeExpr) (names : List String) : Option TypeExpr :=
  match t.standardName?, t.segments.getLast? with
  | some name, some (.plain _ [arg] _ _) => if names.contains name then some arg else none
  | _, _ => none

/-- The traits of callable values. -/
def callTraits : List String := ["Fn", "FnMut", "FnOnce"]

/-- Whether a bound is a call trait in the call form. -/
def isCallBound (bound : List (Segment TypeExpr)) : Bool :=
  match bound.getLast? with
  | some s => callTraits.contains s.name && s.isCall
  | none => false

/-- The first call bound of a bounded type: its inputs and its result. -/
def callBound? : TypeExpr → Option (List TypeExpr × Option TypeExpr)
  | .bounded _ bounds _ =>
    (bounds.find? isCallBound).bind fun b => b.getLast?.map fun s => (s.args, s.ret)
  | _ => none

/-- Whether the type is bounded by a call trait. -/
def isCallable (t : TypeExpr) : Bool := t.callBound?.isSome

end Crossing.TypeExpr
