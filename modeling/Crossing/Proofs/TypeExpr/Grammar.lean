import Crossing.TypeExpr.Parser

/-!
# The grammar of type expressions

`Derives` is the grammar of type expressions over tokens, with the tree that a derivation builds. Where
a `::` or a `+` could belong to several open types, several derivations spell the same tokens; in the
greedy ones the mark belongs to the innermost type. Whatever has a derivation has a greedy one
(`greedy_of_derives`): a mark that a derivation gives to an outer type is handed down to the innermost
(`extend`).
-/

namespace Crossing.TypeExpr

open TypeExpr.Parser (Arguments Bounds numberValue)

/-- The marks that go on with an open type. -/
inductive Joint where
  | separator
  | plus
  deriving DecidableEq

def Joint.mark : Joint → Mark
  | .separator => .pathSep
  | .plus => .plus

/-- The marks that could go on with a type at the right end of a phrase. A separator goes on with a
path, and a plus with bounds. -/
structure Ends where
  separator : Bool
  plus : Bool

namespace Ends

def takes (e : Ends) : Joint → Bool
  | .separator => e.separator
  | .plus => e.plus

/-- No type is open at the right end. -/
def closed : Ends := ⟨false, false⟩

end Ends

/-- The rules of the grammar. -/
inductive Category where
  | type
  | path
  | segments
  | segment
  /-- One type or more, between parentheses. -/
  | types
  /-- What stands between the parentheses of a function, perhaps nothing. -/
  | inputs
  | result
  | arguments
  | argument
  | bounds
  | bound

/-- What a rule builds. -/
abbrev Category.Tree : Category → Type
  | .type => TypeExpr
  | .path | .segments => List (Segment TypeExpr)
  | .segment => Segment TypeExpr
  | .types | .inputs => List TypeExpr
  | .result => Option TypeExpr
  | .arguments | .argument => Arguments
  | .bounds | .bound => Bounds

/-- What an array length is read from. -/
def lengthOf? : Token → Option ArrayLength
  | .number text => some (.literal (numberValue text) text)
  | .name text => some (.named text)
  | _ => none

/-- The tokens of a calling convention; without a name it is that of C. -/
inductive Convention : Option String → List Token → Prop where
  | default : Convention none []
  | unnamed : Convention (some "C") [.keyword .abi]
  | named (name : String) : Convention (some name) [.keyword .abi, .quoted name]

def boundKeyword : BoundKind → Keyword
  | .object => .object
  | .anonymous => .anonymous

/-- The arguments of two lists of arguments, each kind in its order. -/
def joinArguments (a b : Arguments) : Arguments :=
  ⟨a.types ++ b.types, a.lifetimes ++ b.lifetimes, a.consts ++ b.consts⟩

def joinBounds (a b : Bounds) : Bounds := ⟨a.paths ++ b.paths, a.lifetimes ++ b.lifetimes⟩

/-- The derivations of the grammar. In a greedy one, no segment that another one follows could go on
with the separator between them itself, and no bound with the plus behind it. -/
inductive Derives (greedy : Bool) : (c : Category) → c.Tree → List Token → Ends → Prop where
  | path {ss : List (Segment TypeExpr)} {w : List Token} {e : Ends}
      (path : Derives greedy .path ss w e) : Derives greedy .type (.path ss) w e
  | reference {lifetime : Option String} {mutable : Bool} {t : TypeExpr} {w : List Token} {e : Ends}
      (inner : Derives greedy .type t w e) :
      Derives greedy .type (.reference lifetime mutable t)
        (.mark .ampersand :: (lifetime.map Token.lifetime).toList
          ++ (if mutable then [.keyword .mutable] else []) ++ w) e
  | pointer {mutable : Bool} {t : TypeExpr} {w : List Token} {e : Ends}
      (inner : Derives greedy .type t w e) :
      Derives greedy .type (.pointer mutable t)
        (.mark .star :: .keyword (if mutable then .mutable else .constant) :: w) e
  | slice {t : TypeExpr} {w : List Token} {e : Ends} (inner : Derives greedy .type t w e) :
      Derives greedy .type (.slice t) (.mark .openBracket :: w ++ [.mark .closeBracket]) .closed
  | array {t : TypeExpr} {length : ArrayLength} {token : Token} {w : List Token} {e : Ends}
      (inner : Derives greedy .type t w e) (spelled : lengthOf? token = some length) :
      Derives greedy .type (.array t length)
        (.mark .openBracket :: w ++ [.mark .semicolon, token, .mark .closeBracket]) .closed
  | unit : Derives greedy .type (.tuple []) [.mark .openParen, .mark .closeParen] .closed
  | parenthesized {t : TypeExpr} {w : List Token} {e : Ends}
      (inner : Derives greedy .type t w e) :
      Derives greedy .type t (.mark .openParen :: w ++ [.mark .closeParen]) .closed
  | single {t : TypeExpr} {w : List Token} {e : Ends} (inner : Derives greedy .type t w e) :
      Derives greedy .type (.tuple [t])
        (.mark .openParen :: w ++ [.mark .comma, .mark .closeParen]) .closed
  | tuple {t : TypeExpr} {ts : List TypeExpr} {w ws : List Token} {e es : Ends}
      (first : Derives greedy .type t w e) (others : Derives greedy .types ts ws es) :
      Derives greedy .type (.tuple (t :: ts))
        (.mark .openParen :: w ++ .mark .comma :: ws ++ [.mark .closeParen]) .closed
  | function {isUnsafe : Bool} {abi : Option String} {ps : List TypeExpr} {r : Option TypeExpr}
      {wa wp wr : List Token} {ep er : Ends} (convention : Convention abi wa)
      (inputs : Derives greedy .inputs ps wp ep) (result : Derives greedy .result r wr er) :
      Derives greedy .type (.function isUnsafe abi ps r)
        ((if isUnsafe then [.keyword .unchecked] else []) ++ wa
          ++ .keyword .function :: .mark .openParen :: wp ++ .mark .closeParen :: wr) er
  | bounded {kind : BoundKind} {b : Bounds} {w : List Token} {e : Ends}
      (bounds : Derives greedy .bounds b w e) :
      Derives greedy .type (.bounded kind b.paths b.lifetimes)
        (.keyword (boundKeyword kind) :: w) e
  | never : Derives greedy .type .never [.mark .bang] .closed
  | infer : Derives greedy .type .infer [.keyword .underscore] .closed
  | rooted {ss : List (Segment TypeExpr)} {w : List Token} {e : Ends}
      (segments : Derives greedy .segments ss w e) :
      Derives greedy .path ss (.mark .pathSep :: w) e
  | unrooted {ss : List (Segment TypeExpr)} {w : List Token} {e : Ends}
      (segments : Derives greedy .segments ss w e) : Derives greedy .path ss w e
  | lastSegment {s : Segment TypeExpr} {w : List Token} {e : Ends}
      (segment : Derives greedy .segment s w e) :
      Derives greedy .segments [s] w ⟨true, e.plus⟩
  | moreSegments {s : Segment TypeExpr} {ss : List (Segment TypeExpr)} {w ws : List Token}
      {e es : Ends} (segment : Derives greedy .segment s w e)
      (innermost : greedy = true → e.separator = false)
      (others : Derives greedy .segments ss ws es) :
      Derives greedy .segments (s :: ss) (w ++ .mark .pathSep :: ws) es
  | name {name : String} : Derives greedy .segment (.plain name [] [] []) [.name name] .closed
  | generic {name : String} {a : Arguments} {w : List Token} {e : Ends}
      (arguments : Derives greedy .arguments a w e) :
      Derives greedy .segment (.plain name a.types a.lifetimes a.consts)
        (.name name :: .mark .less :: w ++ [.mark .greater]) .closed
  | call {name : String} {ps : List TypeExpr} {r : Option TypeExpr} {wp wr : List Token}
      {ep er : Ends} (inputs : Derives greedy .inputs ps wp ep)
      (result : Derives greedy .result r wr er) :
      Derives greedy .segment (.call name ps r)
        (.name name :: .mark .openParen :: wp ++ .mark .closeParen :: wr) er
  | lastType {t : TypeExpr} {w : List Token} {e : Ends} (type : Derives greedy .type t w e) :
      Derives greedy .types [t] w .closed
  | trailingType {t : TypeExpr} {w : List Token} {e : Ends}
      (type : Derives greedy .type t w e) :
      Derives greedy .types [t] (w ++ [.mark .comma]) .closed
  | moreTypes {t : TypeExpr} {ts : List TypeExpr} {w ws : List Token} {e es : Ends}
      (type : Derives greedy .type t w e) (others : Derives greedy .types ts ws es) :
      Derives greedy .types (t :: ts) (w ++ .mark .comma :: ws) .closed
  | noInputs : Derives greedy .inputs [] [] .closed
  | someInputs {ts : List TypeExpr} {w : List Token} {e : Ends}
      (types : Derives greedy .types ts w e) : Derives greedy .inputs ts w .closed
  | noResult : Derives greedy .result none [] .closed
  | someResult {t : TypeExpr} {w : List Token} {e : Ends} (type : Derives greedy .type t w e) :
      Derives greedy .result (some t) (.mark .arrow :: w) e
  | lastArgument {a : Arguments} {w : List Token} {e : Ends}
      (argument : Derives greedy .argument a w e) : Derives greedy .arguments a w .closed
  | trailingArgument {a : Arguments} {w : List Token} {e : Ends}
      (argument : Derives greedy .argument a w e) :
      Derives greedy .arguments a (w ++ [.mark .comma]) .closed
  | moreArguments {a as : Arguments} {w ws : List Token} {e es : Ends}
      (argument : Derives greedy .argument a w e)
      (others : Derives greedy .arguments as ws es) :
      Derives greedy .arguments (joinArguments a as) (w ++ .mark .comma :: ws) .closed
  | typeArgument {t : TypeExpr} {w : List Token} {e : Ends}
      (type : Derives greedy .type t w e) : Derives greedy .argument ⟨[t], [], []⟩ w e
  | lifetimeArgument {l : String} :
      Derives greedy .argument ⟨[], [l], []⟩ [.lifetime l] .closed
  | constArgument {n : String} : Derives greedy .argument ⟨[], [], [n]⟩ [.number n] .closed
  | lastBound {b : Bounds} {w : List Token} {e : Ends} (bound : Derives greedy .bound b w e) :
      Derives greedy .bounds b w ⟨e.separator, true⟩
  | moreBounds {b bs : Bounds} {w ws : List Token} {e es : Ends}
      (bound : Derives greedy .bound b w e) (innermost : greedy = true → e.plus = false)
      (others : Derives greedy .bounds bs ws es) :
      Derives greedy .bounds (joinBounds b bs) (w ++ .mark .plus :: ws) es
  | pathBound {p : List (Segment TypeExpr)} {w : List Token} {e : Ends}
      (path : Derives greedy .path p w e) : Derives greedy .bound ⟨[p], []⟩ w e
  | lifetimeBound {l : String} : Derives greedy .bound ⟨[], [l]⟩ [.lifetime l] .closed
  | relaxedBound {p : List (Segment TypeExpr)} {w : List Token} {e : Ends}
      (path : Derives greedy .path p w e) :
      Derives greedy .bound ⟨[], []⟩ (.mark .question :: w) e

/-- The tokens go on with an open type behind a mark. -/
def Joint.Continues : Joint → List Token → Prop
  | .separator, w => ∃ ss e, Derives true .segments ss w e
  | .plus, w => ∃ b e, Derives true .bounds b w e

/-- Behind a phrase with a type at its right end that a mark could go on with, the mark and what goes
on belong to the innermost such type. -/
theorem extend {joint : Joint} {v : List Token} (hv : joint.Continues v) {c : Category} {x : c.Tree}
    {w : List Token} {e : Ends} (h : Derives true c x w e) (hopen : e.takes joint = true) :
    ∃ x' e', Derives true c x' (w ++ .mark joint.mark :: v) e' := by
  induction h with
  | path _ ih =>
    obtain ⟨ss, e, h⟩ := ih hopen
    exact ⟨_, e, .path h⟩
  | @reference lifetime mutable _ _ _ _ ih =>
    obtain ⟨t, e, h⟩ := ih hopen
    refine ⟨.reference lifetime mutable t, e, ?_⟩
    rw [List.append_assoc]
    exact .reference h
  | @pointer mutable _ _ _ _ ih =>
    obtain ⟨t, e, h⟩ := ih hopen
    exact ⟨.pointer mutable t, e, .pointer h⟩
  | @function isUnsafe abi ps _ wa wp _ _ _ convention inputs _ _ ih =>
    obtain ⟨r, e, h⟩ := ih hopen
    refine ⟨.function isUnsafe abi ps r, e, ?_⟩
    have hfunction : Derives true .type (.function isUnsafe abi ps r) _ e :=
      .function convention inputs h
    simpa only [List.append_assoc, List.cons_append] using hfunction
  | @bounded kind _ _ _ _ ih =>
    obtain ⟨b, e, h⟩ := ih hopen
    exact ⟨.bounded kind b.paths b.lifetimes, e, .bounded h⟩
  | rooted _ ih =>
    obtain ⟨ss, e, h⟩ := ih hopen
    exact ⟨ss, e, .rooted h⟩
  | unrooted _ ih =>
    obtain ⟨ss, e, h⟩ := ih hopen
    exact ⟨ss, e, .unrooted h⟩
  | @lastSegment s w e segment ih =>
    by_cases hinner : e.takes joint = true
    · obtain ⟨s, e, h⟩ := ih hinner
      exact ⟨[s], _, .lastSegment h⟩
    · cases joint with
      | separator =>
        obtain ⟨ss, es, hss⟩ := hv
        exact ⟨s :: ss, es, .moreSegments segment (fun _ => Bool.eq_false_iff.2 hinner) hss⟩
      | plus => exact absurd hopen hinner
  | @moreSegments s _ w _ _ _ segment innermost _ _ ih =>
    obtain ⟨ss, e, h⟩ := ih hopen
    refine ⟨s :: ss, e, ?_⟩
    rw [List.append_assoc, List.cons_append]
    exact .moreSegments segment innermost h
  | @call name ps _ wp _ _ _ inputs _ _ ih =>
    obtain ⟨r, e, h⟩ := ih hopen
    refine ⟨.call name ps r, e, ?_⟩
    have hcall : Derives true .segment (.call name ps r) _ e := .call inputs h
    simpa only [List.append_assoc, List.cons_append] using hcall
  | someResult _ ih =>
    obtain ⟨t, e, h⟩ := ih hopen
    exact ⟨some t, e, .someResult h⟩
  | typeArgument _ ih =>
    obtain ⟨t, e, h⟩ := ih hopen
    exact ⟨_, e, .typeArgument h⟩
  | @lastBound b w e bound ih =>
    by_cases hinner : e.takes joint = true
    · obtain ⟨b, e, h⟩ := ih hinner
      exact ⟨b, _, .lastBound h⟩
    · cases joint with
      | separator => exact absurd hopen hinner
      | plus =>
        obtain ⟨bs, es, hbs⟩ := hv
        exact ⟨_, es, .moreBounds bound (fun _ => Bool.eq_false_iff.2 hinner) hbs⟩
  | @moreBounds b _ w _ _ _ bound innermost _ _ ih =>
    obtain ⟨bs, e, h⟩ := ih hopen
    refine ⟨joinBounds b bs, e, ?_⟩
    rw [List.append_assoc, List.cons_append]
    exact .moreBounds bound innermost h
  | pathBound _ ih =>
    obtain ⟨p, e, h⟩ := ih hopen
    exact ⟨_, e, .pathBound h⟩
  | relaxedBound _ ih =>
    obtain ⟨p, e, h⟩ := ih hopen
    exact ⟨_, e, .relaxedBound h⟩
  | _ => cases joint <;> simp [Ends.takes, Ends.closed] at hopen

/-- A segment that could go on with the separator takes the segments behind it. -/
theorem exists_segments {s : Segment TypeExpr} {ss : List (Segment TypeExpr)} {w ws : List Token}
    {e es : Ends} (h : Derives true .segment s w e) (hs : Derives true .segments ss ws es) :
    ∃ ss' e', Derives true .segments ss' (w ++ .mark .pathSep :: ws) e' := by
  cases hopen : e.separator with
  | false => exact ⟨s :: ss, es, .moreSegments h (fun _ => hopen) hs⟩
  | true =>
    have hcontinues : Joint.separator.Continues ws := ⟨ss, es, hs⟩
    obtain ⟨s', e', h'⟩ := extend hcontinues h hopen
    exact ⟨[s'], _, .lastSegment h'⟩

/-- A bound that could go on with the plus takes the bounds behind it. -/
theorem exists_bounds {b bs : Bounds} {w ws : List Token} {e es : Ends}
    (h : Derives true .bound b w e) (hs : Derives true .bounds bs ws es) :
    ∃ bs' e', Derives true .bounds bs' (w ++ .mark .plus :: ws) e' := by
  cases hopen : e.plus with
  | false => exact ⟨_, es, .moreBounds h (fun _ => hopen) hs⟩
  | true =>
    have hcontinues : Joint.plus.Continues ws := ⟨bs, es, hs⟩
    obtain ⟨b', e', h'⟩ := extend hcontinues h hopen
    exact ⟨b', _, .lastBound h'⟩

/-- What has a derivation has a greedy one. -/
theorem greedy_of_derives {c : Category} {x : c.Tree} {w : List Token} {e : Ends}
    (h : Derives false c x w e) : ∃ x' e', Derives true c x' w e' := by
  induction h with
  | path _ ih =>
    obtain ⟨ss, e, h⟩ := ih
    exact ⟨_, e, .path h⟩
  | reference _ ih =>
    obtain ⟨t, e, h⟩ := ih
    exact ⟨_, e, .reference h⟩
  | pointer _ ih =>
    obtain ⟨t, e, h⟩ := ih
    exact ⟨_, e, .pointer h⟩
  | slice _ ih =>
    obtain ⟨t, e, h⟩ := ih
    exact ⟨_, _, .slice h⟩
  | array _ spelled ih =>
    obtain ⟨t, e, h⟩ := ih
    exact ⟨_, _, .array h spelled⟩
  | unit => exact ⟨_, _, .unit⟩
  | parenthesized _ ih =>
    obtain ⟨t, e, h⟩ := ih
    exact ⟨_, _, .parenthesized h⟩
  | single _ ih =>
    obtain ⟨t, e, h⟩ := ih
    exact ⟨_, _, .single h⟩
  | tuple _ _ ih ihs =>
    obtain ⟨t, e, h⟩ := ih
    obtain ⟨ts, es, hs⟩ := ihs
    exact ⟨_, _, .tuple h hs⟩
  | function convention _ _ ihp ihr =>
    obtain ⟨ps, ep, hp⟩ := ihp
    obtain ⟨r, er, hr⟩ := ihr
    exact ⟨_, _, .function convention hp hr⟩
  | bounded _ ih =>
    obtain ⟨b, e, h⟩ := ih
    exact ⟨_, e, .bounded h⟩
  | never => exact ⟨_, _, .never⟩
  | infer => exact ⟨_, _, .infer⟩
  | rooted _ ih =>
    obtain ⟨ss, e, h⟩ := ih
    exact ⟨ss, e, .rooted h⟩
  | unrooted _ ih =>
    obtain ⟨ss, e, h⟩ := ih
    exact ⟨ss, e, .unrooted h⟩
  | lastSegment _ ih =>
    obtain ⟨s, e, h⟩ := ih
    exact ⟨[s], _, .lastSegment h⟩
  | moreSegments _ _ _ ih ihs =>
    obtain ⟨s, e, h⟩ := ih
    obtain ⟨ss, es, hs⟩ := ihs
    exact exists_segments h hs
  | name => exact ⟨_, _, .name⟩
  | generic _ ih =>
    obtain ⟨a, e, h⟩ := ih
    exact ⟨_, _, .generic h⟩
  | call _ _ ihp ihr =>
    obtain ⟨ps, ep, hp⟩ := ihp
    obtain ⟨r, er, hr⟩ := ihr
    exact ⟨_, _, .call hp hr⟩
  | lastType _ ih =>
    obtain ⟨t, e, h⟩ := ih
    exact ⟨_, _, .lastType h⟩
  | trailingType _ ih =>
    obtain ⟨t, e, h⟩ := ih
    exact ⟨_, _, .trailingType h⟩
  | moreTypes _ _ ih ihs =>
    obtain ⟨t, e, h⟩ := ih
    obtain ⟨ts, es, hs⟩ := ihs
    exact ⟨_, _, .moreTypes h hs⟩
  | noInputs => exact ⟨_, _, .noInputs⟩
  | someInputs _ ih =>
    obtain ⟨ts, e, h⟩ := ih
    exact ⟨_, _, .someInputs h⟩
  | noResult => exact ⟨_, _, .noResult⟩
  | someResult _ ih =>
    obtain ⟨t, e, h⟩ := ih
    exact ⟨_, e, .someResult h⟩
  | lastArgument _ ih =>
    obtain ⟨a, e, h⟩ := ih
    exact ⟨_, _, .lastArgument h⟩
  | trailingArgument _ ih =>
    obtain ⟨a, e, h⟩ := ih
    exact ⟨_, _, .trailingArgument h⟩
  | moreArguments _ _ ih ihs =>
    obtain ⟨a, e, h⟩ := ih
    obtain ⟨as, es, hs⟩ := ihs
    exact ⟨_, _, .moreArguments h hs⟩
  | typeArgument _ ih =>
    obtain ⟨t, e, h⟩ := ih
    exact ⟨_, e, .typeArgument h⟩
  | lifetimeArgument => exact ⟨_, _, .lifetimeArgument⟩
  | constArgument => exact ⟨_, _, .constArgument⟩
  | lastBound _ ih =>
    obtain ⟨b, e, h⟩ := ih
    exact ⟨b, _, .lastBound h⟩
  | moreBounds _ _ _ ih ihs =>
    obtain ⟨b, e, h⟩ := ih
    obtain ⟨bs, es, hs⟩ := ihs
    exact exists_bounds h hs
  | pathBound _ ih =>
    obtain ⟨p, e, h⟩ := ih
    exact ⟨_, e, .pathBound h⟩
  | lifetimeBound => exact ⟨_, _, .lifetimeBound⟩
  | relaxedBound _ ih =>
    obtain ⟨p, e, h⟩ := ih
    exact ⟨_, e, .relaxedBound h⟩

/-- A greedy derivation is a derivation. -/
theorem derives_of_greedy {c : Category} {x : c.Tree} {w : List Token} {e : Ends}
    (h : Derives true c x w e) : Derives false c x w e := by
  induction h with
  | path _ ih => exact .path ih
  | reference _ ih => exact .reference ih
  | pointer _ ih => exact .pointer ih
  | slice _ ih => exact .slice ih
  | array _ spelled ih => exact .array ih spelled
  | unit => exact .unit
  | parenthesized _ ih => exact .parenthesized ih
  | single _ ih => exact .single ih
  | tuple _ _ ih ihs => exact .tuple ih ihs
  | function convention _ _ ihp ihr => exact .function convention ihp ihr
  | bounded _ ih => exact .bounded ih
  | never => exact .never
  | infer => exact .infer
  | rooted _ ih => exact .rooted ih
  | unrooted _ ih => exact .unrooted ih
  | lastSegment _ ih => exact .lastSegment ih
  | moreSegments _ _ _ ih ihs => exact .moreSegments ih nofun ihs
  | name => exact .name
  | generic _ ih => exact .generic ih
  | call _ _ ihp ihr => exact .call ihp ihr
  | lastType _ ih => exact .lastType ih
  | trailingType _ ih => exact .trailingType ih
  | moreTypes _ _ ih ihs => exact .moreTypes ih ihs
  | noInputs => exact .noInputs
  | someInputs _ ih => exact .someInputs ih
  | noResult => exact .noResult
  | someResult _ ih => exact .someResult ih
  | lastArgument _ ih => exact .lastArgument ih
  | trailingArgument _ ih => exact .trailingArgument ih
  | moreArguments _ _ ih ihs => exact .moreArguments ih ihs
  | typeArgument _ ih => exact .typeArgument ih
  | lifetimeArgument => exact .lifetimeArgument
  | constArgument => exact .constArgument
  | lastBound _ ih => exact .lastBound ih
  | moreBounds _ _ _ ih ihs => exact .moreBounds ih nofun ihs
  | pathBound _ ih => exact .pathBound ih
  | lifetimeBound => exact .lifetimeBound
  | relaxedBound _ ih => exact .relaxedBound ih

end Crossing.TypeExpr
