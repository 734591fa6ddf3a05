import Crossing.TypeExpr.Basic
import Crossing.TypeExpr.Token
import Crossing.Text.Blank

/-!
# Reading type expressions

Recursive descent over the tokens, which always goes on with the innermost type: a `::` or a `+`
that several open types could take belongs to the one opened last. Parentheses, a leading `::` and
bounds with a question mark leave no trace in the tree. A text that is no type is a macro call if
it holds something that looks like one, and unparsed otherwise.
-/

namespace Crossing.TypeExpr

namespace Parser

/-- The value of a number token: its digits without underscores and suffix. -/
def numberValue (text : String) : Nat :=
  ((text.toList.takeWhile Token.isNumberChar).filter (· ≠ '_')).foldl
    (fun n c => 10 * n + (c.toNat - 48)) 0

/-- The arguments of a segment by their kinds. -/
structure Arguments where
  types : List TypeExpr
  lifetimes : List String
  consts : List String

/-- The bounds of a bounded type by their kinds. -/
structure Bounds where
  paths : List (List (Segment TypeExpr))
  lifetimes : List String

/-- The length of an array and the closing bracket. -/
def arrayLength : List Token → Option (ArrayLength × List Token)
  | .number text :: .mark .closeBracket :: ts => some (.literal (numberValue text) text, ts)
  | .name text :: .mark .closeBracket :: ts => some (.named text, ts)
  | _ => none

/-- A lifetime, if there is one, behind an ampersand. -/
def lifetime? : List Token → Option String × List Token
  | .lifetime text :: ts => (some text, ts)
  | ts => (none, ts)

def mutable? : List Token → Bool × List Token
  | .keyword .mutable :: ts => (true, ts)
  | ts => (false, ts)

def unchecked? : List Token → Bool × List Token
  | .keyword .unchecked :: ts => (true, ts)
  | ts => (false, ts)

/-- The calling convention, if one is given; without a name it is that of C. -/
def abi? : List Token → Option String × List Token
  | .keyword .abi :: .quoted text :: ts => (some text, ts)
  | .keyword .abi :: ts => (some "C", ts)
  | ts => (none, ts)

mutual

/-- A type. -/
def type : Nat → List Token → Option (TypeExpr × List Token)
  | 0, _ => none
  | fuel + 1, tokens =>
    match tokens with
    | .mark .openParen :: .mark .closeParen :: ts => some (.tuple [], ts)
    | .mark .openParen :: ts => do
      let (t, ts) ← type fuel ts
      match ts with
      | .mark .closeParen :: ts => pure (t, ts)
      | .mark .comma :: .mark .closeParen :: ts => pure (.tuple [t], ts)
      | .mark .comma :: ts => do
        let (elements, ts) ← types fuel ts
        pure (.tuple (t :: elements), ts)
      | _ => none
    | .mark .ampersand :: ts => do
      let (lifetime, ts) := lifetime? ts
      let (mutable, ts) := mutable? ts
      let (inner, ts) ← type fuel ts
      pure (.reference lifetime mutable inner, ts)
    | .mark .star :: .keyword .constant :: ts => do
      let (inner, ts) ← type fuel ts
      pure (.pointer false inner, ts)
    | .mark .star :: .keyword .mutable :: ts => do
      let (inner, ts) ← type fuel ts
      pure (.pointer true inner, ts)
    | .mark .openBracket :: ts => do
      let (inner, ts) ← type fuel ts
      match ts with
      | .mark .closeBracket :: ts => pure (.slice inner, ts)
      | .mark .semicolon :: ts => do
        let (length, ts) ← arrayLength ts
        pure (.array inner length, ts)
      | _ => none
    | .mark .bang :: ts => some (.never, ts)
    | .keyword .underscore :: ts => some (.infer, ts)
    | .keyword .object :: ts => do
      let (bounds, ts) ← bounds fuel ts
      pure (.bounded .object bounds.paths bounds.lifetimes, ts)
    | .keyword .anonymous :: ts => do
      let (bounds, ts) ← bounds fuel ts
      pure (.bounded .anonymous bounds.paths bounds.lifetimes, ts)
    | .keyword .unchecked :: _ => function fuel tokens
    | .keyword .abi :: _ => function fuel tokens
    | .keyword .function :: _ => function fuel tokens
    | ts => do
      let (segments, ts) ← path fuel ts
      pure (.path segments, ts)
termination_by structural fuel => fuel

/-- A function pointer. -/
def function : Nat → List Token → Option (TypeExpr × List Token)
  | 0, _ => none
  | fuel + 1, ts => do
    let (isUnsafe, ts) := unchecked? ts
    let (abi, ts) := abi? ts
    match ts with
    | .keyword .function :: .mark .openParen :: ts => do
      let (params, ts) ← inputs fuel ts
      let (ret, ts) ← result fuel ts
      pure (.function isUnsafe abi params ret, ts)
    | _ => none
termination_by structural fuel => fuel

/-- One type or more with commas between them, perhaps one behind the last, and the closing
parenthesis. -/
def types : Nat → List Token → Option (List TypeExpr × List Token)
  | 0, _ => none
  | fuel + 1, ts => do
    let (t, ts) ← type fuel ts
    match ts with
    | .mark .closeParen :: ts => pure ([t], ts)
    | .mark .comma :: .mark .closeParen :: ts => pure ([t], ts)
    | .mark .comma :: ts => do
      let (rest, ts) ← types fuel ts
      pure (t :: rest, ts)
    | _ => none
termination_by structural fuel => fuel

/-- The inputs of a function behind the opening parenthesis, perhaps none. -/
def inputs : Nat → List Token → Option (List TypeExpr × List Token)
  | 0, _ => none
  | fuel + 1, ts =>
    match ts with
    | .mark .closeParen :: ts => some ([], ts)
    | ts => types fuel ts
termination_by structural fuel => fuel

/-- The result of a function, if one is given. -/
def result : Nat → List Token → Option (Option TypeExpr × List Token)
  | 0, _ => none
  | fuel + 1, ts =>
    match ts with
    | .mark .arrow :: ts => do
      let (t, ts) ← type fuel ts
      pure (some t, ts)
    | ts => some (none, ts)
termination_by structural fuel => fuel

/-- A path, whose leading separator is dropped. -/
def path : Nat → List Token → Option (List (Segment TypeExpr) × List Token)
  | 0, _ => none
  | fuel + 1, ts =>
    match ts with
    | .mark .pathSep :: ts => segments fuel ts
    | ts => segments fuel ts
termination_by structural fuel => fuel

/-- The segments of a path. -/
def segments : Nat → List Token → Option (List (Segment TypeExpr) × List Token)
  | 0, _ => none
  | fuel + 1, ts => do
    let (s, ts) ← segment fuel ts
    match ts with
    | .mark .pathSep :: ts => do
      let (rest, ts) ← segments fuel ts
      pure (s :: rest, ts)
    | ts => pure ([s], ts)
termination_by structural fuel => fuel

/-- A segment: a name, perhaps with arguments between angle brackets or in the call form. -/
def segment : Nat → List Token → Option (Segment TypeExpr × List Token)
  | 0, _ => none
  | fuel + 1, ts =>
    match ts with
    | .name name :: .mark .less :: ts => do
      let (args, ts) ← arguments fuel ts
      pure (.plain name args.types args.lifetimes args.consts, ts)
    | .name name :: .mark .openParen :: ts => do
      let (inputs, ts) ← inputs fuel ts
      let (ret, ts) ← result fuel ts
      pure (.call name inputs ret, ts)
    | .name name :: ts => some (.plain name [] [] [], ts)
    | _ => none
termination_by structural fuel => fuel

/-- One argument or more with commas between them, perhaps one behind the last, and the closing
bracket. -/
def arguments : Nat → List Token → Option (Arguments × List Token)
  | 0, _ => none
  | fuel + 1, ts => do
    let (first, ts) ← argument fuel ts
    match ts with
    | .mark .greater :: ts => pure (first, ts)
    | .mark .comma :: .mark .greater :: ts => pure (first, ts)
    | .mark .comma :: ts => do
      let (rest, ts) ← arguments fuel ts
      pure (⟨first.types ++ rest.types, first.lifetimes ++ rest.lifetimes,
        first.consts ++ rest.consts⟩, ts)
    | _ => none
termination_by structural fuel => fuel

def argument : Nat → List Token → Option (Arguments × List Token)
  | 0, _ => none
  | fuel + 1, ts =>
    match ts with
    | .lifetime text :: ts => some (⟨[], [text], []⟩, ts)
    | .number text :: ts => some (⟨[], [], [text]⟩, ts)
    | ts => do
      let (t, ts) ← type fuel ts
      pure (⟨[t], [], []⟩, ts)
termination_by structural fuel => fuel

/-- One bound or more with plus signs between them. -/
def bounds : Nat → List Token → Option (Bounds × List Token)
  | 0, _ => none
  | fuel + 1, ts => do
    let (first, ts) ← bound fuel ts
    match ts with
    | .mark .plus :: ts => do
      let (rest, ts) ← bounds fuel ts
      pure (⟨first.paths ++ rest.paths, first.lifetimes ++ rest.lifetimes⟩, ts)
    | ts => pure (first, ts)
termination_by structural fuel => fuel

def bound : Nat → List Token → Option (Bounds × List Token)
  | 0, _ => none
  | fuel + 1, ts =>
    match ts with
    | .lifetime text :: ts => some (⟨[], [text]⟩, ts)
    | .mark .question :: ts => do
      let (_, ts) ← path fuel ts
      pure (⟨[], []⟩, ts)
    | ts => do
      let (p, ts) ← path fuel ts
      pure (⟨[p], []⟩, ts)
termination_by structural fuel => fuel

end

/-- The type that all tokens together spell. Fewer than eight calls lie between two tokens. -/
def ofTokens? (tokens : List Token) : Option TypeExpr :=
  match type (8 * tokens.length + 8) tokens with
  | some (t, []) => some t
  | _ => none

/-- Whether a text starts with the rest of a macro call behind its name. -/
def opensMacro (s : List Char) : Bool :=
  match s.dropWhile Text.isBlank with
  | '!' :: rest =>
    match rest.dropWhile Text.isBlank with
    | c :: _ => c = '(' || c = '[' || c = '\x7b'
    | [] => false
  | _ => false

/-- Whether a text holds a name, an exclamation mark and an opening bracket behind each other. -/
def holdsMacro : List Char → Bool
  | [] => false
  | c :: rest =>
    (Token.isNameStart c && opensMacro (rest.dropWhile fun c => Token.isNameChar c || c = ':'))
      || holdsMacro rest

end Parser

/-- The type that a text spells, if it spells one. -/
def parse? (s : List Char) : Option TypeExpr := (Token.scan s).bind Parser.ofTokens?

/-- Reads a type. Every text gives a tree; one that is no type is kept without the blanks at its
ends, and a blank one as it is. -/
def parse (text : String) : TypeExpr :=
  let s := Text.strip text.toList
  if s.isEmpty then .unparsed text
  else match parse? s with
    | some t => t
    | none =>
      if Parser.holdsMacro s then .macroCall (String.ofList s) else .unparsed (String.ofList s)

end Crossing.TypeExpr
