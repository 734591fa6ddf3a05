import Crossing.Building.Recipe
import Crossing.Text.Letter

/-!
# Rules for type expressions

Each rule knows one family of type expressions and has a recipe for its members. Rules overlap;
which one counts is a matter of their ranks. What rules can answer at all is said once
(`Rule.Answers`). The parts of a recipe are smaller than the expression it is for
(`Rule.Answers.weight_lt`).
-/

namespace Crossing.Building

open TypeExpr (isPlain wrapped? isCallable callBound? standardName? args)

/-- What a rule can see besides the expression. -/
structure Outlook where
  wordBits : Int
  /-- What the path that the expression is means where it stands. -/
  meaning : Resolution

/-- What a fixed rule says about its expressions. -/
inductive FixedAnswer where
  | type (type : InterfaceType)
  | refuse (message : String)
  /-- The parts of a type that breaks a rule of its kind, and which rule that is. -/
  | illFormed (parts : List InterfaceType) (reason : String)

/-- The recipe of a fixed answer for an expression. -/
def FixedAnswer.recipe (e : TypeExpr) : FixedAnswer → Recipe
  | .type t => .exact t
  | .refuse message => .refuse (.about e message)
  | .illFormed parts reason => .illFormed parts reason

/-- A family of type expressions. -/
inductive Rule where
  | unit
  | primitive
  | never
  | text
  | sequence
  | callable
  | optional
  | result
  | pointer
  | tuple
  | structuralSequence
  | nominal
  | unknown
  /-- A standard name with a fixed answer; without a name, everything that has no standard name. -/
  | fixed (name : Option String) (answer : FixedAnswer)

namespace Rule

/-- The primitive types by their names, with those of the foreign interface of C; some are as wide
as a word. -/
def primitives (wordBits : Int) : List (String × InterfaceType) :=
  [("i8", .int 8 true), ("i16", .int 16 true), ("i32", .int 32 true), ("i64", .int 64 true),
    ("i128", .int 128 true), ("isize", .int wordBits true), ("u8", .int 8 false),
    ("u16", .int 16 false), ("u32", .int 32 false), ("u64", .int 64 false),
    ("u128", .int 128 false), ("usize", .int wordBits false), ("f32", .float 32),
    ("f64", .float 64), ("bool", .bool), ("char", .char), ("c_char", .int 8 true),
    ("c_schar", .int 8 true), ("c_uchar", .int 8 false), ("c_short", .int 16 true),
    ("c_ushort", .int 16 false), ("c_int", .int 32 true), ("c_uint", .int 32 false),
    ("c_long", .int wordBits true), ("c_ulong", .int wordBits false),
    ("c_longlong", .int 64 true), ("c_ulonglong", .int 64 false), ("c_float", .float 32),
    ("c_double", .float 64), ("size_t", .int wordBits false), ("ssize_t", .int wordBits true)]

def primitive? (wordBits : Int) (e : TypeExpr) : Option InterfaceType :=
  if e.args.isEmpty then e.standardName?.bind fun name => (primitives wordBits).lookup name
  else none

/-- The encoding of a text type without a size of its own. -/
def unsizedText? (e : TypeExpr) : Option TextEncoding :=
  if e.isPlain ["str"] then some .utf8
  else if e.isPlain ["CStr"] then some .cString
  else none

/-- The encoding and holding of a text type. -/
def text? (e : TypeExpr) : Option (TextEncoding × Holding) :=
  if e.isPlain ["String"] then some (.utf8, .owned)
  else if e.isPlain ["CString"] then some (.cString, .owned)
  else match e with
    | .reference _ _ t => (unsizedText? t).map (·, .borrowed)
    | e => ((e.wrapped? ["Box"]).bind unsizedText?).map (·, .owned)

def textRecipe? (e : TypeExpr) : Option Recipe :=
  match text? e with
  | some (encoding, holding) => some (.exact (.text encoding holding))
  | none =>
    if e.isPlain ["str", "CStr"] then
      some (.refuse (.about e
        ("unsized text `" ++ e.render ++ "` must be behind a reference or Box")))
    else none

def sequenceRecipe? (e : TypeExpr) : Option Recipe :=
  match e with
  | .array t n => some (.wrap .value t (.array n))
  | .slice _ =>
    some (.refuse (.about e
      ("unsized slice `" ++ e.render ++ "` must be behind a reference or Box")))
  | .reference _ _ (.slice t) => some (.wrap .sequence t (.buffer .borrowed))
  | e =>
    match e.wrapped? ["Vec"], e.wrapped? ["Box"] with
    | some t, _ => some (.wrap .sequence t (.buffer .owned))
    | none, some (.slice t) => some (.wrap .sequence t (.buffer .owned))
    | none, _ => none

/-- The function type inside a callable one, and how it is held. -/
def callable? (e : TypeExpr) : Option (TypeExpr × Holding) :=
  match e with
  | .function .. => some (e, .value)
  | .bounded .anonymous .. => if e.isCallable then some (e, .value) else none
  | .reference _ _ t => if t.isCallable then some (t, .borrowed) else none
  | e =>
    (((e.wrapped? ["Box"]).filter isCallable).map (·, .owned)).or
      (((e.wrapped? ["Arc", "Rc"]).filter isCallable).map (·, .counted))

/-- The inputs and the result of a function type. -/
def signature? (e : TypeExpr) : Option (List TypeExpr × Option TypeExpr) :=
  match e with
  | .function _ _ params ret => some (params, ret)
  | e => e.callBound?

def callableRecipe? (e : TypeExpr) : Option Recipe :=
  match (callable? e).bind fun f => (signature? f.1).map (·, f.2) with
  | some ((params, ret), holding) => some (.function params (.ofExpr ret) holding)
  | none =>
    if e.isCallable then
      some (.refuse (.about e
        ("unsized callable `" ++ e.render ++ "` must be behind a reference or Box")))
    else none

/-- Null already stands for something in a raw pointer. -/
def rawOptional (e : TypeExpr) : Problem :=
  .about e "`Option` of a raw pointer has no representation distinct from a null pointer"

def optionalRecipe? (e : TypeExpr) : Option Recipe :=
  (e.wrapped? ["Option"]).map fun t => .wrap .value t (.optional (rawOptional e))

def pointerRecipe? (e : TypeExpr) : Option Recipe :=
  match e with
  | .reference _ m t => some (.wrap .pointer t (.pointer false .borrowed m))
  | .pointer m t => some (.wrap .pointer t (.pointer true .raw m))
  | e =>
    match e.wrapped? ["Box"], e.wrapped? ["Arc", "Rc"] with
    | some t, _ => some (.wrap .pointer t (.pointer false .owned true))
    | none, some t => some (.wrap .pointer t (.pointer false .counted false))
    | none, none => none

def lengthNames : List String := ["len", "length", "size", "count", "n", "num"]

def capacityNames : List String := ["cap", "capacity"]

/-- Whether a field is a number of elements under one of some names. -/
def isCount (names : List String) (f : NativeField) : Bool :=
  f.name.any (fun name => names.contains (String.ofList (Text.lower name.toList)))
    && f.type.isPlain ["usize"]

/-- The elements of a struct that is a pointer, a length and perhaps a capacity, and whether they
can be written. -/
def elements? (n : Nominal) : Option (TypeExpr × Bool) :=
  match n.structFields? with
  | some (⟨some _, .pointer mutable t, _⟩ :: length :: rest) =>
    if n.declaration.generics.isEmpty && isCount lengthNames length
      && (rest.isEmpty || rest.length = 1 && rest.all (isCount capacityNames))
    then some (t, mutable) else none
  | _ => none

def structuralRecipe? (o : Outlook) (e : TypeExpr) : Option Recipe :=
  if e.args.isEmpty then do
    let n ← o.meaning.nominal?
    let (t, mutable) ← elements? n
    pure (.buffer n t (if mutable then .owned else .borrowed))
  else none

/-- What is wrong with a type that no other rule knows. -/
def unknownReason (o : Outlook) (e : TypeExpr) : String :=
  match e with
  | .path _ =>
    match o.meaning.problem? with
    | some problem => problem
    | none =>
      if e.args.isEmpty then "unknown type `" ++ e.render ++ "`"
      else "generic type `" ++ e.render ++ "` has no marshaling rule"
  | .bounded .. => "trait object `" ++ e.render ++ "` is not callable"
  | _ => "type `" ++ e.render ++ "` has no marshaling rule"

/-- The recipe of a rule for an expression; none when the expression is not in its family. -/
def recipe? (o : Outlook) (e : TypeExpr) : Rule → Option Recipe
  | .unit => if e = .unit || e.isPlain ["c_void"] then some (.exact .unit) else none
  | .primitive => (primitive? o.wordBits e).map .exact
  | .never =>
    if e = .never then
      some (.refuse (.about e "the never type `!` has no values to marshal"))
    else none
  | .text => textRecipe? e
  | .sequence => sequenceRecipe? e
  | .callable => callableRecipe? e
  | .optional => optionalRecipe? e
  | .result =>
    if e.standardName? = some "Result" then
      some (.refuse (.about e "`Result` is only supported as a function return type"))
    else none
  | .pointer => pointerRecipe? e
  | .tuple =>
    match e with
    | .tuple (t :: ts) => some (.tuple (t :: ts))
    | _ => none
  | .structuralSequence => structuralRecipe? o e
  | .nominal => o.meaning.nominal?.map (.named · e)
  | .unknown => some (.refuse (.about e (unknownReason o e)))
  | .fixed name answer => if e.standardName? = name then some (answer.recipe e) else none

theorem sizeOf_callable_le {e f : TypeExpr} {h : Holding} (hc : callable? e = some (f, h)) :
    sizeOf f ≤ sizeOf e := by
  unfold callable? at hc
  split at hc
  · simp only [Option.some.injEq, Prod.mk.injEq] at hc
    exact Nat.le_of_eq (congrArg sizeOf hc.1.symm)
  · split at hc
    · simp only [Option.some.injEq, Prod.mk.injEq] at hc
      exact Nat.le_of_eq (congrArg sizeOf hc.1.symm)
    · simp at hc
  · split at hc
    · simp only [Option.some.injEq, Prod.mk.injEq] at hc
      rw [← hc.1]
      simp only [TypeExpr.reference.sizeOf_spec]
      omega
    · simp at hc
  · simp only [Option.or_eq_some_iff, Option.map_eq_some_iff, Option.filter_eq_some_iff,
      Prod.mk.injEq] at hc
    rcases hc with ⟨t, ⟨ht, -⟩, rfl, -⟩ | ⟨-, t, ⟨ht, -⟩, rfl, -⟩ <;>
      exact Nat.le_of_lt (TypeExpr.sizeOf_wrapped_lt ht)

theorem sizeOf_signature_lt {e : TypeExpr} {params : List TypeExpr} {ret : Option TypeExpr}
    (h : signature? e = some (params, ret)) : sizeOf params + sizeOf ret + 1 < sizeOf e := by
  unfold signature? at h
  split at h
  · rename_i u a ps r
    simp only [Option.some.injEq, Prod.mk.injEq] at h
    obtain ⟨rfl, rfl⟩ := h
    have : 0 < sizeOf u := by cases u <;> simp
    have := TypeExpr.sizeOf_option_pos a
    simp only [TypeExpr.function.sizeOf_spec]
    omega
  · have := TypeExpr.sizeOf_callBound_lt h
    omega

/-- Where a recipe has no parts it weighs nothing, and no expression is that small. -/
theorem weight_lt_of_eq_zero {r : Recipe} (e : TypeExpr) (h : r.weight = 0) :
    r.weight < sizeOf e := by
  have := TypeExpr.sizeOf_pos e
  omega

/-- What a rule answers for an expression of its family: it refuses it, knows its type outright, or has
a recipe for what stands inside it or is declared for it. -/
inductive Answers (o : Outlook) : Rule → TypeExpr → Recipe → Prop where
  | refuse {rule : Rule} {e : TypeExpr} (message : String) :
      Answers o rule e (.refuse (.about e message))
  | unit {e : TypeExpr} : Answers o .unit e (.exact .unit)
  | primitive {e : TypeExpr} {name : String} {t : InterfaceType}
      (mem : (name, t) ∈ primitives o.wordBits) : Answers o .primitive e (.exact t)
  | text {e : TypeExpr} {encoding : TextEncoding} {holding : Holding}
      (known : text? e = some (encoding, holding)) :
      Answers o .text e (.exact (.text encoding holding))
  | array {t : TypeExpr} {n : ArrayLength} :
      Answers o .sequence (.array t n) (.wrap .value t (.array n))
  | slice {lifetime : Option String} {mutable : Bool} {t : TypeExpr} :
      Answers o .sequence (.reference lifetime mutable (.slice t))
        (.wrap .sequence t (.buffer .borrowed))
  | vector {e t : TypeExpr} (known : e.wrapped? ["Vec"] = some t) :
      Answers o .sequence e (.wrap .sequence t (.buffer .owned))
  | boxedSlice {e t : TypeExpr} (known : e.wrapped? ["Box"] = some (.slice t)) :
      Answers o .sequence e (.wrap .sequence t (.buffer .owned))
  | callable {e f : TypeExpr} {params : List TypeExpr} {ret : Option TypeExpr} {holding : Holding}
      (known : callable? e = some (f, holding)) (signature : signature? f = some (params, ret)) :
      Answers o .callable e (.function params (.ofExpr ret) holding)
  | optional {e t : TypeExpr} (known : e.wrapped? ["Option"] = some t) :
      Answers o .optional e (.wrap .value t (.optional (rawOptional e)))
  | reference {lifetime : Option String} {mutable : Bool} {t : TypeExpr} :
      Answers o .pointer (.reference lifetime mutable t)
        (.wrap .pointer t (.pointer false .borrowed mutable))
  | pointer {mutable : Bool} {t : TypeExpr} :
      Answers o .pointer (.pointer mutable t) (.wrap .pointer t (.pointer true .raw mutable))
  | box {e t : TypeExpr} (known : e.wrapped? ["Box"] = some t) :
      Answers o .pointer e (.wrap .pointer t (.pointer false .owned true))
  | counted {e t : TypeExpr} (known : e.wrapped? ["Arc", "Rc"] = some t) :
      Answers o .pointer e (.wrap .pointer t (.pointer false .counted false))
  | tuple {t : TypeExpr} {ts : List TypeExpr} : Answers o .tuple (.tuple (t :: ts)) (.tuple (t :: ts))
  | structural {e t : TypeExpr} {n : Nominal} {mutable : Bool}
      (meaning : o.meaning.nominal? = some n) (elements : elements? n = some (t, mutable)) :
      Answers o .structuralSequence e (.buffer n t (if mutable then .owned else .borrowed))
  | nominal {e : TypeExpr} {n : Nominal} (meaning : o.meaning.nominal? = some n) :
      Answers o .nominal e (.named n e)
  | fixed {e : TypeExpr} {name : Option String} {answer : FixedAnswer} :
      Answers o (.fixed name answer) e (answer.recipe e)

section Answers

variable {o : Outlook} {e : TypeExpr} {r : Recipe}

theorem answers_text (h : textRecipe? e = some r) : Answers o .text e r := by
  unfold textRecipe? at h
  split at h
  · obtain rfl := Option.some.inj h
    exact .text ‹_›
  · split at h
    · obtain rfl := Option.some.inj h
      exact .refuse _
    · cases h

theorem answers_sequence (h : sequenceRecipe? e = some r) : Answers o .sequence e r := by
  unfold sequenceRecipe? at h
  split at h
  · obtain rfl := Option.some.inj h
    exact .array
  · obtain rfl := Option.some.inj h
    exact .refuse _
  · obtain rfl := Option.some.inj h
    exact .slice
  · split at h
    · obtain rfl := Option.some.inj h
      exact .vector ‹_›
    · obtain rfl := Option.some.inj h
      exact .boxedSlice ‹_›
    · cases h

theorem answers_callable (h : callableRecipe? e = some r) : Answers o .callable e r := by
  unfold callableRecipe? at h
  split at h
  · rename_i params ret holding hf
    obtain rfl := Option.some.inj h
    obtain ⟨⟨f, held⟩, hcallable, hmapped⟩ := Option.bind_eq_some_iff.1 hf
    obtain ⟨⟨ps, ret'⟩, hsignature, hpair⟩ := Option.map_eq_some_iff.1 hmapped
    obtain ⟨⟨rfl, rfl⟩, rfl⟩ := Prod.mk.inj hpair
    exact .callable hcallable hsignature
  · split at h
    · obtain rfl := Option.some.inj h
      exact .refuse _
    · cases h

theorem answers_pointer (h : pointerRecipe? e = some r) : Answers o .pointer e r := by
  unfold pointerRecipe? at h
  split at h
  · obtain rfl := Option.some.inj h
    exact .reference
  · obtain rfl := Option.some.inj h
    exact .pointer
  · split at h
    · obtain rfl := Option.some.inj h
      exact .box ‹_›
    · obtain rfl := Option.some.inj h
      exact .counted ‹_›
    · cases h

theorem answers_structural (h : structuralRecipe? o e = some r) :
    Answers o .structuralSequence e r := by
  unfold structuralRecipe? at h
  split at h
  · obtain ⟨n, hn, h⟩ := Option.bind_eq_some_iff.1 h
    obtain ⟨⟨t, mutable⟩, helements, h⟩ := Option.bind_eq_some_iff.1 h
    obtain rfl := Option.some.inj h
    exact .structural hn helements
  · cases h

/-- Rules answer nothing else. -/
theorem answers_of_recipe? {rule : Rule} (h : rule.recipe? o e = some r) : rule.Answers o e r := by
  cases rule with
  | unit =>
    obtain ⟨-, h⟩ := Option.ite_none_right_eq_some.1 h
    exact Option.some.inj h ▸ .unit
  | never | result =>
    obtain ⟨-, h⟩ := Option.ite_none_right_eq_some.1 h
    exact Option.some.inj h ▸ .refuse _
  | primitive =>
    obtain ⟨t, ht, rfl⟩ := Option.map_eq_some_iff.1 h
    obtain ⟨-, ht⟩ := Option.ite_none_right_eq_some.1 ht
    obtain ⟨name, -, hlookup⟩ := Option.bind_eq_some_iff.1 ht
    obtain ⟨before, after, hsplit, -⟩ := List.lookup_eq_some_iff.1 hlookup
    exact .primitive (hsplit ▸ List.mem_append_right before List.mem_cons_self)
  | text => exact answers_text h
  | sequence => exact answers_sequence h
  | callable => exact answers_callable h
  | optional =>
    obtain ⟨t, ht, rfl⟩ := Option.map_eq_some_iff.1 h
    exact .optional ht
  | pointer => exact answers_pointer h
  | tuple =>
    simp only [recipe?] at h
    split at h
    · obtain rfl := Option.some.inj h
      exact .tuple
    · cases h
  | structuralSequence => exact answers_structural h
  | nominal =>
    obtain ⟨n, hn, rfl⟩ := Option.map_eq_some_iff.1 h
    exact .nominal hn
  | unknown => exact Option.some.inj h ▸ .refuse _
  | fixed name answer =>
    obtain ⟨-, h⟩ := Option.ite_none_right_eq_some.1 h
    exact Option.some.inj h ▸ .fixed

end Answers

/-- The parts of a recipe weigh less than the expression that it is for. -/
theorem Answers.weight_lt {o : Outlook} {e : TypeExpr} {rule : Rule} {r : Recipe}
    (h : rule.Answers o e r) : r.weight < sizeOf e := by
  cases h with
  | refuse | unit | primitive | text | structural | nominal => exact weight_lt_of_eq_zero _ rfl
  | fixed => exact weight_lt_of_eq_zero _ (by cases ‹FixedAnswer› <;> rfl)
  | array =>
    simp only [Recipe.weight, TypeExpr.array.sizeOf_spec]
    omega
  | slice =>
    simp only [Recipe.weight, TypeExpr.reference.sizeOf_spec, TypeExpr.slice.sizeOf_spec]
    omega
  | boxedSlice known =>
    have := TypeExpr.sizeOf_wrapped_lt known
    simp only [TypeExpr.slice.sizeOf_spec] at this
    simp only [Recipe.weight]
    omega
  | vector known | optional known | box known | counted known =>
    exact TypeExpr.sizeOf_wrapped_lt known
  | @callable _ f params ret holding known signature =>
    have := sizeOf_callable_le known
    have := sizeOf_signature_lt signature
    have := Return.weight_ofExpr_le ret
    simp only [Recipe.weight]
    omega
  | reference =>
    simp only [Recipe.weight, TypeExpr.reference.sizeOf_spec]
    omega
  | pointer =>
    simp only [Recipe.weight, TypeExpr.pointer.sizeOf_spec]
    omega
  | tuple =>
    simp only [Recipe.weight, TypeExpr.tuple.sizeOf_spec]
    omega

end Rule

end Crossing.Building
