import Crossing.Proofs.TypeExpr.Reading

/-!
# All of the grammar is read

The parser reads what has a greedy derivation, in front of anything that could not go on with it, with
eight calls for each token (`accepting`). With what it reads having one (`sound`), a text is read as a
type exactly if the grammar derives the type from the tokens of the text (`parse_eq_iff`).
-/

namespace Crossing.TypeExpr

open TypeExpr.Parser (Arguments Bounds numberValue)

/-- The tokens do not go on with a name or with the inputs of a function. -/
def Fit (rest : List Token) : Prop :=
  rest.head? ≠ some (.mark .less) ∧ rest.head? ≠ some (.mark .openParen)
    ∧ rest.head? ≠ some (.mark .arrow)

/-- Nothing that the tokens begin with could go on with a phrase. -/
def Ends.Stops (e : Ends) (rest : List Token) : Prop := Fit rest ∧ e.Settled rest

/-- The marks that stand behind a type between others. -/
def closers : List Mark := [.comma, .semicolon, .greater, .closeParen, .closeBracket]

theorem Ends.stops_of_mem {m : Mark} (hm : m ∈ closers) (e : Ends) (rest : List Token) :
    e.Stops (.mark m :: rest) := by
  simp only [closers, List.mem_cons, List.not_mem_nil, or_false] at hm
  refine ⟨?_, fun joint _ => ?_⟩
  · rcases hm with rfl | rfl | rfl | rfl | rfl <;> simp [Fit]
  · rcases hm with rfl | rfl | rfl | rfl | rfl <;> cases joint <;> simp [Joint.mark]

/-- How many calls lie between a function of the parser and the next token, at most. -/
def Category.rank : Category → Nat
  | .result | .segment => 1
  | .segments => 2
  | .path => 3
  | .type | .bound => 4
  | .types | .argument | .bounds => 5
  | .inputs | .arguments => 6

/-- The functions of the parser read a phrase, and the mark behind it where it is between brackets. -/
def Category.Accepts (fuel : Nat) (w rest : List Token) (e : Ends) : (c : Category) → c.Tree → Prop
  | .type, t => e.Stops rest → Parser.type fuel (w ++ rest) = some (t, rest)
  | .path, ss => e.Stops rest → Parser.path fuel (w ++ rest) = some (ss, rest)
  | .segments, ss => e.Stops rest → Parser.segments fuel (w ++ rest) = some (ss, rest)
  | .segment, s => e.Stops rest → Parser.segment fuel (w ++ rest) = some (s, rest)
  | .types, ts => Parser.types fuel (w ++ .mark .closeParen :: rest) = some (ts, rest)
  | .inputs, ts => Parser.inputs fuel (w ++ .mark .closeParen :: rest) = some (ts, rest)
  | .result, r => e.Stops rest → Parser.result fuel (w ++ rest) = some (r, rest)
  | .arguments, a => Parser.arguments fuel (w ++ .mark .greater :: rest) = some (a, rest)
  | .argument, a => e.Stops rest → Parser.argument fuel (w ++ rest) = some (a, rest)
  | .bounds, b => e.Stops rest → Parser.bounds fuel (w ++ rest) = some (b, rest)
  | .bound, b => e.Stops rest → Parser.bound fuel (w ++ rest) = some (b, rest)

section Head

def startsSegment : Token → Bool
  | .name _ => true
  | _ => false

def startsPath : Token → Bool
  | .mark .pathSep => true
  | token => startsSegment token

def startsType : Token → Bool
  | .mark .openParen | .mark .ampersand | .mark .star | .mark .openBracket | .mark .bang => true
  | .keyword word => word != .mutable && word != .constant
  | token => startsPath token

def startsArgument : Token → Bool
  | .lifetime _ | .number _ => true
  | token => startsType token

def startsBound : Token → Bool
  | .lifetime _ | .mark .question => true
  | token => startsPath token

/-- The tokens that a phrase can begin with. -/
def Category.starts : Category → Token → Bool
  | .type | .types => startsType
  | .path => startsPath
  | .segments | .segment => startsSegment
  | .arguments | .argument => startsArgument
  | .bounds | .bound => startsBound
  | .inputs | .result => fun _ => true

/-- Whether a rule derives no tokens too. -/
def Category.isOptional : Category → Bool
  | .inputs | .result => true
  | _ => false

variable {token : Token}

theorem startsPath_of_segment (h : startsSegment token = true) : startsPath token = true := by
  unfold startsPath
  split <;> first | rfl | exact h

theorem startsType_of_path (h : startsPath token = true) : startsType token = true := by
  unfold startsType
  split <;> first | rfl | exact h | simp [startsPath, startsSegment] at h

theorem startsArgument_of_type (h : startsType token = true) : startsArgument token = true := by
  unfold startsArgument
  split <;> first | rfl | exact h

theorem startsBound_of_path (h : startsPath token = true) : startsBound token = true := by
  unfold startsBound
  split <;> first | rfl | exact h

theorem exists_head {greedy : Bool} {c : Category} {x : c.Tree} {w : List Token} {e : Ends}
    (h : Derives greedy c x w e) (hc : c.isOptional = false) :
    ∃ token w', w = token :: w' ∧ c.starts token = true := by
  induction h with
  | path _ ih =>
    obtain ⟨token, w, rfl, hstart⟩ := ih rfl
    exact ⟨token, w, rfl, startsType_of_path hstart⟩
  | @function isUnsafe _ _ _ _ _ _ _ _ convention =>
    cases isUnsafe <;> cases convention <;> exact ⟨_, _, rfl, rfl⟩
  | @bounded kind => cases kind <;> exact ⟨_, _, rfl, rfl⟩
  | unrooted _ ih =>
    obtain ⟨token, w, rfl, hstart⟩ := ih rfl
    exact ⟨token, w, rfl, startsPath_of_segment hstart⟩
  | lastSegment _ ih | lastType _ ih | lastArgument _ ih | lastBound _ ih => exact ih rfl
  | moreSegments _ _ _ ih | trailingType _ ih | moreTypes _ _ ih | trailingArgument _ ih
  | moreArguments _ _ ih | moreBounds _ _ _ ih =>
    obtain ⟨token, w, rfl, hstart⟩ := ih rfl
    exact ⟨token, _, rfl, hstart⟩
  | typeArgument _ ih =>
    obtain ⟨token, w, rfl, hstart⟩ := ih rfl
    exact ⟨token, w, rfl, startsArgument_of_type hstart⟩
  | pathBound _ ih =>
    obtain ⟨token, w, rfl, hstart⟩ := ih rfl
    exact ⟨token, w, rfl, startsBound_of_path hstart⟩
  | noInputs | someInputs | noResult | someResult => simp [Category.isOptional] at hc
  | _ => exact ⟨_, _, rfl, rfl⟩

end Head

section Functions

variable {fuel : Nat} {token : Token} {ts rest : List Token}

theorem type_of_path {ss : List (Segment TypeExpr)} (hstart : startsPath token = true)
    (h : Parser.path fuel (token :: ts) = some (ss, rest)) :
    Parser.type (fuel + 1) (token :: ts) = some (.path ss, rest) := by
  cases token with
  | mark m =>
    cases m with
    | pathSep => simp [Parser.type, h]
    | _ => simp [startsPath, startsSegment] at hstart
  | name => simp [Parser.type, h]
  | _ => simp [startsPath, startsSegment] at hstart

/-- What stands behind a parenthesis that is not closed at once. -/
theorem type_of_openParen (hstart : startsType token = true) :
    Parser.type (fuel + 1) (.mark .openParen :: token :: ts) =
      (Parser.type fuel (token :: ts)).bind fun (t, ts) =>
        match ts with
        | .mark .closeParen :: ts => some (t, ts)
        | .mark .comma :: .mark .closeParen :: ts => some (.tuple [t], ts)
        | .mark .comma :: ts => (Parser.types fuel ts).bind fun (us, ts) => some (.tuple (t :: us), ts)
        | _ => none := by
  cases token with
  | mark m => cases m <;> first | rfl | simp [startsType, startsPath, startsSegment] at hstart
  | _ => rfl

theorem ne_of_startsType {m : Mark} (hm : m ∈ closers) (hstart : startsType token = true) :
    token ≠ .mark m := by
  rintro rfl
  simp only [closers, List.mem_cons, List.not_mem_nil, or_false] at hm
  rcases hm with rfl | rfl | rfl | rfl | rfl <;> simp [startsType, startsPath, startsSegment] at hstart

theorem mutable?_append (mutable : Bool) (hstart : startsType token = true) :
    Parser.mutable? ((if mutable then [.keyword .mutable] else []) ++ token :: ts)
      = (mutable, token :: ts) := by
  cases mutable with
  | true => rfl
  | false =>
    cases token with
    | keyword word => cases word <;> first | rfl | simp [startsType] at hstart
    | _ => rfl

theorem lifetime?_append (lifetime : Option String) (mutable : Bool)
    (hstart : startsType token = true) :
    Parser.lifetime? ((lifetime.map Token.lifetime).toList
        ++ ((if mutable then [.keyword .mutable] else []) ++ token :: ts))
      = (lifetime, (if mutable then [.keyword .mutable] else []) ++ token :: ts) := by
  cases lifetime with
  | some => rfl
  | none =>
    cases mutable with
    | true => rfl
    | false =>
      cases token with
      | lifetime => simp [startsType, startsPath, startsSegment] at hstart
      | _ => rfl

theorem type_of_ampersand {us : List Token} : Parser.type (fuel + 1) (.mark .ampersand :: us) =
    (Parser.type fuel (Parser.mutable? (Parser.lifetime? us).2).2).bind fun (t, rest) =>
      some (.reference (Parser.lifetime? us).1 (Parser.mutable? (Parser.lifetime? us).2).1 t,
        rest) := rfl

theorem arrayLength_of_spelled {length : ArrayLength} (h : lengthOf? token = some length) :
    Parser.arrayLength (token :: .mark .closeBracket :: rest) = some (length, rest) := by
  unfold lengthOf? at h
  split at h
  · obtain rfl := Option.some.inj h
    rfl
  · obtain rfl := Option.some.inj h
    rfl
  · simp at h

theorem segments_of_last {s : Segment TypeExpr} (h : Parser.segment fuel ts = some (s, rest))
    (hrest : rest.head? ≠ some (.mark .pathSep)) :
    Parser.segments (fuel + 1) ts = some ([s], rest) := by
  unfold Parser.segments
  rw [h]
  simp only [Option.bind_eq_bind, Option.bind_some]
  split
  · simp at hrest
  · rfl

theorem bounds_of_last {b : Bounds} (h : Parser.bound fuel ts = some (b, rest))
    (hrest : rest.head? ≠ some (.mark .plus)) :
    Parser.bounds (fuel + 1) ts = some (b, rest) := by
  unfold Parser.bounds
  rw [h]
  simp only [Option.bind_eq_bind, Option.bind_some]
  split
  · simp at hrest
  · rfl

/-- A function pointer starts as its convention does, and is read as one. -/
theorem type_of_convention {isUnsafe : Bool} {abi : Option String} {wa : List Token}
    (h : Convention abi wa) : Parser.type (fuel + 2)
      ((if isUnsafe then [.keyword .unchecked] else [])
        ++ (wa ++ .keyword .function :: .mark .openParen :: ts))
    = (Parser.inputs fuel ts).bind fun (ps, ts) => (Parser.result fuel ts).bind fun (r, ts) =>
        some (.function isUnsafe abi ps r, ts) := by
  cases isUnsafe <;> cases h <;> rfl

end Functions

theorem Category.rank_pos (c : Category) : 0 < c.rank := by
  cases c <;> simp [rank]

theorem Ends.Stops.mono {e e' : Ends} {rest : List Token}
    (he : ∀ joint, e'.takes joint = true → e.takes joint = true) (h : e.Stops rest) :
    e'.Stops rest := ⟨h.1, fun joint hopen => h.2 joint (he joint hopen)⟩

theorem Ends.stops_of_joint {e : Ends} {joint : Joint} (h : e.takes joint = false)
    (rest : List Token) : e.Stops (.mark joint.mark :: rest) := by
  refine ⟨by cases joint <;> simp [Fit, Joint.mark], fun joint' hopen heq => ?_⟩
  have hsame : joint = joint' := by
    cases joint <;> cases joint' <;> first | rfl | simp [Joint.mark] at heq
  rw [hsame, hopen] at h
  simp at h

/-- With so many calls, what has a greedy derivation is read if it has few enough tokens. -/
def Accepting (fuel : Nat) : Prop :=
  ∀ (c : Category) (x : c.Tree) (w : List Token) (e : Ends), Derives true c x w e →
    ∀ rest, 8 * w.length + c.rank ≤ fuel → c.Accepts fuel w rest e x

namespace Accepting

variable {fuel : Nat} {w rest : List Token} {e : Ends}

theorem function {isUnsafe : Bool} {abi : Option String} {ps : List TypeExpr}
    {r : Option TypeExpr} {wa wp wr : List Token} {ep : Ends} (h : Accepting fuel)
    (convention : Convention abi wa) (inputs : Derives true .inputs ps wp ep)
    (result : Derives true .result r wr e) (hfuel : 8 * (wp.length + wr.length) + 8 ≤ fuel)
    (hstops : e.Stops rest) :
    Parser.type (fuel + 2) ((if isUnsafe then [.keyword .unchecked] else []) ++ wa
      ++ .keyword .function :: .mark .openParen :: wp ++ .mark .closeParen :: wr ++ rest)
    = some (.function isUnsafe abi ps r, rest) := by
  have hinputs : Parser.inputs fuel (wp ++ .mark .closeParen :: (wr ++ rest))
      = some (ps, wr ++ rest) := h _ _ _ _ inputs _ (by grind [Category.rank])
  have hresult : Parser.result fuel (wr ++ rest) = some (r, rest) :=
    h _ _ _ _ result rest (by grind [Category.rank]) hstops
  simp only [List.append_assoc, List.cons_append, type_of_convention convention, hinputs,
    Option.bind_some, hresult]

theorem type {t : TypeExpr} (ht : Derives true .type t w e) (h : ∀ n ≤ fuel, Accepting n)
    (hfuel : 8 * w.length + 4 ≤ fuel + 1) (hstops : e.Stops rest) :
    Parser.type (fuel + 1) (w ++ rest) = some (t, rest) := by
  have hcloser : ∀ {m : Mark}, m ∈ closers → ∀ e rest, Ends.Stops e (.mark m :: rest) :=
    fun hm e rest => e.stops_of_mem hm rest
  have hfull := h fuel (Nat.le_refl _)
  cases ht with
  | @path ss _ _ path =>
    have hpath : Parser.path fuel (w ++ rest) = some (ss, rest) :=
      hfull _ _ _ _ path rest (by grind [Category.rank]) hstops
    obtain ⟨token, w, rfl, hstart⟩ := exists_head path rfl
    exact type_of_path hstart hpath
  | @reference lifetime mutable t w _ inner =>
    have hinner : Parser.type fuel (w ++ rest) = some (t, rest) :=
      hfull _ _ _ _ inner rest (by grind [Category.rank]) hstops
    obtain ⟨token, w, rfl, hstart⟩ := exists_head inner rfl
    simp only [List.cons_append] at hinner
    simp only [List.cons_append, List.append_assoc, type_of_ampersand, lifetime?_append _ _ hstart,
      mutable?_append _ hstart, hinner]
    rfl
  | @pointer mutable t w _ inner =>
    have hinner : Parser.type fuel (w ++ rest) = some (t, rest) :=
      hfull _ _ _ _ inner rest (by grind [Category.rank]) hstops
    cases mutable <;> simp [Parser.type, hinner]
  | @slice t w _ inner =>
    have hinner : Parser.type fuel (w ++ .mark .closeBracket :: rest) = some (t, _) :=
      hfull _ _ _ _ inner _ (by grind [Category.rank]) (hcloser (by decide) _ _)
    simp [Parser.type, hinner]
  | @array t length token w _ inner spelled =>
    have hinner : Parser.type fuel
        (w ++ .mark .semicolon :: token :: .mark .closeBracket :: rest) = some (t, _) :=
      hfull _ _ _ _ inner _ (by grind [Category.rank]) (hcloser (by decide) _ _)
    simp [Parser.type, hinner, arrayLength_of_spelled spelled]
  | unit => simp [Parser.type]
  | @parenthesized _ w _ inner =>
    have hinner : Parser.type fuel (w ++ .mark .closeParen :: rest) = some (t, _) :=
      hfull _ _ _ _ inner _ (by grind [Category.rank]) (hcloser (by decide) _ _)
    obtain ⟨token, w, rfl, hstart⟩ := exists_head inner rfl
    simp only [List.cons_append] at hinner
    simp [type_of_openParen hstart, hinner]
  | @single t w _ inner =>
    have hinner : Parser.type fuel (w ++ .mark .comma :: .mark .closeParen :: rest) = some (t, _) :=
      hfull _ _ _ _ inner _ (by grind [Category.rank]) (hcloser (by decide) _ _)
    obtain ⟨token, w, rfl, hstart⟩ := exists_head inner rfl
    simp only [List.cons_append] at hinner
    simp [type_of_openParen hstart, hinner]
  | @tuple t ts w ws _ _ first others =>
    have hfirst : Parser.type fuel
        (w ++ .mark .comma :: (ws ++ .mark .closeParen :: rest)) = some (t, _) :=
      hfull _ _ _ _ first _ (by grind [Category.rank]) (hcloser (by decide) _ _)
    have hothers : Parser.types fuel (ws ++ .mark .closeParen :: rest) = some (ts, rest) :=
      hfull _ _ _ _ others _ (by grind [Category.rank])
    obtain ⟨token, w, rfl, hstart⟩ := exists_head first rfl
    obtain ⟨second, ws, rfl, hsecond⟩ := exists_head others rfl
    have hne := ne_of_startsType (m := .closeParen) (by decide) hsecond
    simp only [List.cons_append] at hfirst hothers
    simp [type_of_openParen hstart, hfirst, hothers, hne]
  | function convention inputs result =>
    obtain ⟨fuel, rfl⟩ : ∃ n, fuel = n + 1 := ⟨fuel - 1, by grind⟩
    exact (h fuel (Nat.le_succ _)).function convention inputs result (by grind) hstops
  | @bounded kind b w _ bounds =>
    have hbounds : Parser.bounds fuel (w ++ rest) = some (b, rest) :=
      hfull _ _ _ _ bounds rest (by grind [Category.rank]) hstops
    cases kind <;> simp [Parser.type, boundKeyword, hbounds]
  | never => simp [Parser.type]
  | infer => simp [Parser.type]

theorem path {ss : List (Segment TypeExpr)} (hss : Derives true .path ss w e)
    (h : Accepting fuel) (hfuel : 8 * w.length + 3 ≤ fuel + 1) (hstops : e.Stops rest) :
    Parser.path (fuel + 1) (w ++ rest) = some (ss, rest) := by
  cases hss with
  | rooted segments =>
    exact h _ _ _ _ segments rest (by grind [Category.rank]) hstops
  | unrooted segments =>
    have hsegments : Parser.segments fuel (w ++ rest) = some (ss, rest) :=
      h _ _ _ _ segments rest (by grind [Category.rank]) hstops
    obtain ⟨token, w, rfl, hstart⟩ := exists_head segments rfl
    cases token with
    | name => exact hsegments
    | _ => simp [Category.starts, startsSegment] at hstart

theorem segments {ss : List (Segment TypeExpr)} (hss : Derives true .segments ss w e)
    (h : Accepting fuel) (hfuel : 8 * w.length + 2 ≤ fuel + 1) (hstops : e.Stops rest) :
    Parser.segments (fuel + 1) (w ++ rest) = some (ss, rest) := by
  cases hss with
  | @lastSegment s w e segment =>
    have hinner : e.Stops rest := hstops.mono fun joint hopen => by
      cases joint with
      | separator => rfl
      | plus => exact hopen
    have hsegment : Parser.segment fuel (w ++ rest) = some (s, rest) :=
      h _ _ _ _ segment rest (by grind [Category.rank]) hinner
    exact segments_of_last hsegment (hstops.2 .separator rfl)
  | @moreSegments s ss w ws e es segment innermost others =>
    have hinner : e.takes .separator = false := innermost rfl
    have hsegment : Parser.segment fuel (w ++ .mark .pathSep :: (ws ++ rest)) = some (s, _) :=
      h _ _ _ _ segment _ (by grind [Category.rank]) (Ends.stops_of_joint hinner _)
    have hothers : Parser.segments fuel (ws ++ rest) = some (ss, rest) :=
      h _ _ _ _ others rest (by grind [Category.rank]) hstops
    simp [Parser.segments, hsegment, hothers]

theorem segment {s : Segment TypeExpr} (hs : Derives true .segment s w e) (h : Accepting fuel)
    (hfuel : 8 * w.length + 1 ≤ fuel + 1) (hstops : e.Stops rest) :
    Parser.segment (fuel + 1) (w ++ rest) = some (s, rest) := by
  cases hs with
  | name =>
    obtain ⟨hless, hparen, -⟩ := hstops.1
    cases rest with
    | nil => rfl
    | cons token rest =>
      simp only [List.head?_cons, ne_eq, Option.some.injEq] at hless hparen
      simp [Parser.segment, hless, hparen]
  | @generic name a w _ arguments =>
    have harguments : Parser.arguments fuel (w ++ .mark .greater :: rest) = some (a, rest) :=
      h _ _ _ _ arguments rest (by grind [Category.rank])
    simp [Parser.segment, harguments]
  | @call name ps r wp wr _ _ inputs result =>
    have hinputs : Parser.inputs fuel (wp ++ .mark .closeParen :: (wr ++ rest))
        = some (ps, wr ++ rest) := h _ _ _ _ inputs _ (by grind [Category.rank])
    have hresult : Parser.result fuel (wr ++ rest) = some (r, rest) :=
      h _ _ _ _ result rest (by grind [Category.rank]) hstops
    simp [Parser.segment, hinputs, hresult]

theorem types {ts : List TypeExpr} (hts : Derives true .types ts w e) (h : Accepting fuel)
    (hfuel : 8 * w.length + 5 ≤ fuel + 1) :
    Parser.types (fuel + 1) (w ++ .mark .closeParen :: rest) = some (ts, rest) := by
  have hcloser : ∀ {m : Mark}, m ∈ closers → ∀ e rest, Ends.Stops e (.mark m :: rest) :=
    fun hm e rest => e.stops_of_mem hm rest
  cases hts with
  | @lastType t w _ type =>
    have htype : Parser.type fuel (w ++ .mark .closeParen :: rest) = some (t, _) :=
      h _ _ _ _ type _ (by grind [Category.rank]) (hcloser (by decide) _ _)
    simp [Parser.types, htype]
  | @trailingType t w _ type =>
    have htype : Parser.type fuel (w ++ .mark .comma :: .mark .closeParen :: rest) = some (t, _) :=
      h _ _ _ _ type _ (by grind [Category.rank]) (hcloser (by decide) _ _)
    simp [Parser.types, htype]
  | @moreTypes t ts w ws _ _ type others =>
    have htype : Parser.type fuel
        (w ++ .mark .comma :: (ws ++ .mark .closeParen :: rest)) = some (t, _) :=
      h _ _ _ _ type _ (by grind [Category.rank]) (hcloser (by decide) _ _)
    have hothers : Parser.types fuel (ws ++ .mark .closeParen :: rest) = some (ts, rest) :=
      h _ _ _ _ others _ (by grind [Category.rank])
    obtain ⟨second, ws, rfl, hsecond⟩ := exists_head others rfl
    have hne := ne_of_startsType (m := .closeParen) (by decide) hsecond
    simp only [List.cons_append] at htype hothers
    simp [Parser.types, htype, hothers, hne]

theorem inputs {ts : List TypeExpr} (hts : Derives true .inputs ts w e) (h : Accepting fuel)
    (hfuel : 8 * w.length + 6 ≤ fuel + 1) :
    Parser.inputs (fuel + 1) (w ++ .mark .closeParen :: rest) = some (ts, rest) := by
  cases hts with
  | noInputs => simp [Parser.inputs]
  | @someInputs ts w _ types =>
    have htypes : Parser.types fuel (w ++ .mark .closeParen :: rest) = some (ts, rest) :=
      h _ _ _ _ types _ (by grind [Category.rank])
    obtain ⟨token, w, rfl, hstart⟩ := exists_head types rfl
    have hne := ne_of_startsType (m := .closeParen) (by decide) hstart
    simp only [List.cons_append] at htypes
    simp [Parser.inputs, htypes, hne]

theorem result {r : Option TypeExpr} (hr : Derives true .result r w e) (h : Accepting fuel)
    (hfuel : 8 * w.length + 1 ≤ fuel + 1) (hstops : e.Stops rest) :
    Parser.result (fuel + 1) (w ++ rest) = some (r, rest) := by
  cases hr with
  | noResult =>
    obtain ⟨-, -, harrow⟩ := hstops.1
    cases rest with
    | nil => rfl
    | cons token rest =>
      simp only [List.head?_cons, ne_eq, Option.some.injEq] at harrow
      simp [Parser.result, harrow]
  | @someResult t w _ type =>
    have htype : Parser.type fuel (w ++ rest) = some (t, rest) :=
      h _ _ _ _ type rest (by grind [Category.rank]) hstops
    simp [Parser.result, htype]

theorem arguments {a : Arguments} (ha : Derives true .arguments a w e) (h : Accepting fuel)
    (hfuel : 8 * w.length + 6 ≤ fuel + 1) :
    Parser.arguments (fuel + 1) (w ++ .mark .greater :: rest) = some (a, rest) := by
  have hcloser : ∀ {m : Mark}, m ∈ closers → ∀ e rest, Ends.Stops e (.mark m :: rest) :=
    fun hm e rest => e.stops_of_mem hm rest
  cases ha with
  | @lastArgument a w _ argument =>
    have hargument : Parser.argument fuel (w ++ .mark .greater :: rest) = some (a, _) :=
      h _ _ _ _ argument _ (by grind [Category.rank]) (hcloser (by decide) _ _)
    simp [Parser.arguments, hargument]
  | @trailingArgument a w _ argument =>
    have hargument : Parser.argument fuel (w ++ .mark .comma :: .mark .greater :: rest)
        = some (a, _) :=
      h _ _ _ _ argument _ (by grind [Category.rank]) (hcloser (by decide) _ _)
    simp [Parser.arguments, hargument]
  | @moreArguments a as w ws _ _ argument others =>
    have hargument : Parser.argument fuel
        (w ++ .mark .comma :: (ws ++ .mark .greater :: rest)) = some (a, _) :=
      h _ _ _ _ argument _ (by grind [Category.rank]) (hcloser (by decide) _ _)
    have hothers : Parser.arguments fuel (ws ++ .mark .greater :: rest) = some (as, rest) :=
      h _ _ _ _ others _ (by grind [Category.rank])
    obtain ⟨second, ws, rfl, hsecond⟩ := exists_head others rfl
    have hne : second ≠ .mark .greater := by
      rintro rfl
      simp [Category.starts, startsArgument, startsType, startsPath, startsSegment] at hsecond
    simp only [List.cons_append] at hargument hothers
    simp [Parser.arguments, hargument, hothers, hne, joinArguments]

theorem argument {a : Arguments} (ha : Derives true .argument a w e) (h : Accepting fuel)
    (hfuel : 8 * w.length + 5 ≤ fuel + 1) (hstops : e.Stops rest) :
    Parser.argument (fuel + 1) (w ++ rest) = some (a, rest) := by
  cases ha with
  | lifetimeArgument => rfl
  | constArgument => rfl
  | @typeArgument t w _ type =>
    have htype : Parser.type fuel (w ++ rest) = some (t, rest) :=
      h _ _ _ _ type rest (by grind [Category.rank]) hstops
    obtain ⟨token, w, rfl, hstart⟩ := exists_head type rfl
    simp only [List.cons_append] at htype
    cases token with
    | lifetime | number =>
      simp [Category.starts, startsType, startsPath, startsSegment] at hstart
    | _ => simp [Parser.argument, htype]

theorem bounds {b : Bounds} (hb : Derives true .bounds b w e) (h : Accepting fuel)
    (hfuel : 8 * w.length + 5 ≤ fuel + 1) (hstops : e.Stops rest) :
    Parser.bounds (fuel + 1) (w ++ rest) = some (b, rest) := by
  cases hb with
  | @lastBound b w e bound =>
    have hinner : e.Stops rest := hstops.mono fun joint hopen => by
      cases joint with
      | separator => exact hopen
      | plus => rfl
    have hbound : Parser.bound fuel (w ++ rest) = some (b, rest) :=
      h _ _ _ _ bound rest (by grind [Category.rank]) hinner
    exact bounds_of_last hbound (hstops.2 .plus rfl)
  | @moreBounds b bs w ws e es bound innermost others =>
    have hinner : e.takes .plus = false := innermost rfl
    have hbound : Parser.bound fuel (w ++ .mark .plus :: (ws ++ rest)) = some (b, _) :=
      h _ _ _ _ bound _ (by grind [Category.rank]) (Ends.stops_of_joint hinner _)
    have hothers : Parser.bounds fuel (ws ++ rest) = some (bs, rest) :=
      h _ _ _ _ others rest (by grind [Category.rank]) hstops
    simp [Parser.bounds, hbound, hothers, joinBounds]

theorem bound {b : Bounds} (hb : Derives true .bound b w e) (h : Accepting fuel)
    (hfuel : 8 * w.length + 4 ≤ fuel + 1) (hstops : e.Stops rest) :
    Parser.bound (fuel + 1) (w ++ rest) = some (b, rest) := by
  cases hb with
  | lifetimeBound => rfl
  | @relaxedBound p w _ path =>
    have hpath : Parser.path fuel (w ++ rest) = some (p, rest) :=
      h _ _ _ _ path rest (by grind [Category.rank]) hstops
    simp [Parser.bound, hpath]
  | @pathBound p w _ path =>
    have hpath : Parser.path fuel (w ++ rest) = some (p, rest) :=
      h _ _ _ _ path rest (by grind [Category.rank]) hstops
    obtain ⟨token, w, rfl, hstart⟩ := exists_head path rfl
    simp only [List.cons_append] at hpath
    cases token with
    | name => simp [Parser.bound, hpath]
    | mark m =>
      cases m with
      | pathSep => simp [Parser.bound, hpath]
      | _ => simp [Category.starts, startsPath, startsSegment] at hstart
    | _ => simp [Category.starts, startsPath, startsSegment] at hstart

end Accepting

/-- What has a greedy derivation is read with enough calls. -/
theorem accepting (fuel : Nat) : Accepting fuel := by
  -- By the number of calls; each rule is read by functions that are called with fewer.
  induction fuel using Nat.strong_induction_on with
  | _ fuel ih =>
    intro c x w e hx rest hfuel
    obtain ⟨fuel, rfl⟩ : ∃ n, fuel = n + 1 := ⟨fuel - 1, by have := c.rank_pos; omega⟩
    have hfull : Accepting fuel := ih fuel (Nat.lt_succ_self _)
    cases c with
    | type => exact Accepting.type hx (fun n hn => ih n (Nat.lt_succ_of_le hn)) hfuel
    | path => exact Accepting.path hx hfull hfuel
    | segments => exact Accepting.segments hx hfull hfuel
    | segment => exact Accepting.segment hx hfull hfuel
    | types => exact Accepting.types hx hfull hfuel
    | inputs => exact Accepting.inputs hx hfull hfuel
    | result => exact Accepting.result hx hfull hfuel
    | arguments => exact Accepting.arguments hx hfull hfuel
    | argument => exact Accepting.argument hx hfull hfuel
    | bounds => exact Accepting.bounds hx hfull hfuel
    | bound => exact Accepting.bound hx hfull hfuel

/-- All tokens together are read as a type exactly if they have a greedy derivation of it. -/
theorem ofTokens?_eq_some_iff {tokens : List Token} {t : TypeExpr} :
    Parser.ofTokens? tokens = some t ↔ ∃ e, Derives true .type t tokens e := by
  unfold Parser.ofTokens?
  constructor
  · intro h
    split at h
    · rename_i t' hread
      obtain rfl := Option.some.inj h
      obtain ⟨w, e, rfl, hw, -⟩ := (sound _).type _ _ _ hread
      exact ⟨e, by rwa [List.append_nil]⟩
    · simp at h
  · rintro ⟨e, h⟩
    have hstops : e.Stops [] := ⟨by simp [Fit], fun _ _ => by simp⟩
    have hread := accepting (8 * tokens.length + 8) _ _ _ _ h [] (by grind [Category.rank]) hstops
    rw [List.append_nil] at hread
    rw [hread]

/-- The text of the type was read by the grammar. -/
def IsStructured (t : TypeExpr) : Prop := (∀ s, t ≠ .macroCall s) ∧ ∀ s, t ≠ .unparsed s

/-- The types that the grammar builds are structured. -/
theorem isStructured_of_derives {greedy : Bool} {t : TypeExpr} {w : List Token} {e : Ends}
    (h : Derives greedy .type t w e) : t.IsStructured := by
  suffices hall : ∀ (c : Category) (x : c.Tree) w e, Derives greedy c x w e →
      (match c, x with
        | .type, t => t.IsStructured
        | _, _ => True) from hall .type t w e h
  intro c x w e hx
  induction hx with
  | parenthesized _ ih => exact ih
  | path | reference | pointer | slice | array | unit | single | tuple | function | bounded | never
  | infer => exact ⟨nofun, nofun⟩
  | _ => trivial

theorem parse?_eq_some_iff {s : List Char} {t : TypeExpr} :
    parse? s = some t ↔ ∃ tokens e, Token.Lexes s tokens ∧ Derives true .type t tokens e := by
  rw [parse?, Option.bind_eq_some_iff]
  refine exists_congr fun tokens => ?_
  rw [Token.scan_eq_some_iff, ofTokens?_eq_some_iff, exists_and_left]

theorem not_derives_nil {greedy : Bool} {t : TypeExpr} {e : Ends} :
    ¬ Derives greedy .type t [] e := by
  intro h
  obtain ⟨token, w, hw, -⟩ := exists_head h rfl
  simp at hw

/-- A text reads as a type that is structured exactly if the grammar builds the type of its tokens. -/
theorem parse_eq_iff {text : String} {t : TypeExpr} : parse text = t ∧ t.IsStructured ↔
    ∃ tokens e, Token.Lexes (Text.strip text.toList) tokens ∧ Derives true .type t tokens e := by
  rw [← parse?_eq_some_iff]
  unfold parse
  simp only
  split
  · rename_i hempty
    rw [List.isEmpty_iff.1 hempty]
    refine iff_of_false ?_ fun h => ?_
    · rintro ⟨h, hstructured⟩
      exact hstructured.2 _ h.symm
    obtain ⟨tokens, e, hlexes, hderives⟩ := parse?_eq_some_iff.1 h
    rw [Token.lexes_nil_iff.1 hlexes] at hderives
    exact not_derives_nil hderives
  split
  · rename_i t' hread
    rw [hread, Option.some.injEq]
    refine ⟨And.left, ?_⟩
    rintro rfl
    obtain ⟨tokens, e, -, hderives⟩ := parse?_eq_some_iff.1 hread
    exact ⟨rfl, isStructured_of_derives hderives⟩
  · rename_i hnone
    rw [hnone]
    refine iff_of_false ?_ (by simp)
    rintro ⟨h, hstructured⟩
    split at h
    · exact hstructured.1 _ h.symm
    · exact hstructured.2 _ h.symm

/-- The parser accepts the grammar: a text is read as a type, and not as a macro call or as it stands,
exactly if what it holds between blanks splits into tokens with a derivation, and the tree that is read
is the one of the greedy derivation. -/
theorem parse_accepts (text : String) :
    ((parse text).IsStructured ↔ ∃ tokens t ends,
      Token.Lexes (Text.strip text.toList) tokens ∧ Derives false .type t tokens ends) ∧
    ∀ t, parse text = t ∧ t.IsStructured ↔ ∃ tokens ends,
      Token.Lexes (Text.strip text.toList) tokens ∧ Derives true .type t tokens ends := by
  refine ⟨⟨fun h => ?_, ?_⟩, fun t => parse_eq_iff⟩
  · obtain ⟨tokens, e, hlexes, hderives⟩ := parse_eq_iff.1 ⟨rfl, h⟩
    exact ⟨tokens, _, e, hlexes, derives_of_greedy hderives⟩
  · rintro ⟨tokens, t, e, hlexes, hderives⟩
    obtain ⟨t', e', hgreedy⟩ := greedy_of_derives hderives
    obtain ⟨hparse, hstructured⟩ := parse_eq_iff.2 ⟨tokens, e', hlexes, hgreedy⟩
    exact hparse ▸ hstructured

end Crossing.TypeExpr
