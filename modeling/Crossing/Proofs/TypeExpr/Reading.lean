import Crossing.Proofs.TypeExpr.Grammar
import Crossing.Proofs.TypeExpr.Lexing

/-!
# Reading by the grammar

The parser reads what has a greedy derivation. What it reads has one, and no mark behind it could go on
with a type at its right end (`Sound`); and it reads what has one, given enough fuel, wherever no such
mark is behind it (`accepting`).
-/

namespace Crossing.TypeExpr

open TypeExpr.Parser (Arguments Bounds numberValue)

/-- No mark that the tokens begin with could go on with a type at the right end. -/
def Ends.Settled (e : Ends) (rest : List Token) : Prop :=
  ∀ joint, e.takes joint = true → rest.head? ≠ some (.mark joint.mark)

theorem Ends.settled_closed (rest : List Token) : Ends.closed.Settled rest := by
  intro joint h
  cases joint <;> simp [takes, closed] at h

/-- A function that reads by a rule leaves what the rule does not go on with. -/
def Reads (c : Category) (read : List Token → Option (c.Tree × List Token)) : Prop :=
  ∀ ts x rest, read ts = some (x, rest) →
    ∃ w e, ts = w ++ rest ∧ Derives true c x w e ∧ e.Settled rest

/-- A function that reads by a rule, and a mark behind it. -/
def ReadsTo (close : Mark) (c : Category) (read : List Token → Option (c.Tree × List Token)) :
    Prop :=
  ∀ ts x rest, read ts = some (x, rest) →
    ∃ w e, ts = w ++ .mark close :: rest ∧ Derives true c x w e

/-- All functions of the parser read by their rules. -/
structure Sound (fuel : Nat) : Prop where
  type : Reads .type (Parser.type fuel)
  function : Reads .type (Parser.function fuel)
  types : ReadsTo .closeParen .types (Parser.types fuel)
  inputs : ReadsTo .closeParen .inputs (Parser.inputs fuel)
  result : Reads .result (Parser.result fuel)
  path : Reads .path (Parser.path fuel)
  segments : Reads .segments (Parser.segments fuel)
  segment : Reads .segment (Parser.segment fuel)
  arguments : ReadsTo .greater .arguments (Parser.arguments fuel)
  argument : Reads .argument (Parser.argument fuel)
  bounds : Reads .bounds (Parser.bounds fuel)
  bound : Reads .bound (Parser.bound fuel)

theorem head?_ne_of_ne_cons {token : Token} {ts : List Token}
    (h : ∀ rest, ts = token :: rest → False) : ts.head? ≠ some token := by
  intro hhead
  cases ts with
  | nil => simp at hhead
  | cons t ts => exact h ts (by rw [Option.some.inj hhead])

section Optional

theorem lifetime?_eq (ts : List Token) : ts
    = ((Parser.lifetime? ts).1.map Token.lifetime).toList ++ (Parser.lifetime? ts).2 := by
  unfold Parser.lifetime?
  split <;> rfl

theorem mutable?_eq (ts : List Token) : ts
    = (if (Parser.mutable? ts).1 then [.keyword .mutable] else []) ++ (Parser.mutable? ts).2 := by
  unfold Parser.mutable?
  split <;> rfl

theorem unchecked?_eq (ts : List Token) : ts
    = (if (Parser.unchecked? ts).1 then [.keyword .unchecked] else [])
      ++ (Parser.unchecked? ts).2 := by
  unfold Parser.unchecked?
  split <;> rfl

theorem abi?_eq (ts : List Token) :
    ∃ w, Convention (Parser.abi? ts).1 w ∧ ts = w ++ (Parser.abi? ts).2 := by
  unfold Parser.abi?
  split
  · exact ⟨_, .named _, rfl⟩
  · exact ⟨_, .unnamed, rfl⟩
  · exact ⟨_, .default, rfl⟩

theorem arrayLength_eq {ts rest : List Token} {length : ArrayLength}
    (h : Parser.arrayLength ts = some (length, rest)) :
    ∃ token, lengthOf? token = some length ∧ ts = token :: .mark .closeBracket :: rest := by
  unfold Parser.arrayLength at h
  split at h
  · obtain ⟨rfl, rfl⟩ := Prod.mk.inj (Option.some.inj h)
    exact ⟨_, rfl, rfl⟩
  · obtain ⟨rfl, rfl⟩ := Prod.mk.inj (Option.some.inj h)
    exact ⟨_, rfl, rfl⟩
  · simp at h

end Optional

namespace Sound

variable {fuel : Nat}

theorem zero : Sound 0 := by
  constructor
  all_goals
    intro ts x rest h
    simp [Parser.type, Parser.function, Parser.types, Parser.inputs, Parser.result, Parser.path,
      Parser.segments, Parser.segment, Parser.arguments, Parser.argument, Parser.bounds,
      Parser.bound] at h

variable (h : Sound fuel)
include h

theorem reads_path : Reads .path (Parser.path (fuel + 1)) := by
  intro ts ss rest hread
  unfold Parser.path at hread
  split at hread
  · rename_i ts
    obtain ⟨w, e, rfl, hw, hrest⟩ := h.segments ts ss rest hread
    exact ⟨.mark .pathSep :: w, e, rfl, .rooted hw, hrest⟩
  · obtain ⟨w, e, rfl, hw, hrest⟩ := h.segments ts ss rest hread
    exact ⟨w, e, rfl, .unrooted hw, hrest⟩

theorem reads_segments : Reads .segments (Parser.segments (fuel + 1)) := by
  intro ts ss rest hread
  unfold Parser.segments at hread
  obtain ⟨⟨s, ts⟩, hs, hnext⟩ := Option.bind_eq_some_iff.1 hread
  obtain ⟨w, e, rfl, hw, hend⟩ := h.segment _ s ts hs
  simp only at hnext
  split at hnext
  · rename_i ts
    obtain ⟨⟨ss, rest⟩, hss, heq⟩ := Option.bind_eq_some_iff.1 hnext
    obtain ⟨rfl, rfl⟩ := Prod.mk.inj (Option.some.inj heq)
    obtain ⟨ws, es, rfl, hws, hrest⟩ := h.segments ts ss rest hss
    have hinner : e.separator = false := Bool.eq_false_iff.2 fun hopen => hend .separator hopen rfl
    exact ⟨w ++ .mark .pathSep :: ws, es, by simp, .moreSegments hw (fun _ => hinner) hws, hrest⟩
  · rename_i hnone
    obtain ⟨rfl, rfl⟩ := Prod.mk.inj (Option.some.inj hnext)
    refine ⟨w, _, rfl, .lastSegment hw, ?_⟩
    rintro (_ | _) hopen
    · exact head?_ne_of_ne_cons hnone
    · exact hend .plus hopen

theorem reads_segment : Reads .segment (Parser.segment (fuel + 1)) := by
  intro ts s rest hread
  unfold Parser.segment at hread
  split at hread
  · rename_i name ts
    obtain ⟨⟨a, rest⟩, ha, heq⟩ := Option.bind_eq_some_iff.1 hread
    obtain ⟨rfl, rfl⟩ := Prod.mk.inj (Option.some.inj heq)
    obtain ⟨w, e, rfl, hw⟩ := h.arguments ts a rest ha
    exact ⟨.name name :: .mark .less :: w ++ [.mark .greater], _, by simp, .generic hw,
      Ends.settled_closed _⟩
  · rename_i name ts
    obtain ⟨⟨ps, ts'⟩, hps, hnext⟩ := Option.bind_eq_some_iff.1 hread
    obtain ⟨⟨r, rest⟩, hr, heq⟩ := Option.bind_eq_some_iff.1 hnext
    obtain ⟨rfl, rfl⟩ := Prod.mk.inj (Option.some.inj heq)
    obtain ⟨wp, ep, rfl, hwp⟩ := h.inputs ts ps ts' hps
    obtain ⟨wr, er, rfl, hwr, hrest⟩ := h.result ts' r rest hr
    exact ⟨.name name :: .mark .openParen :: wp ++ .mark .closeParen :: wr, er, by simp,
      .call hwp hwr, hrest⟩
  · rename_i name ts _ _
    obtain ⟨rfl, rfl⟩ := Prod.mk.inj (Option.some.inj hread)
    exact ⟨[.name name], _, rfl, .name, Ends.settled_closed _⟩
  · simp at hread

theorem reads_types : ReadsTo .closeParen .types (Parser.types (fuel + 1)) := by
  intro ts x rest hread
  unfold Parser.types at hread
  obtain ⟨⟨t, ts⟩, ht, hnext⟩ := Option.bind_eq_some_iff.1 hread
  obtain ⟨w, e, rfl, hw, -⟩ := h.type _ t ts ht
  simp only at hnext
  split at hnext
  · obtain ⟨rfl, rfl⟩ := Prod.mk.inj (Option.some.inj hnext)
    exact ⟨w, _, rfl, .lastType hw⟩
  · obtain ⟨rfl, rfl⟩ := Prod.mk.inj (Option.some.inj hnext)
    exact ⟨w ++ [.mark .comma], _, by simp, .trailingType hw⟩
  · rename_i ts _
    obtain ⟨⟨us, rest⟩, hus, heq⟩ := Option.bind_eq_some_iff.1 hnext
    obtain ⟨rfl, rfl⟩ := Prod.mk.inj (Option.some.inj heq)
    obtain ⟨ws, es, rfl, hws⟩ := h.types ts us rest hus
    exact ⟨w ++ .mark .comma :: ws, _, by simp, .moreTypes hw hws⟩
  · simp at hnext

theorem reads_inputs : ReadsTo .closeParen .inputs (Parser.inputs (fuel + 1)) := by
  intro ts x rest hread
  unfold Parser.inputs at hread
  split at hread
  · obtain ⟨rfl, rfl⟩ := Prod.mk.inj (Option.some.inj hread)
    exact ⟨[], _, rfl, .noInputs⟩
  · obtain ⟨w, e, rfl, hw⟩ := h.types _ x rest hread
    exact ⟨w, _, rfl, .someInputs hw⟩

theorem reads_result : Reads .result (Parser.result (fuel + 1)) := by
  intro ts r rest hread
  unfold Parser.result at hread
  split at hread
  · rename_i ts
    obtain ⟨⟨t, rest⟩, ht, heq⟩ := Option.bind_eq_some_iff.1 hread
    obtain ⟨rfl, rfl⟩ := Prod.mk.inj (Option.some.inj heq)
    obtain ⟨w, e, rfl, hw, hrest⟩ := h.type ts t rest ht
    exact ⟨.mark .arrow :: w, e, rfl, .someResult hw, hrest⟩
  · obtain ⟨rfl, rfl⟩ := Prod.mk.inj (Option.some.inj hread)
    exact ⟨[], _, rfl, .noResult, Ends.settled_closed _⟩

theorem reads_arguments : ReadsTo .greater .arguments (Parser.arguments (fuel + 1)) := by
  intro ts x rest hread
  unfold Parser.arguments at hread
  obtain ⟨⟨a, ts⟩, ha, hnext⟩ := Option.bind_eq_some_iff.1 hread
  obtain ⟨w, e, rfl, hw, -⟩ := h.argument _ a ts ha
  simp only at hnext
  split at hnext
  · obtain ⟨rfl, rfl⟩ := Prod.mk.inj (Option.some.inj hnext)
    exact ⟨w, _, rfl, .lastArgument hw⟩
  · obtain ⟨rfl, rfl⟩ := Prod.mk.inj (Option.some.inj hnext)
    exact ⟨w ++ [.mark .comma], _, by simp, .trailingArgument hw⟩
  · rename_i ts _
    obtain ⟨⟨as, rest⟩, has, heq⟩ := Option.bind_eq_some_iff.1 hnext
    obtain ⟨rfl, rfl⟩ := Prod.mk.inj (Option.some.inj heq)
    obtain ⟨ws, es, rfl, hws⟩ := h.arguments ts as rest has
    exact ⟨w ++ .mark .comma :: ws, _, by simp, .moreArguments hw hws⟩
  · simp at hnext

theorem reads_argument : Reads .argument (Parser.argument (fuel + 1)) := by
  intro ts a rest hread
  unfold Parser.argument at hread
  split at hread
  · rename_i l ts
    obtain ⟨rfl, rfl⟩ := Prod.mk.inj (Option.some.inj hread)
    exact ⟨[.lifetime l], _, rfl, .lifetimeArgument, Ends.settled_closed _⟩
  · rename_i n ts
    obtain ⟨rfl, rfl⟩ := Prod.mk.inj (Option.some.inj hread)
    exact ⟨[.number n], _, rfl, .constArgument, Ends.settled_closed _⟩
  · obtain ⟨⟨t, rest⟩, ht, heq⟩ := Option.bind_eq_some_iff.1 hread
    obtain ⟨rfl, rfl⟩ := Prod.mk.inj (Option.some.inj heq)
    obtain ⟨w, e, rfl, hw, hrest⟩ := h.type _ t rest ht
    exact ⟨w, e, rfl, .typeArgument hw, hrest⟩

theorem reads_bounds : Reads .bounds (Parser.bounds (fuel + 1)) := by
  intro ts x rest hread
  unfold Parser.bounds at hread
  obtain ⟨⟨b, ts⟩, hb, hnext⟩ := Option.bind_eq_some_iff.1 hread
  obtain ⟨w, e, rfl, hw, hend⟩ := h.bound _ b ts hb
  simp only at hnext
  split at hnext
  · rename_i ts
    obtain ⟨⟨bs, rest⟩, hbs, heq⟩ := Option.bind_eq_some_iff.1 hnext
    obtain ⟨rfl, rfl⟩ := Prod.mk.inj (Option.some.inj heq)
    obtain ⟨ws, es, rfl, hws, hrest⟩ := h.bounds ts bs rest hbs
    have hinner : e.plus = false := Bool.eq_false_iff.2 fun hopen => hend .plus hopen rfl
    exact ⟨w ++ .mark .plus :: ws, es, by simp, .moreBounds hw (fun _ => hinner) hws, hrest⟩
  · rename_i hnone
    obtain ⟨rfl, rfl⟩ := Prod.mk.inj (Option.some.inj hnext)
    refine ⟨w, _, rfl, .lastBound hw, ?_⟩
    rintro (_ | _) hopen
    · exact hend .separator hopen
    · exact head?_ne_of_ne_cons hnone

theorem reads_bound : Reads .bound (Parser.bound (fuel + 1)) := by
  intro ts b rest hread
  unfold Parser.bound at hread
  split at hread
  · rename_i l ts
    obtain ⟨rfl, rfl⟩ := Prod.mk.inj (Option.some.inj hread)
    exact ⟨[.lifetime l], _, rfl, .lifetimeBound, Ends.settled_closed _⟩
  · rename_i ts
    obtain ⟨⟨p, rest⟩, hp, heq⟩ := Option.bind_eq_some_iff.1 hread
    obtain ⟨rfl, rfl⟩ := Prod.mk.inj (Option.some.inj heq)
    obtain ⟨w, e, rfl, hw, hrest⟩ := h.path ts p rest hp
    exact ⟨.mark .question :: w, e, rfl, .relaxedBound hw, hrest⟩
  · obtain ⟨⟨p, rest⟩, hp, heq⟩ := Option.bind_eq_some_iff.1 hread
    obtain ⟨rfl, rfl⟩ := Prod.mk.inj (Option.some.inj heq)
    obtain ⟨w, e, rfl, hw, hrest⟩ := h.path _ p rest hp
    exact ⟨w, e, rfl, .pathBound hw, hrest⟩

theorem reads_function : Reads .type (Parser.function (fuel + 1)) := by
  intro ts t rest hread
  unfold Parser.function at hread
  simp only at hread
  obtain ⟨wa, hconvention, habi⟩ := abi?_eq (Parser.unchecked? ts).2
  split at hread
  · rename_i ts' hts'
    obtain ⟨⟨ps, ts''⟩, hps, hnext⟩ := Option.bind_eq_some_iff.1 hread
    obtain ⟨⟨r, rest⟩, hr, heq⟩ := Option.bind_eq_some_iff.1 hnext
    obtain ⟨rfl, rfl⟩ := Prod.mk.inj (Option.some.inj heq)
    obtain ⟨wp, ep, rfl, hwp⟩ := h.inputs ts' ps ts'' hps
    obtain ⟨wr, er, rfl, hwr, hrest⟩ := h.result ts'' r rest hr
    refine ⟨_, er, (unchecked?_eq ts).trans ?_, .function hconvention hwp hwr, hrest⟩
    rw [habi, hts']
    simp
  · simp at hread

theorem reads_type : Reads .type (Parser.type (fuel + 1)) := by
  intro ts t rest hread
  unfold Parser.type at hread
  split at hread
  · obtain ⟨rfl, rfl⟩ := Prod.mk.inj (Option.some.inj hread)
    exact ⟨[.mark .openParen, .mark .closeParen], _, rfl, .unit, Ends.settled_closed _⟩
  · rename_i ts _
    obtain ⟨⟨t, ts'⟩, ht, hnext⟩ := Option.bind_eq_some_iff.1 hread
    obtain ⟨w, e, rfl, hw, -⟩ := h.type ts t ts' ht
    simp only at hnext
    split at hnext
    · obtain ⟨rfl, rfl⟩ := Prod.mk.inj (Option.some.inj hnext)
      exact ⟨_, _, by simp, .parenthesized hw, Ends.settled_closed _⟩
    · obtain ⟨rfl, rfl⟩ := Prod.mk.inj (Option.some.inj hnext)
      exact ⟨_, _, by simp, .single hw, Ends.settled_closed _⟩
    · rename_i ts'' _ _
      obtain ⟨⟨us, rest⟩, hus, heq⟩ := Option.bind_eq_some_iff.1 hnext
      obtain ⟨rfl, rfl⟩ := Prod.mk.inj (Option.some.inj heq)
      obtain ⟨ws, es, rfl, hws⟩ := h.types ts'' us rest hus
      exact ⟨_, _, by simp, .tuple hw hws, Ends.settled_closed _⟩
    · simp at hnext
  · rename_i ts
    simp only at hread
    obtain ⟨⟨t, rest⟩, ht, heq⟩ := Option.bind_eq_some_iff.1 hread
    obtain ⟨rfl, rfl⟩ := Prod.mk.inj (Option.some.inj heq)
    obtain ⟨w, e, hinner, hw, hend⟩ := h.type _ t rest ht
    refine ⟨_, e, ?_, .reference hw, hend⟩
    simp only [List.cons_append, List.append_assoc, ← hinner, ← mutable?_eq, ← lifetime?_eq]
  · rename_i ts
    obtain ⟨⟨t, rest⟩, ht, heq⟩ := Option.bind_eq_some_iff.1 hread
    obtain ⟨rfl, rfl⟩ := Prod.mk.inj (Option.some.inj heq)
    obtain ⟨w, e, rfl, hw, hend⟩ := h.type ts t rest ht
    exact ⟨.mark .star :: .keyword .constant :: w, e, rfl, .pointer hw, hend⟩
  · rename_i ts
    obtain ⟨⟨t, rest⟩, ht, heq⟩ := Option.bind_eq_some_iff.1 hread
    obtain ⟨rfl, rfl⟩ := Prod.mk.inj (Option.some.inj heq)
    obtain ⟨w, e, rfl, hw, hend⟩ := h.type ts t rest ht
    exact ⟨.mark .star :: .keyword .mutable :: w, e, rfl, .pointer hw, hend⟩
  · rename_i ts
    obtain ⟨⟨t, ts'⟩, ht, hnext⟩ := Option.bind_eq_some_iff.1 hread
    obtain ⟨w, e, rfl, hw, -⟩ := h.type ts t ts' ht
    simp only at hnext
    split at hnext
    · obtain ⟨rfl, rfl⟩ := Prod.mk.inj (Option.some.inj hnext)
      exact ⟨_, _, by simp, .slice hw, Ends.settled_closed _⟩
    · rename_i ts''
      obtain ⟨⟨length, rest⟩, hlength, heq⟩ := Option.bind_eq_some_iff.1 hnext
      obtain ⟨rfl, rfl⟩ := Prod.mk.inj (Option.some.inj heq)
      obtain ⟨token, htoken, rfl⟩ := arrayLength_eq hlength
      exact ⟨_, _, by simp, .array hw htoken, Ends.settled_closed _⟩
    · simp at hnext
  · obtain ⟨rfl, rfl⟩ := Prod.mk.inj (Option.some.inj hread)
    exact ⟨[.mark .bang], _, rfl, .never, Ends.settled_closed _⟩
  · obtain ⟨rfl, rfl⟩ := Prod.mk.inj (Option.some.inj hread)
    exact ⟨[.keyword .underscore], _, rfl, .infer, Ends.settled_closed _⟩
  · rename_i ts
    obtain ⟨⟨b, rest⟩, hb, heq⟩ := Option.bind_eq_some_iff.1 hread
    obtain ⟨rfl, rfl⟩ := Prod.mk.inj (Option.some.inj heq)
    obtain ⟨w, e, rfl, hw, hrest⟩ := h.bounds ts b rest hb
    exact ⟨.keyword .object :: w, e, rfl, .bounded hw, hrest⟩
  · rename_i ts
    obtain ⟨⟨b, rest⟩, hb, heq⟩ := Option.bind_eq_some_iff.1 hread
    obtain ⟨rfl, rfl⟩ := Prod.mk.inj (Option.some.inj heq)
    obtain ⟨w, e, rfl, hw, hrest⟩ := h.bounds ts b rest hb
    exact ⟨.keyword .anonymous :: w, e, rfl, .bounded hw, hrest⟩
  · exact h.function _ t rest hread
  · exact h.function _ t rest hread
  · exact h.function _ t rest hread
  · obtain ⟨⟨ss, rest⟩, hss, heq⟩ := Option.bind_eq_some_iff.1 hread
    obtain ⟨rfl, rfl⟩ := Prod.mk.inj (Option.some.inj heq)
    obtain ⟨w, e, rfl, hw, hrest⟩ := h.path _ ss rest hss
    exact ⟨w, e, rfl, .path hw, hrest⟩

theorem succ : Sound (fuel + 1) where
  type := h.reads_type
  function := h.reads_function
  types := h.reads_types
  inputs := h.reads_inputs
  result := h.reads_result
  path := h.reads_path
  segments := h.reads_segments
  segment := h.reads_segment
  arguments := h.reads_arguments
  argument := h.reads_argument
  bounds := h.reads_bounds
  bound := h.reads_bound

end Sound

theorem sound (fuel : Nat) : Sound fuel := by
  induction fuel with
  | zero => exact .zero
  | succ fuel ih => exact ih.succ

end Crossing.TypeExpr
