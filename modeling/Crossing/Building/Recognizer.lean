import Crossing.Building.Rule

/-!
# Ranked recognizers

A recognizer is a rule with a name and a rank, and a set of them tries its members in the order of
their ranks: the first that knows an expression decides. Ranks and names are distinct in every set,
so no two recognizers can tie: a list of recognizers becomes a set by being put in order and checked
(`ofList`), and so does a set with one more.
-/

namespace Crossing.Building

structure Recognizer where
  rank : Int
  name : String
  rule : Rule

/-- The recipe of a recognizer for an expression that it knows. -/
def Recognizer.recipe? (r : Recognizer) (o : Outlook) (e : TypeExpr) : Option Recipe :=
  r.rule.recipe? o e

/-- Whether a recognizer knows an expression. -/
def Recognizer.knows (r : Recognizer) (o : Outlook) (e : TypeExpr) : Bool :=
  (r.recipe? o e).isSome

/-- Two recognizers that can be in one set: neither their rank nor their name is the same. -/
def Recognizer.Compatible (a b : Recognizer) : Prop := a.rank ≠ b.rank ∧ a.name ≠ b.name

instance : DecidableRel Recognizer.Compatible := fun a b =>
  inferInstanceAs (Decidable (a.rank ≠ b.rank ∧ a.name ≠ b.name))

/-- Recognizers in ascending order of their ranks, with distinct names. -/
structure RecognizerSet where
  members : List Recognizer
  ranked : members.Pairwise (·.rank < ·.rank) := by decide
  named : members.Pairwise (·.name ≠ ·.name) := by decide

namespace RecognizerSet

/-- Why a recognizer does not fit into a set. -/
inductive Conflict where
  | rank (present added : String) (value : Int)
  | name (shared : String)
  deriving DecidableEq

def Conflict.message : Conflict → String
  | .rank present added value =>
    "recognizers '" ++ present ++ "' and '" ++ added ++ "' share rank " ++ toString value
  | .name shared => "duplicate recognizer name '" ++ shared ++ "'"

/-- The first conflict that a list of recognizers runs into behind those that are `present`; an equal
rank is told before an equal name. -/
def conflict? (present : List Recognizer) : List Recognizer → Option Conflict
  | [] => none
  | r :: rs =>
    match present.find? (·.rank == r.rank) with
    | some m => some (.rank m.name r.name r.rank)
    | none =>
      if present.any (·.name == r.name) then some (.name r.name) else conflict? (r :: present) rs

theorem conflict?_eq_none {present rs : List Recognizer} : conflict? present rs = none ↔
    (∀ m ∈ present, ∀ r ∈ rs, m.Compatible r) ∧ rs.Pairwise Recognizer.Compatible := by
  induction rs generalizing present with
  | nil => simp [conflict?]
  | cons r rs ih =>
    have hfits : (∀ m ∈ present, m.Compatible r) ↔
        present.find? (·.rank == r.rank) = none ∧ ¬ present.any (·.name == r.name) := by
      simp [Recognizer.Compatible, forall_and]
    have hnext : conflict? present (r :: rs) = none ↔
        (∀ m ∈ present, m.Compatible r) ∧ conflict? (r :: present) rs = none := by
      rw [hfits, conflict?]
      split
      · simp_all
      · split <;> simp_all
    rw [hnext, ih, List.pairwise_cons, List.forall_mem_cons]
    constructor
    · rintro ⟨hr, ⟨hbehind, hpresent⟩, hrs⟩
      exact ⟨fun m hm => List.forall_mem_cons.2 ⟨hr m hm, hpresent m hm⟩, hbehind, hrs⟩
    · rintro ⟨hpresent, hbehind, hrs⟩
      exact ⟨fun m hm => hpresent m hm r List.mem_cons_self,
        ⟨hbehind, fun m hm q hq => hpresent m hm q (.tail _ hq)⟩, hrs⟩

/-- The ascending order of ranks. -/
def rankLe (a b : Recognizer) : Bool := decide (a.rank ≤ b.rank)

theorem pairwise_rank_mergeSort (rs : List Recognizer) :
    (rs.mergeSort rankLe).Pairwise fun a b => a.rank ≤ b.rank := by
  refine (@List.pairwise_mergeSort _ rankLe ?_ ?_ rs).imp of_decide_eq_true
  · intro a b c hab hbc
    exact decide_eq_true (Int.le_trans (of_decide_eq_true hab) (of_decide_eq_true hbc))
  · intro a b
    simpa [rankLe] using Int.le_total a.rank b.rank

/-- Recognizers in the order of their ranks, unless two of them are in conflict. -/
def ofList (rs : List Recognizer) : Except Conflict RecognizerSet :=
  match h : conflict? [] (rs.mergeSort rankLe) with
  | some c => .error c
  | none =>
    .ok {
      members := rs.mergeSort rankLe
      ranked := ((pairwise_rank_mergeSort rs).and (conflict?_eq_none.1 h).2).imp fun h => by
        have := h.2.1
        omega
      named := (conflict?_eq_none.1 h).2.imp fun h => h.2 }

/-- The set with one more recognizer. All are put in order and checked again. -/
def insert (s : RecognizerSet) (r : Recognizer) : Except Conflict RecognizerSet :=
  ofList (s.members ++ [r])

def empty : RecognizerSet where
  members := []

/-- The rules for every type that has an interface type, the more special first. -/
def standard : RecognizerSet where
  members :=
    [⟨10, "unit", .unit⟩, ⟨20, "primitive", .primitive⟩, ⟨25, "never", .never⟩,
      ⟨30, "text", .text⟩, ⟨40, "sequence", .sequence⟩, ⟨50, "callable", .callable⟩,
      ⟨60, "optional", .optional⟩, ⟨70, "result", .result⟩, ⟨80, "pointer", .pointer⟩,
      ⟨90, "tuple", .tuple⟩, ⟨95, "structural_sequence", .structuralSequence⟩,
      ⟨100, "nominal", .nominal⟩, ⟨1000, "unknown", .unknown⟩]

/-- The member of least rank among those that pass a test. -/
def first (s : RecognizerSet) (knows : Recognizer → Bool) : Option Recognizer :=
  s.members.find? knows

/-- The member of least rank that knows an expression. -/
def recognize (s : RecognizerSet) (o : Outlook) (e : TypeExpr) : Option Recognizer :=
  s.first (·.knows o e)

/-- The recipe for an expression; what no member knows is refused. -/
def recipe (s : RecognizerSet) (o : Outlook) (e : TypeExpr) : Recipe :=
  match (s.recognize o e).bind (·.recipe? o e) with
  | some r => r
  | none => .refuse (.about e ("type `" ++ e.render ++ "` has no marshaling rule"))

/-- Some rule has the recipe for its answer, and a fixed rule only as a member. -/
theorem exists_answers (s : RecognizerSet) (o : Outlook) (e : TypeExpr) :
    ∃ rule : Rule, rule.Answers o e (s.recipe o e) ∧
      ∀ name answer, rule = .fixed name answer → ∃ member ∈ s.members, member.rule = rule := by
  unfold recipe
  split
  · rename_i r h
    obtain ⟨member, hfound, hr⟩ := Option.bind_eq_some_iff.1 h
    exact ⟨member.rule, Rule.answers_of_recipe? hr,
      fun _ _ _ => ⟨member, List.mem_of_find?_eq_some hfound, rfl⟩⟩
  · exact ⟨.unknown, .refuse _, nofun⟩

/-- The parts of a recipe weigh less than the expression that it is for. -/
theorem weight_recipe_lt (s : RecognizerSet) (o : Outlook) (e : TypeExpr) :
    (s.recipe o e).weight < sizeOf e :=
  let ⟨_, hanswers, _⟩ := s.exists_answers o e
  hanswers.weight_lt

end RecognizerSet

end Crossing.Building
