import Mathlib
import Crossing.Building.Recognizer

/-!
# Sets of recognizers over a history

A set is determined by who is in it (`ext_members`), because its order is that of the ranks. An
addition puts all members in order and checks them again, and comes to this: the recognizer is
refused when a member has its rank or its name, and is one more member otherwise
(`insert_eq_ok_iff`, `exists_conflict_iff`). So two compatible recognizers can be added in either order
(`add_comm`), and a whole history of pairwise compatible ones in any.
-/

namespace Crossing.Building

namespace Recognizer

theorem Compatible.symm {a b : Recognizer} (h : a.Compatible b) : b.Compatible a :=
  ⟨h.1.symm, h.2.symm⟩

instance : Std.Symm Compatible := ⟨fun _ _ => Compatible.symm⟩

end Recognizer

namespace RecognizerSet

variable {s s' : RecognizerSet} {q r : Recognizer} {rs : List Recognizer}

theorem ext_members (h : ∀ m, m ∈ s.members ↔ m ∈ s'.members) : s = s' := by
  have hasymm : Std.Asymm fun a b : Recognizer => a.rank < b.rank := ⟨fun _ _ => lt_asymm⟩
  have hmembers : s.members = s'.members := s.ranked.eq_of_mem_iff s'.ranked h
  cases s
  cases s'
  cases hmembers
  rfl

theorem pairwise_members (s : RecognizerSet) : s.members.Pairwise Recognizer.Compatible :=
  (s.ranked.and s.named).imp fun h => ⟨h.1.ne, h.2⟩

section OfList

/-- Whether a list is in conflict is no matter of its order. -/
theorem conflict?_mergeSort :
    conflict? [] (rs.mergeSort rankLe) = none ↔ rs.Pairwise Recognizer.Compatible := by
  rw [conflict?_eq_none, (rs.mergeSort_perm rankLe).pairwise_iff Recognizer.Compatible.symm]
  simp

/-- A list with two recognizers in conflict is no set; any other is the set of what is in it. -/
theorem ofList_cases (rs : List Recognizer) :
    (¬ rs.Pairwise Recognizer.Compatible ∧ ∃ c, ofList rs = .error c) ∨
      (rs.Pairwise Recognizer.Compatible
        ∧ ∃ s, ofList rs = .ok s ∧ ∀ m, m ∈ s.members ↔ m ∈ rs) := by
  unfold ofList
  split
  · rename_i c hc
    refine .inl ⟨fun h => ?_, c, rfl⟩
    rw [conflict?_mergeSort.2 h] at hc
    cases hc
  · exact .inr ⟨conflict?_mergeSort.1 ‹_›, _, rfl, fun m => List.mem_mergeSort⟩

end OfList

section Insert

/-- A recognizer fits into a set when it is compatible with every member. -/
def Fits (s : RecognizerSet) (r : Recognizer) : Prop := ∀ m ∈ s.members, m.Compatible r

theorem pairwise_concat_iff : (s.members ++ [r]).Pairwise Recognizer.Compatible ↔ s.Fits r := by
  simp [List.pairwise_append, s.pairwise_members, Fits]

theorem not_fits_iff : ¬ s.Fits r ↔ ∃ m ∈ s.members, m.rank = r.rank ∨ m.name = r.name := by
  simp only [Fits, Recognizer.Compatible, not_forall, exists_prop, not_and_or, ne_eq, not_not]

theorem insert_cases (s : RecognizerSet) (r : Recognizer) :
    (¬ s.Fits r ∧ ∃ c, s.insert r = .error c) ∨
      (s.Fits r ∧ ∃ s', s.insert r = .ok s' ∧ ∀ m, m ∈ s'.members ↔ m ∈ s.members ∨ m = r) := by
  have h := ofList_cases (s.members ++ [r])
  rw [pairwise_concat_iff] at h
  simpa [insert] using h

end Insert

section Add

/-- The set behind an addition. One that is refused leaves the set as it is. -/
def add (s : RecognizerSet) (r : Recognizer) : RecognizerSet :=
  match s.insert r with
  | .ok s' => s'
  | .error _ => s

/-- The set behind some additions, one after another. -/
def addAll (s : RecognizerSet) (rs : List Recognizer) : RecognizerSet := rs.foldl add s

theorem mem_add : q ∈ (s.add r).members ↔ q ∈ s.members ∨ (q = r ∧ s.Fits r) := by
  unfold add
  rcases s.insert_cases r with ⟨hfits, c, hc⟩ | ⟨hfits, s', hs', hmem⟩
  · rw [hc]
    simp [hfits]
  · rw [hs', hmem]
    simp [hfits]

theorem fits_add_iff (h : q.Compatible r) : (s.add q).Fits r ↔ s.Fits r := by
  constructor
  · exact fun hfits m hm => hfits m (mem_add.2 (.inl hm))
  · intro hfits m hm
    rcases mem_add.1 hm with hm | ⟨rfl, -⟩
    · exact hfits m hm
    · exact h

/-- Compatible recognizers can be added in either order. -/
theorem add_comm (h : q.Compatible r) : (s.add q).add r = (s.add r).add q := by
  refine ext_members fun m => ?_
  rw [mem_add, mem_add, mem_add, mem_add, fits_add_iff h, fits_add_iff h.symm]
  tauto

/-- Pairwise compatible recognizers can be added in any order. -/
theorem addAll_perm {rs' : List Recognizer} (hrs : rs.Pairwise Recognizer.Compatible)
    (hperm : rs.Perm rs') : s.addAll rs' = s.addAll rs := by
  refine (hperm.foldl_eq' (fun q hq r hr z => ?_) s).symm
  by_cases heq : q = r
  · rw [heq]
  · exact add_comm (hrs.forall hq hr heq)

/-- What is refused might as well not have been tried. -/
theorem addAll_of_refused {c : Conflict} (h : (s.addAll rs).insert r = .error c)
    (later : List Recognizer) : s.addAll (rs ++ r :: later) = s.addAll (rs ++ later) := by
  have hadd : (s.addAll rs).add r = s.addAll rs := by
    unfold add
    rw [h]
  unfold addAll at hadd ⊢
  rw [List.foldl_append, List.foldl_append, List.foldl_cons, hadd]

end Add

section First

variable {knows : Recognizer → Bool}

/-- The recognizer is a member that passes a test, and none that does has a lower rank. -/
structure IsFirst (s : RecognizerSet) (knows : Recognizer → Bool) (r : Recognizer) : Prop where
  member : r ∈ s.members
  passes : knows r = true
  least : ∀ m ∈ s.members, knows m = true → r.rank ≤ m.rank

theorem first_eq_none_iff : s.first knows = none ↔ ∀ m ∈ s.members, knows m = false := by
  simp [first, List.find?_eq_none]

theorem isFirst_of_first (h : s.first knows = some r) : s.IsFirst knows r := by
  obtain ⟨hknows, before, behind, hmembers, hbefore⟩ := List.find?_eq_some_iff_append.1 h
  have hranked := s.ranked
  rw [hmembers, List.pairwise_append, List.pairwise_cons] at hranked
  refine ⟨by simp [hmembers], hknows, fun m hm hmknows => ?_⟩
  rw [hmembers] at hm
  rcases List.mem_append.1 hm with hm | hm
  · have hfails := hbefore m hm
    rw [hmknows] at hfails
    cases hfails
  · rcases List.mem_cons.1 hm with rfl | hm
    · exact le_rfl
    · exact (hranked.2.1.1 m hm).le

theorem IsFirst.unique (h : s.IsFirst knows q) (h' : s.IsFirst knows r) : q = r := by
  by_contra hne
  have hcompatible := s.pairwise_members.forall h.member h'.member hne
  exact hcompatible.1 (le_antisymm (h.least r h'.member h'.passes) (h'.least q h.member h.passes))

theorem first_eq_some_iff : s.first knows = some r ↔ s.IsFirst knows r := by
  refine ⟨isFirst_of_first, fun h => ?_⟩
  cases hfirst : s.first knows with
  | none =>
    have := first_eq_none_iff.1 hfirst r h.member
    rw [h.passes] at this
    cases this
  | some q => rw [h.unique (isFirst_of_first hfirst)]

end First

/-- Behind any additions to a set, refused ones among them, ranks ascend and names differ. A
recognizer is refused exactly when a member has its rank or its name; then everything goes on as if
it had not been tried, and otherwise it is one more member. Whatever the members know of an
expression, the one of least rank among those that know it is found, if there is any. Pairwise
compatible recognizers make the same set in any order, with the same answers. -/
theorem recognizers_throughout (s : RecognizerSet) (history : List Recognizer) :
    let reached := s.addAll history
    (reached.members.Pairwise (·.rank < ·.rank) ∧ reached.members.Pairwise (·.name ≠ ·.name))
      ∧ (∀ r, (∃ c, reached.insert r = .error c)
          ↔ ∃ m ∈ reached.members, m.rank = r.rank ∨ m.name = r.name)
      ∧ (∀ r c, reached.insert r = .error c →
          ∀ later, s.addAll (history ++ r :: later) = s.addAll (history ++ later))
      ∧ (∀ r s', reached.insert r = .ok s' →
          s.addAll (history ++ [r]) = s' ∧ ∀ m, m ∈ s'.members ↔ m ∈ reached.members ∨ m = r)
      ∧ (∀ knows r, reached.first knows = some r ↔ reached.IsFirst knows r)
      ∧ (∀ knows, reached.first knows = none ↔ ∀ m ∈ reached.members, knows m = false)
      ∧ (history.Pairwise Recognizer.Compatible → ∀ history', history.Perm history' →
          s.addAll history' = reached
            ∧ ∀ o e, (s.addAll history').recognize o e = reached.recognize o e) := by
  intro reached
  refine ⟨⟨reached.ranked, reached.named⟩, fun r => ?_, fun r c => addAll_of_refused,
    fun r s' hs' => ?_, fun knows r => first_eq_some_iff, fun knows => first_eq_none_iff,
    fun hpairwise history' hperm => ?_⟩
  · rw [← not_fits_iff]
    rcases reached.insert_cases r with ⟨hfits, hrefused⟩ | ⟨hfits, s', hs', -⟩
    · exact iff_of_true hrefused hfits
    · exact iff_of_false (by simp [hs']) (not_not.2 hfits)
  · rcases reached.insert_cases r with ⟨-, c, hc⟩ | ⟨-, t, ht, hmem⟩
    · rw [hc] at hs'
      cases hs'
    · obtain rfl : t = s' := Except.ok.inj (ht.symm.trans hs')
      refine ⟨?_, hmem⟩
      rw [addAll, List.foldl_append]
      simp only [List.foldl_cons, List.foldl_nil]
      change reached.add r = t
      rw [add, hs']
  · have hsame := addAll_perm (s := s) hpairwise hperm
    exact ⟨hsame, fun o e => by rw [hsame]⟩

section Examples

/-- Stands between the unit and the primitive types, and refuses. -/
def rawHandle : Recognizer := ⟨15, "raw_handle", .fixed (some "RawHandle") (.refuse "raw")⟩

/-- Stands behind the nominal types. -/
def wideHandle : Recognizer := ⟨101, "wide_handle", .fixed (some "WideHandle") (.refuse "wide")⟩

/-- Of the rank of a standard recognizer. -/
def otherPrimitive : Recognizer := ⟨20, "other", .never⟩

/-- The handles are added in either order, whether or not a clash was tried between them. -/
theorem recognizers_throughout_handles :
    (∃ s', standard.insert rawHandle = .ok s' ∧ standard.addAll [rawHandle] = s'
        ∧ ∀ m, m ∈ s'.members ↔ m ∈ standard.members ∨ m = rawHandle)
      ∧ (∃ c, (standard.addAll [rawHandle]).insert otherPrimitive = .error c)
      ∧ standard.addAll [rawHandle, otherPrimitive, wideHandle]
          = standard.addAll [rawHandle, wideHandle]
      ∧ standard.addAll [wideHandle, rawHandle] = standard.addAll [rawHandle, wideHandle] := by
  obtain ⟨-, -, -, hadded, -⟩ := recognizers_throughout standard []
  obtain ⟨-, hrefused, hskipped, -⟩ := recognizers_throughout standard [rawHandle]
  obtain ⟨-, -, -, -, -, -, horder⟩ := recognizers_throughout standard [rawHandle, wideHandle]
  have hfits : standard.Fits rawHandle := by
    unfold Fits
    decide
  obtain ⟨s', hs'⟩ : ∃ s', standard.insert rawHandle = .ok s' := by
    rcases standard.insert_cases rawHandle with ⟨hclash, -⟩ | ⟨-, s', hs', -⟩
    · exact absurd hfits hclash
    · exact ⟨s', hs'⟩
  obtain ⟨c, hc⟩ : ∃ c, (standard.addAll [rawHandle]).insert otherPrimitive = .error c := by
    refine (hrefused otherPrimitive).2 ⟨⟨20, "primitive", .primitive⟩, ?_, .inl rfl⟩
    exact mem_add.2 (.inl (by simp [standard]))
  exact ⟨⟨s', hs', hadded rawHandle s' hs'⟩, ⟨c, hc⟩, hskipped otherPrimitive c hc [wideHandle],
    (horder (by decide) [wideHandle, rawHandle] (List.Perm.swap ..)).1⟩

end Examples

end RecognizerSet

end Crossing.Building
