import Crossing.Proofs.Layout.Alignment
import Mathlib.Order.Bounds.Basic

/-!
# The tag of a union

A tag has the least of one, two, four and eight bytes that hold all values, and a sign when one of
them is negative (`isLeast_of_tagLayout`). Tags that an integer of 64 bits can hold, signed or not,
have such a layout (`exists_tagLayout`), and no other tags do (`tagsFit_of_tagLayout`).
-/

namespace Crossing

/-- All of some tags fit one integer of 64 bits, unsigned or signed. -/
def TagsFit (tags : List Int) : Prop :=
  (∀ g ∈ tags, 0 ≤ g ∧ g < 2 ^ 64) ∨ ∀ g ∈ tags, -2 ^ 63 ≤ g ∧ g < 2 ^ 63

section Bounds

variable {b : Int}

theorem foldl_max_lt {ns : List Int} {n : Int} (hn : n < b) (h : ∀ m ∈ ns, m < b) :
    ns.foldl max n < b := by
  induction ns generalizing n with
  | nil => exact hn
  | cons m ns ih =>
    exact ih (Int.max_lt.2 ⟨hn, h m List.mem_cons_self⟩) fun k hk => h k (List.mem_cons_of_mem _ hk)

theorem le_foldl_min {ns : List Int} {n : Int} (hn : b ≤ n) (h : ∀ m ∈ ns, b ≤ m) :
    b ≤ ns.foldl min n := by
  induction ns generalizing n with
  | nil => exact hn
  | cons m ns ih =>
    exact ih (Int.le_min.2 ⟨hn, h m List.mem_cons_self⟩) fun k hk => h k (List.mem_cons_of_mem _ hk)

theorem greatestOf_lt {ns : List Int} (hb : 0 < b) (h : ∀ n ∈ ns, n < b) : greatestOf ns < b := by
  cases ns with
  | nil => exact hb
  | cons n ns => exact foldl_max_lt (h n List.mem_cons_self) fun m hm => h m (.tail _ hm)

theorem le_leastOf {ns : List Int} (hb : b ≤ 0) (h : ∀ n ∈ ns, b ≤ n) : b ≤ leastOf ns := by
  cases ns with
  | nil => exact hb
  | cons n ns => exact le_foldl_min (h n List.mem_cons_self) fun m hm => h m (.tail _ hm)

theorem le_foldl_max (ns : List Int) (n : Int) : n ≤ ns.foldl max n := by
  induction ns generalizing n with
  | nil => exact Int.le_refl n
  | cons m ns ih => exact Int.le_trans (Int.le_max_left n m) (ih _)

theorem le_foldl_max_of_mem {ns : List Int} {m : Int} (h : m ∈ ns) (n : Int) :
    m ≤ ns.foldl max n := by
  induction ns generalizing n with
  | nil => simp at h
  | cons k ns ih =>
    rcases List.mem_cons.1 h with rfl | h
    · exact Int.le_trans (Int.le_max_right n m) (le_foldl_max ns _)
    · exact ih h _

theorem le_greatestOf {ns : List Int} {m : Int} (h : m ∈ ns) : m ≤ greatestOf ns := by
  cases ns with
  | nil => simp at h
  | cons n ns =>
    rcases List.mem_cons.1 h with rfl | h
    · exact le_foldl_max ns m
    · exact le_foldl_max_of_mem h n

theorem foldl_min_le (ns : List Int) (n : Int) : ns.foldl min n ≤ n := by
  induction ns generalizing n with
  | nil => exact Int.le_refl n
  | cons m ns ih => exact Int.le_trans (ih _) (Int.min_le_left n m)

theorem foldl_min_le_of_mem {ns : List Int} {m : Int} (h : m ∈ ns) (n : Int) :
    ns.foldl min n ≤ m := by
  induction ns generalizing n with
  | nil => simp at h
  | cons k ns ih =>
    rcases List.mem_cons.1 h with rfl | h
    · exact Int.le_trans (foldl_min_le ns _) (Int.min_le_right n m)
    · exact ih h _

theorem leastOf_le {ns : List Int} {m : Int} (h : m ∈ ns) : leastOf ns ≤ m := by
  cases ns with
  | nil => simp at h
  | cons n ns =>
    rcases List.mem_cons.1 h with rfl | h
    · exact foldl_min_le ns m
    · exact foldl_min_le_of_mem h n

end Bounds

/-- An integer of some bytes holds a value. -/
def Held (signed : Bool) (width : Nat) (tag : Int) : Prop :=
  if signed then -2 ^ (8 * width - 1) ≤ tag ∧ tag < 2 ^ (8 * width - 1)
  else 0 ≤ tag ∧ tag < 2 ^ (8 * width)

theorem bitRange_eq (n : Nat) : bitRange n = 2 ^ n := by
  simp [bitRange]

section Width

variable {tags : List Int} {width : Nat}

theorem any_neg_eq_false : tags.any (· < 0) = false ↔ ∀ g ∈ tags, 0 ≤ g := by
  simp

/-- The test by the least and the greatest value is a test of all of them. -/
theorem fitsWidth_iff :
    fitsWidth (tags.any (· < 0)) (leastOf tags) (greatestOf tags) width = true
      ↔ ∀ g ∈ tags, Held (tags.any (· < 0)) width g := by
  have hpos (n : Nat) : (0 : Int) < 2 ^ n := Int.pow_pos (by decide)
  unfold fitsWidth Held
  simp only [bitRange_eq]
  split
  · simp only [Bool.and_eq_true, decide_eq_true_eq]
    constructor
    · rintro ⟨hlow, hhigh⟩ g hg
      have := leastOf_le hg
      have := le_greatestOf hg
      omega
    · intro h
      have := hpos (8 * width - 1)
      exact ⟨le_leastOf (by omega) fun g hg => (h g hg).1,
        greatestOf_lt this fun g hg => (h g hg).2⟩
  · rename_i hsigned
    have hnonneg := any_neg_eq_false.1 (Bool.eq_false_iff.2 hsigned)
    rw [decide_eq_true_eq]
    constructor
    · intro hhigh g hg
      have := le_greatestOf hg
      exact ⟨hnonneg g hg, by omega⟩
    · exact fun h => greatestOf_lt (hpos _) fun g hg => (h g hg).2

/-- Eight bytes hold what fits 64 bits. -/
theorem tagsFit_iff_held : TagsFit tags ↔ ∀ g ∈ tags, Held (tags.any (· < 0)) 8 g := by
  unfold Held
  by_cases hsigned : tags.any (· < 0) = true
  · obtain ⟨m, hm, hneg⟩ := List.any_eq_true.1 hsigned
    rw [decide_eq_true_eq] at hneg
    simp only [hsigned, if_true]
    refine ⟨?_, .inr⟩
    rintro (h | h)
    · have := (h m hm).1
      omega
    · exact h
  · have hnonneg := any_neg_eq_false.1 (Bool.eq_false_iff.2 hsigned)
    simp only [hsigned, Bool.false_eq_true, if_false]
    refine ⟨?_, .inl⟩
    rintro (h | h) g hg
    · exact h g hg
    · have := h g hg
      have := hnonneg g hg
      omega

end Width

/-- What is found first in an ascending list is the least that can be found. -/
theorem isLeast_of_find? {ks : List Nat} {p : Nat → Bool} {k : Nat} (hks : ks.Pairwise (· < ·))
    (h : ks.find? p = some k) : IsLeast {j | j ∈ ks ∧ p j = true} k := by
  obtain ⟨hp, before, behind, rfl, hbefore⟩ := List.find?_eq_some_iff_append.1 h
  refine ⟨⟨by simp, hp⟩, fun j ⟨hj, hpj⟩ => ?_⟩
  obtain hj | rfl | hj : j ∈ before ∨ j = k ∨ j ∈ behind := by simpa using hj
  · have := hbefore j hj
    simp [hpj] at this
  · exact Nat.le_refl j
  · have hafter := (List.pairwise_append.1 hks).2.1
    exact Nat.le_of_lt ((List.pairwise_cons.1 hafter).1 j hj)

section Layout

variable {tags : List Int} {tag : TagLayout}

theorem exists_find?_of_tagLayout (h : tagLayout tags = .ok tag) :
    ∃ width, [1, 2, 4, 8].find? (fitsWidth (tags.any (· < 0)) (leastOf tags) (greatestOf tags))
      = some width ∧ tag = ⟨0, width, tags.any (· < 0)⟩ := by
  unfold tagLayout at h
  dsimp only at h
  split at h
  · exact ⟨_, ‹_›, (Except.ok.inj h).symm⟩
  · simp at h

/-- A tag stands in front, in the least width that holds every value, and is signed when one of them
is negative. -/
theorem isLeast_of_tagLayout (h : tagLayout tags = .ok tag) :
    tag.offset = 0 ∧ tag.signed = tags.any (· < 0) ∧ ∃ width : Nat, tag.width = width
      ∧ IsLeast {k | k ∈ [1, 2, 4, 8] ∧ ∀ g ∈ tags, Held tag.signed k g} width := by
  obtain ⟨width, hfind, rfl⟩ := exists_find?_of_tagLayout h
  have hleast := isLeast_of_find? (by decide) hfind
  simp only [fitsWidth_iff] at hleast
  exact ⟨rfl, rfl, width, rfl, hleast⟩

theorem IsAlignment.of_width {width : Nat} (h : width ∈ [1, 2, 4, 8]) : IsAlignment width := by
  simp only [List.mem_cons, List.not_mem_nil, or_false] at h
  rcases h with rfl | rfl | rfl | rfl
  · exact ⟨0, rfl⟩
  · exact ⟨1, rfl⟩
  · exact ⟨2, rfl⟩
  · exact ⟨3, rfl⟩

/-- Tags that fit 64 bits have a layout. -/
theorem exists_tagLayout (h : TagsFit tags) :
    ∃ tag, tagLayout tags = .ok tag ∧ tag.offset = 0 ∧ IsAlignment tag.width := by
  have hfits := fitsWidth_iff.2 (tagsFit_iff_held.1 h)
  rcases htag : tagLayout tags with e | tag
  · unfold tagLayout at htag
    dsimp only at htag
    split at htag
    · simp at htag
    · rename_i hnone
      exact absurd hfits (List.find?_eq_none.1 hnone 8 (by simp))
  · obtain ⟨hzero, -, width, hwidth, ⟨hmem, -⟩, -⟩ := isLeast_of_tagLayout htag
    exact ⟨tag, rfl, hzero, hwidth ▸ .of_width hmem⟩

theorem Held.mono {signed : Bool} {j k : Nat} (h : j ≤ k) {g : Int} (hg : Held signed j g) :
    Held signed k g := by
  have hpow {a b : Nat} (hab : a ≤ b) : (2 : Int) ^ a ≤ 2 ^ b :=
    mod_cast Nat.pow_le_pow_right (by decide) hab
  have hsigned := hpow (Nat.sub_le_sub_right (Nat.mul_le_mul_left 8 h) 1)
  have hunsigned := hpow (Nat.mul_le_mul_left 8 h)
  unfold Held at *
  split_ifs at * <;> omega

/-- Tags with a layout fit 64 bits. -/
theorem tagsFit_of_tagLayout (h : tagLayout tags = .ok tag) : TagsFit tags := by
  obtain ⟨-, hsigned, width, -, ⟨hmem, hheld⟩, -⟩ := isLeast_of_tagLayout h
  have hle : width ≤ 8 := by
    simp only [List.mem_cons, List.not_mem_nil, or_false] at hmem
    omega
  exact tagsFit_iff_held.2 fun g hg => hsigned ▸ (hheld g hg).mono hle

end Layout

end Crossing
