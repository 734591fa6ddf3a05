import Crossing.Layout.Check
import Mathlib.Algebra.Order.Group.Int
import Mathlib.Data.Nat.Bitwise
import Mathlib.Order.Bounds.Basic

/-!
# Alignment

`alignUp v a` is the least multiple of `a` that is at least `v` (`dvd_alignUp`, `le_alignUp`,
`alignUp_le`), and it moves along with multiples of `a` (`alignUp_add`). Alignments are powers of
two: of two of them one divides the other, so the greatest of some alignments is a multiple of each.
-/

namespace Crossing

section AlignUp

variable {v a q : Int}

theorem dvd_alignUp (ha : 0 < a) (v : Int) : a ∣ alignUp v a := by
  unfold alignUp
  split
  · obtain rfl : a = 1 := by omega
    exact Int.one_dvd v
  · exact Int.dvd_mul_left _ _

theorem le_alignUp (ha : 0 < a) (v : Int) : v ≤ alignUp v a := by
  unfold alignUp
  split
  · exact Int.le_refl v
  · have := Int.lt_ediv_add_one_mul_self (v + a - 1) ha
    rw [Int.add_mul] at this
    omega

theorem alignUp_lt (ha : 0 < a) (v : Int) : alignUp v a < v + a := by
  unfold alignUp
  split
  · omega
  · have := Int.ediv_mul_le (v + a - 1) (b := a) (by omega)
    omega

/-- No smaller multiple of the alignment is at least the value. -/
theorem alignUp_le (ha : 0 < a) (hv : v ≤ q) (hq : a ∣ q) : alignUp v a ≤ q := by
  obtain ⟨k, rfl⟩ := hq
  obtain ⟨j, hj⟩ := dvd_alignUp ha v
  have hlt := alignUp_lt ha v
  rw [hj] at hlt ⊢
  have hjk : j < k + 1 := by
    by_contra hge
    have := Int.mul_le_mul_of_nonneg_left (Int.not_lt.1 hge) (Int.le_of_lt ha)
    rw [Int.mul_add] at this
    omega
  exact Int.mul_le_mul_of_nonneg_left (by omega) (Int.le_of_lt ha)

/-- A multiple of the alignment in front shifts the result. -/
theorem alignUp_add (ha : 0 < a) (hq : a ∣ q) (v : Int) : alignUp (q + v) a = q + alignUp v a := by
  apply Int.le_antisymm
  · refine alignUp_le ha ?_ (Int.dvd_add hq (dvd_alignUp ha v))
    have := le_alignUp ha v
    omega
  · have hdvd : a ∣ alignUp (q + v) a - q := Int.dvd_sub (dvd_alignUp ha _) hq
    have hle : v ≤ alignUp (q + v) a - q := by
      have := le_alignUp ha (q + v)
      omega
    have := alignUp_le ha hle hdvd
    omega

theorem isLeast_alignUp (ha : 0 < a) (v : Int) : IsLeast {n | a ∣ n ∧ v ≤ n} (alignUp v a) :=
  ⟨⟨dvd_alignUp ha v, le_alignUp ha v⟩, fun _ ⟨hdvd, hle⟩ => alignUp_le ha hle hdvd⟩

end AlignUp

section PowerOfTwo

/-- A power of two, as alignments are. -/
def IsAlignment (a : Int) : Prop := ∃ k : Nat, a = 2 ^ k

variable {a b : Int}

theorem IsAlignment.pos (h : IsAlignment a) : 0 < a := by
  obtain ⟨k, rfl⟩ := h
  exact Int.pow_pos (by decide)

theorem isAlignment_one : IsAlignment 1 := ⟨0, rfl⟩

theorem IsAlignment.dvd_of_le (ha : IsAlignment a) (hb : IsAlignment b) (h : a ≤ b) : a ∣ b := by
  obtain ⟨j, rfl⟩ := ha
  obtain ⟨k, rfl⟩ := hb
  rcases Nat.le_total j k with hjk | hkj
  · exact pow_dvd_pow 2 hjk
  · have : (2 : Int) ^ k ∣ 2 ^ j := pow_dvd_pow 2 hkj
    have := Int.le_of_dvd (Int.pow_pos (by decide)) this
    rw [Int.le_antisymm h this]

theorem IsAlignment.max (ha : IsAlignment a) (hb : IsAlignment b) : IsAlignment (max a b) := by
  rcases Int.le_total a b with h | h
  · rwa [Int.max_eq_right h]
  · rwa [Int.max_eq_left h]

theorem IsAlignment.dvd_max_left (ha : IsAlignment a) (hb : IsAlignment b) : a ∣ Max.max a b :=
  ha.dvd_of_le (ha.max hb) (Int.le_max_left a b)

theorem IsAlignment.dvd_max_right (ha : IsAlignment a) (hb : IsAlignment b) : b ∣ Max.max a b :=
  hb.dvd_of_le (ha.max hb) (Int.le_max_right a b)

/-- The test of the check finds powers of two to be such. -/
theorem IsAlignment.isPowerOfTwo (h : IsAlignment a) : Layout.isPowerOfTwo a = true := by
  have hpos := h.pos
  obtain ⟨k, rfl⟩ := h
  have hnat : ((2 : Int) ^ k).toNat = 2 ^ k := by
    rw [← Int.toNat_natCast (2 ^ k)]
    simp
  rw [Layout.isPowerOfTwo, hnat, Nat.and_two_pow_sub_one_eq_mod, Nat.mod_self]
  simp only [beq_self_eq_true, Bool.and_true, decide_eq_true_eq]
  omega

/-- And nothing else. -/
theorem isPowerOfTwo_iff : Layout.isPowerOfTwo a = true ↔ IsAlignment a := by
  refine ⟨fun h => ?_, IsAlignment.isPowerOfTwo⟩
  simp only [Layout.isPowerOfTwo, Bool.and_eq_true, decide_eq_true_eq, beq_iff_eq] at h
  obtain ⟨hpos, hand⟩ := h
  obtain ⟨k, hk⟩ := (Nat.and_sub_one_eq_zero_iff_isPowerOfTwo (by omega)).1 hand
  refine ⟨k, ?_⟩
  rw [← Int.toNat_of_nonneg (Int.le_trans (by decide) hpos), hk]
  simp

end PowerOfTwo

end Crossing
