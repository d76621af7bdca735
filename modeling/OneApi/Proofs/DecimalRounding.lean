import Mathlib.Tactic.Ring
import OneApi.Decimal.Shortest

/-! Rounding of decimals to doubles. Only the value of a decimal counts, however its zeros are
written, and the decimals that the search for digits can end with round to the double they were
made for. -/

namespace OneApi.Text

theorem ten_pow_pos (n : Nat) : 0 < 10 ^ n := Nat.pow_pos (Nat.succ_pos 9)

end OneApi.Text

namespace OneApi.Binary64

theorem nearestEven_mul_mul (a b : Nat) {k : Nat} (hk : 0 < k) :
    nearestEven (a * k) (b * k) = nearestEven a b := by
  have hq : a * k / (b * k) = a / b := Nat.mul_div_mul_right a b hk
  have hr : a * k % (b * k) = a % b * k := Nat.mul_mod_mul_right k a b
  have htwice : 2 * (a % b * k) = 2 * (a % b) * k := (Nat.mul_assoc 2 _ k).symm
  have hlt : b * k < 2 * (a % b) * k ↔ b < 2 * (a % b) := Nat.mul_lt_mul_right hk
  have heq : (2 * (a % b) * k == b * k) = (2 * (a % b) == b) := by
    simp [hk.ne']
  simp only [nearestEven, hq, hr, htwice, hlt, heq]

theorem rankOfUnits_mul_mul (a b : Nat) {k : Nat} (hk : 0 < k) :
    rankOfUnits (a * k) (b * k) = rankOfUnits a b := by
  have hq : a * k / (b * k) = a / b := Nat.mul_div_mul_right a b hk
  have hmul (c : Nat) : b * k * c = b * c * k := Nat.mul_right_comm b k c
  simp only [rankOfUnits, hq, hmul, nearestEven_mul_mul _ _ hk]

/-- Zeros at the end of a coefficient can be put into the power. -/
theorem rankOfDecimal_mul_pow (c z : Nat) (p : Int) :
    rankOfDecimal (c * 10 ^ z) p = rankOfDecimal c (p + z) := by
  have hpower : 10 ^ z * 10 ^ p.toNat * 10 ^ (-(p + z)).toNat =
      10 ^ (p + z).toNat * 10 ^ (-p).toNat := by
    rw [← Nat.pow_add, ← Nat.pow_add, ← Nat.pow_add]
    congr 1
    omega
  have hleft := rankOfUnits_mul_mul (c * 10 ^ z * 10 ^ p.toNat * unitsPerOne) (10 ^ (-p).toNat)
    (Text.ten_pow_pos (-(p + z)).toNat)
  have hright := rankOfUnits_mul_mul (c * 10 ^ (p + z).toNat * unitsPerOne)
    (10 ^ (-(p + z)).toNat) (Text.ten_pow_pos (-p).toNat)
  have hunits : c * 10 ^ z * 10 ^ p.toNat * unitsPerOne * 10 ^ (-(p + z)).toNat =
      c * 10 ^ (p + z).toNat * unitsPerOne * 10 ^ (-p).toNat := by
    calc c * 10 ^ z * 10 ^ p.toNat * unitsPerOne * 10 ^ (-(p + z)).toNat
        = c * (10 ^ z * 10 ^ p.toNat * 10 ^ (-(p + z)).toNat) * unitsPerOne := by ring
      _ = c * 10 ^ (p + z).toNat * unitsPerOne * 10 ^ (-p).toNat := by rw [hpower]; ring
  simp only [rankOfDecimal, Nat.pow_eq]
  rw [← hleft, ← hright, hunits, Nat.mul_comm (10 ^ (-p).toNat)]

theorem unitsOfRank_of_lt {rank : Nat} (h : rank < binadeSize) : unitsOfRank rank = rank := by
  have hbinade : rank / binadeSize = 0 := Nat.div_eq_of_lt h
  simp [unitsOfRank, hbinade, Nat.mod_eq_of_lt h]

theorem log2_mul_pow {fraction : Nat} (h : fraction < binadeSize) (e : Nat) :
    ((binadeSize + fraction) * 2 ^ e).log2 = 52 + e := by
  have hsize : binadeSize = 2 ^ 52 := rfl
  have hpos : 0 < 2 ^ e := Nat.two_pow_pos e
  rw [hsize] at h ⊢
  rw [Nat.log2_eq_iff (Nat.mul_pos (by omega) hpos).ne']
  constructor
  · rw [Nat.pow_add]
    exact Nat.mul_le_mul_right _ (Nat.le_add_right _ _)
  · rw [Nat.add_right_comm, Nat.pow_add]
    exact Nat.mul_lt_mul_of_pos_right (by omega) hpos

/-- The units that a rank stands for have that rank. -/
theorem rankOfUnits_unitsOfRank (rank : Nat) : rankOfUnits (unitsOfRank rank) 1 = rank := by
  -- the first binade has no leading bit; above it the bit gives the binade away
  by_cases hlt : rank < binadeSize
  · have hlog : rank.log2 - 52 = 0 := by
      by_cases hzero : rank = 0
      · rw [hzero]
        rfl
      · have := (Nat.log2_lt hzero).mpr hlt
        omega
    have heven := nearestEven_mul rank 1 (by decide)
    rw [Nat.mul_one] at heven
    simp only [unitsOfRank_of_lt hlt, rankOfUnits, Nat.div_one, hlog, Nat.pow_eq, Nat.pow_zero,
      Nat.mul_one, heven, Nat.zero_mul, Nat.zero_add]
  · have hpos : 0 < binadeSize := by decide
    have hmod := Nat.mod_lt rank hpos
    have hsplit := Nat.div_add_mod' rank binadeSize
    obtain ⟨e, he⟩ : ∃ e, rank / binadeSize = e + 1 :=
      Nat.exists_eq_succ_of_ne_zero (Nat.div_ne_zero_iff.mpr ⟨hpos.ne', by omega⟩)
    have hlog := log2_mul_pow hmod e
    have heven := nearestEven_mul (binadeSize + rank % binadeSize) (2 ^ e) (Nat.two_pow_pos e)
    rw [he, Nat.succ_mul] at hsplit
    simp only [unitsOfRank, rankOfUnits, he, if_neg (Nat.succ_ne_zero e), Nat.div_one, Nat.pow_eq,
      Nat.add_sub_cancel, hlog, Nat.add_sub_cancel_left, Nat.one_mul, heven]
    omega

theorem unitsPerOne_eq : unitsPerOne = Nat.pow 2 1074 := by decide +kernel

/-- All digits of a double, for as many powers of two as make one. -/
theorem rankOfDecimal_mul_five_pow {n : Nat} (hn : unitsPerOne = Nat.pow 2 n) (u : Nat) :
    rankOfDecimal (u * Nat.pow 5 n) (-(n : Int)) = rankOfUnits u 1 := by
  have hten : 5 ^ n * 2 ^ n = 10 ^ n := (Nat.mul_pow 5 2 n).symm
  have hzero : (-(n : Int)).toNat = 0 := by omega
  have hpower : (-(-(n : Int))).toNat = n := by omega
  rw [rankOfDecimal, hzero, hpower, hn]
  simp only [Nat.pow_eq, Nat.pow_zero, Nat.mul_one]
  rw [Nat.mul_assoc, hten, ← rankOfUnits_mul_mul u 1 (Text.ten_pow_pos n), Nat.one_mul]

theorem rankOfDecimal_exact (rank : Nat) :
    rankOfDecimal (exactDecimal rank).1 (exactDecimal rank).2 = rank := by
  have hunits := rankOfDecimal_mul_five_pow unitsPerOne_eq (unitsOfRank rank)
  rw [rankOfUnits_unitsOfRank] at hunits
  exact hunits

/-- A decimal is taken from the grid only if it reads back. -/
theorem rankOfDecimal_of_onGrid {tie : Tie} {rank : Nat} {power : Int} {coefficient : Nat}
    (h : onGrid tie rank power = some coefficient) : rankOfDecimal coefficient power = rank := by
  unfold onGrid at h
  extract_lets num den low twice lowHits highHits preferHigh at h
  have hlow : lowHits = true → rankOfDecimal low power = rank := fun hits => beq_iff_eq.mp hits
  have hhigh : highHits = true → rankOfDecimal (low + 1) power = rank := fun hits => beq_iff_eq.mp hits
  clear_value preferHigh lowHits highHits low
  split at h
  · rename_i hboth
    rw [Bool.and_eq_true] at hboth
    cases h
    split
    · exact hhigh hboth.2
    · exact hlow hboth.1
  · split at h
    · rename_i hits
      cases h
      exact hlow hits
    · split at h
      · rename_i hits
        cases h
        exact hhigh hits
      · contradiction

theorem rankOfDecimal_zero (p : Int) : rankOfDecimal 0 p = 0 := by
  simp [rankOfDecimal, rankOfUnits, nearestEven]

theorem ne_zero_of_rank_ne_zero {c : Nat} {p : Int} (h : rankOfDecimal c p ≠ 0) : c ≠ 0 := by
  rintro rfl
  exact h (rankOfDecimal_zero p)

end OneApi.Binary64
