import OneApi.Decimal.Reading
import OneApi.Proofs.ShortestDigits

/-! Doubles that read back. Words of 53 bits and the powers of ten up to 10 ^ 22 are doubles, so their
products and quotients are rounded once: a numeral with few digits is read as the double that is
nearest to it, and a double that is written with few digits is read back. With more digits the
double that is read can be another one. -/

namespace OneApi

namespace Numeral

theorem le_ofDigitChars (word : Nat) (ds : List Char) : word ≤ Nat.ofDigitChars 10 ds word := by
  induction ds generalizing word with
  | nil => exact Nat.le_refl _
  | cons c rest ih =>
    rw [Nat.ofDigitChars_cons]
    exact Nat.le_trans (by omega) (ih _)

/-- No digit is left over of a number that fits. -/
theorem gather_of_lt {word : Nat} {ds : List Char} (h : Nat.ofDigitChars 10 ds word < UInt64.size) :
    gather word ds = (Nat.ofDigitChars 10 ds word, []) := by
  induction ds generalizing word with
  | nil => rfl
  | cons c rest ih =>
    rw [Nat.ofDigitChars_cons] at h ⊢
    rw [gather, if_pos (Nat.lt_of_le_of_lt (le_ofDigitChars _ _) h)]
    exact ih h

theorem significand_of_lt {n : Numeral} (h : n.value.coefficient < UInt64.size) :
    n.significand = (n.value.coefficient, -((n.fraction.getD []).length : Int)) := by
  have hvalue : n.value.coefficient =
      Nat.ofDigitChars 10 (n.fraction.getD []) (Nat.ofDigitChars 10 n.whole 0) :=
    Nat.ofDigitChars_append ..
  rw [hvalue] at h ⊢
  have hwhole := gather_of_lt (Nat.lt_of_le_of_lt (le_ofDigitChars _ _) h)
  simp [significand, hwhole, gather_of_lt h]

/-- Few digits: they fit 53 bits, and the powers of ten that belong to them are no more than 22. -/
structure Short (n : Numeral) : Prop where
  coefficient : n.value.coefficient < Nat.pow 2 53
  power : n.value.power.natAbs ≤ 22
  fraction : (n.fraction.getD []).length ≤ 22

instance (n : Numeral) : Decidable n.Short :=
  decidable_of_iff (n.value.coefficient < Nat.pow 2 53 ∧ n.value.power.natAbs ≤ 22 ∧
    (n.fraction.getD []).length ≤ 22)
    ⟨fun ⟨coefficient, power, fraction⟩ => ⟨coefficient, power, fraction⟩,
      fun ⟨coefficient, power, fraction⟩ => ⟨coefficient, power, fraction⟩⟩

end Numeral

namespace Binary64

/-! ## Exact products and quotients -/

theorem unitsOfRank_binade {fraction : Nat} (h : fraction < binadeSize) (e : Nat) :
    unitsOfRank (fraction + binadeSize * (e + 1)) = (binadeSize + fraction) * 2 ^ e := by
  have hdiv : (fraction + binadeSize * (e + 1)) / binadeSize = e + 1 := by
    rw [Nat.add_mul_div_left _ _ (by decide), Nat.div_eq_of_lt h, Nat.zero_add]
  have hmod : (fraction + binadeSize * (e + 1)) % binadeSize = fraction := by
    rw [Nat.add_mul_mod_self_left, Nat.mod_eq_of_lt h]
  simp [unitsOfRank, hdiv, hmod]

/-- Numbers of 53 bits, times a power of two, have a rank of their own. -/
theorem exists_unitsOfRank {m : Nat} (h : m < 2 ^ 53) (e : Nat) :
    ∃ rank, unitsOfRank rank = m * 2 ^ e := by
  have hsize : binadeSize = 2 ^ 52 := rfl
  induction e generalizing m with
  | zero =>
    obtain hlt | hle := Nat.lt_or_ge m binadeSize
    · exact ⟨m, by rw [unitsOfRank_of_lt hlt, Nat.pow_zero, Nat.mul_one]⟩
    · obtain ⟨fraction, rfl⟩ := Nat.exists_eq_add_of_le hle
      exact ⟨_, unitsOfRank_binade (by omega) 0⟩
  | succ e ih =>
    obtain hlt | hle := Nat.lt_or_ge m binadeSize
    · -- the leading bit can move up by one
      obtain ⟨rank, hrank⟩ := ih (m := m * 2) (by omega)
      exact ⟨rank, by rw [hrank, Nat.mul_assoc, Nat.pow_succ, Nat.mul_comm 2]⟩
    · obtain ⟨fraction, rfl⟩ := Nat.exists_eq_add_of_le hle
      exact ⟨_, unitsOfRank_binade (by omega) (e + 1)⟩

theorem unitsOfRank_rankOfUnits {m : Nat} (h : m < 2 ^ 53) (e : Nat) :
    unitsOfRank (rankOfUnits (m * 2 ^ e) 1) = m * 2 ^ e := by
  obtain ⟨rank, hrank⟩ := exists_unitsOfRank h e
  rw [← hrank, rankOfUnits_unitsOfRank]

theorem exists_unitsPerOne : ∃ n, unitsPerOne = Nat.pow 2 n := ⟨1074, unitsPerOne_eq⟩

theorem unitsPerOne_pos : 0 < unitsPerOne := by
  obtain ⟨n, hn⟩ := exists_unitsPerOne
  rw [hn]
  exact Nat.two_pow_pos n

theorem rankOfDecimal_eq (c : Nat) (p : Int) : rankOfDecimal c p =
    rankOfUnits (c * 10 ^ p.toNat * unitsPerOne) (10 ^ (-p).toNat) := rfl

theorem unitsOfRank_word {word : Nat} (h : word < 2 ^ 53) :
    unitsOfRank (rankOfDecimal word 0) = word * unitsPerOne := by
  obtain ⟨n, hn⟩ := exists_unitsPerOne
  have hrank : rankOfDecimal word 0 = rankOfUnits (word * 2 ^ n) 1 := by
    simp [rankOfDecimal_eq, hn]
  rw [hrank, unitsOfRank_rankOfUnits h, hn, Nat.pow_eq]

theorem unitsOfRank_powerOfTen {k : Nat} (h : k ≤ 22) :
    unitsOfRank (powerOfTen k) = 10 ^ k * unitsPerOne := by
  obtain ⟨n, hn⟩ := exists_unitsPerOne
  have hfive : 5 ^ k < 2 ^ 53 := Nat.lt_of_le_of_lt (Nat.pow_le_pow_right (by decide) h) (by decide)
  have hunits : 10 ^ k * 2 ^ n = 5 ^ k * 2 ^ (k + n) := by
    rw [Nat.pow_add, ← Nat.mul_assoc, ← Nat.mul_pow]
  have hrank : powerOfTen k = rankOfUnits (10 ^ k * 2 ^ n) 1 := by
    simp [powerOfTen, rankOfDecimal_eq, hn]
  rw [hrank, hunits, unitsOfRank_rankOfUnits hfive, hn, Nat.pow_eq, hunits]

theorem rankOfUnits_mul_self (a : Nat) {k : Nat} (hk : 0 < k) :
    rankOfUnits (a * k) k = rankOfUnits a 1 := by
  have hmul := rankOfUnits_mul_mul a 1 hk
  rwa [Nat.one_mul] at hmul

theorem scale_of_le {rank : Nat} {power : Int} (h : power.natAbs ≤ topPower) : scale rank power =
    some ((if 0 ≤ power then product else quotient) rank (powerOfTen power.natAbs)) := by
  rw [scale, if_pos h]

/-- Exact factors are rounded once. -/
theorem scale_word {word : Nat} {power : Int} (hword : word < 2 ^ 53) (hpower : power.natAbs ≤ 22) :
    scale (rankOfDecimal word 0) power = some (rankOfDecimal word power) := by
  have hunits := unitsOfRank_word hword
  have hten := unitsOfRank_powerOfTen hpower
  rw [scale_of_le (Nat.le_trans hpower (by decide)), Option.some.injEq, rankOfDecimal_eq word power]
  split
  · rename_i hsign
    have habs : power.natAbs = power.toNat := by omega
    have hzero : (-power).toNat = 0 := by omega
    rw [habs] at hten ⊢
    have hproduct : word * unitsPerOne * (10 ^ power.toNat * unitsPerOne) =
        word * 10 ^ power.toNat * unitsPerOne * unitsPerOne := by
      generalize unitsPerOne = units
      ring
    rw [product, hunits, hten, hzero, hproduct, rankOfUnits_mul_self _ unitsPerOne_pos, Nat.pow_zero]
  · rename_i hsign
    have habs : power.natAbs = (-power).toNat := by omega
    have hzero : power.toNat = 0 := by omega
    rw [habs] at hten ⊢
    rw [quotient, hunits, hten, hzero, Nat.pow_zero, Nat.mul_one, rankOfUnits_mul_mul _ _ unitsPerOne_pos]

theorem rankOfNumeral_of_short {n : Numeral} (h : n.Short) :
    rankOfNumeral n = some (rankOfDecimal n.value.coefficient n.value.power) := by
  obtain ⟨hword, hpower, hfraction⟩ := h
  have hscale := scale_word hword hpower
  have hsignificand := Numeral.significand_of_lt (Nat.lt_trans hword (by decide))
  rw [rankOfNumeral, hsignificand, ← hscale]
  cases hexponent : n.exponent with
  | none =>
    have hvalue : n.value.power = -((n.fraction.getD []).length : Int) := by
      simp [Numeral.value, hexponent]
    rw [hvalue]
  | some e =>
    obtain ⟨minus, ds⟩ := e
    have hvalue : n.value.power = (if minus then -((n.fraction.getD []).length : Int) -
        Nat.ofDigitChars 10 ds 0 else -((n.fraction.getD []).length : Int) +
        Nat.ofDigitChars 10 ds 0) := by
      cases minus <;> simp only [Numeral.value, hexponent] <;> grind
    have hlt : Nat.ofDigitChars 10 ds 0 < Nat.pow 2 31 := by
      have hten : Nat.pow 2 31 = 2147483648 := rfl
      rw [hvalue] at hpower
      split at hpower <;> omega
    dsimp only
    rw [if_pos hlt, hvalue]

variable {n : Numeral} {x : Binary64}

theorem ofNumeral_of_rank (hsign : n.negative = x.negative) (hrank : rankOfNumeral n = some x.rank) :
    ofNumeral n = some x := by
  rw [ofNumeral, hrank, hsign, Option.bind_some, dif_pos x.rank_lt]

/-- A numeral with few digits is read as the double that is nearest to it. -/
theorem ofNumeral_of_short (h : n.Short) (hsign : n.negative = x.negative)
    (hrank : rankOfDecimal n.value.coefficient n.value.power = x.rank) : ofNumeral n = some x :=
  ofNumeral_of_rank hsign (hrank ▸ rankOfNumeral_of_short h)

/-! ## Reading what was written -/

/-- The double that is read from the numeral of a double. -/
def reread (x : Binary64) : Option Binary64 := ofNumeral (x.numeral .document)

/-- A double is read from its numeral. -/
def ReadsBack (x : Binary64) : Prop := x.reread = some x

instance (x : Binary64) : Decidable x.ReadsBack := inferInstanceAs (Decidable (_ = _))

/-- Doubles that are written with few digits read back. -/
theorem readsBack_of_short (h : (x.numeral .document).Short) : x.ReadsBack :=
  ofNumeral_of_short h x.negative_numeral x.rankOfDecimal_numeral

end Binary64

end OneApi
