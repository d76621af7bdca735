import OneApi.Decimal.Layout
import OneApi.Proofs.DecimalRounding

/-! The digits of a double. They round to its rank, whichever decimal was found; both layouts of a
document show them with their power of ten; so the numeral of a double has a value that rounds to
it. -/

namespace OneApi.Text

theorem exists_decimal_eq_cons {n : Nat} (h : n ≠ 0) :
    ∃ d rest, decimal n = d :: rest ∧ d ≠ '0' := by
  induction n using Nat.strongRecOn with
  | ind n ih =>
    rw [decimal, Nat.toDigits_eq_if (by decide)]
    split
    · rename_i hlt
      have hdigit : ∀ m < 10, m ≠ 0 → m.digitChar ≠ '0' := by decide
      exact ⟨n.digitChar, [], rfl, hdigit n hlt h⟩
    · obtain ⟨d, rest, hcons, hd⟩ := ih (n / 10) (by omega) (by omega)
      exact ⟨d, rest ++ [(n % 10).digitChar], congrArg (· ++ _) hcons, hd⟩

theorem ofDigitChars_decimal (n : Nat) : Nat.ofDigitChars 10 (decimal n) 0 = n :=
  Nat.ofDigitChars_toDigits (by decide) (by decide)

/-- What is dropped from the end of a text is that character alone. -/
theorem exists_dropEnd_append (c : Char) (s : List Char) :
    ∃ n, s = dropEnd (· == c) s ++ List.replicate n c := by
  refine ⟨(s.reverse.takeWhile (· == c)).length, ?_⟩
  have hall : ∀ d ∈ s.reverse.takeWhile (· == c), d = c := by
    intro d hd
    exact beq_iff_eq.mp (List.all_eq_true.mp List.all_takeWhile d hd)
  have hsplit : s.reverse = s.reverse.takeWhile (· == c) ++ s.reverse.dropWhile (· == c) :=
    List.takeWhile_append_dropWhile.symm
  rw [List.eq_replicate_of_mem hall] at hsplit
  have hrev := congrArg List.reverse hsplit
  rwa [List.reverse_reverse, List.reverse_append, List.reverse_replicate] at hrev

end OneApi.Text

namespace OneApi.Binary64

/-- Digits with the power of ten of the first of them: no zero comes first, and they round to the
rank. -/
structure DigitsOf (rank : Nat) (digits : List Char) (power : Int) : Prop where
  isDigit : ∀ c ∈ digits, c.isDigit = true
  leading : ∃ c rest, digits = c :: rest ∧ c ≠ '0'
  rank_eq : rankOfDecimal (Nat.ofDigitChars 10 digits 0) (power + 1 - digits.length) = rank

theorem digitsOf_dropZeros {rank coefficient : Nat} {power : Int} (hne : rank ≠ 0)
    (h : rankOfDecimal coefficient power = rank) :
    DigitsOf rank (dropZeros (Text.decimal coefficient))
      (power + (Text.decimal coefficient).length - 1) := by
  have hzero : coefficient ≠ 0 := ne_zero_of_rank_ne_zero (h ▸ hne)
  obtain ⟨zeros, hsplit⟩ := Text.exists_dropEnd_append '0' (Text.decimal coefficient)
  have hsplit : Text.decimal coefficient =
    dropZeros (Text.decimal coefficient) ++ List.replicate zeros '0' := hsplit
  generalize dropZeros (Text.decimal coefficient) = digits at hsplit
  refine ⟨?_, ?_, ?_⟩
  · intro c hc
    exact Text.isDigit_of_mem_decimal (hsplit ▸ List.mem_append_left _ hc)
  · obtain ⟨c, rest, hcons, hc⟩ := Text.exists_decimal_eq_cons hzero
    rw [hcons] at hsplit
    cases digits with
    | nil =>
      have hmem : c ∈ List.replicate zeros '0' := by
        rw [List.nil_append] at hsplit
        rw [← hsplit]
        exact List.mem_cons_self
      exact absurd (List.eq_of_mem_replicate hmem) hc
    | cons d digits =>
      rw [List.cons_append, List.cons.injEq] at hsplit
      exact ⟨d, digits, rfl, hsplit.1 ▸ hc⟩
  · have hvalue : coefficient = Nat.ofDigitChars 10 digits 0 * 10 ^ zeros := by
      calc coefficient = Nat.ofDigitChars 10 (Text.decimal coefficient) 0 :=
            (Text.ofDigitChars_decimal coefficient).symm
        _ = Nat.ofDigitChars 10 digits 0 * 10 ^ zeros := by
            rw [hsplit, Nat.ofDigitChars_append, Nat.ofDigitChars_replicate_zero, Nat.mul_comm]
    have hlength : (Text.decimal coefficient).length = digits.length + zeros := by
      rw [hsplit, List.length_append, List.length_replicate]
    have hpower : power + (Text.decimal coefficient).length - 1 + 1 - digits.length =
        power + zeros := by
      rw [hlength]
      omega
    rw [hpower, ← rankOfDecimal_mul_pow, ← hvalue, h]

theorem rankOfDecimal_nearestDecimal (tie : Tie) (rank : Nat) :
    rankOfDecimal (nearestDecimal tie rank).1 (nearestDecimal tie rank).2 = rank := by
  unfold nearestDecimal
  extract_lets first found
  cases hfound : found with
  | none => exact rankOfDecimal_exact rank
  | some d =>
    obtain ⟨more, _, hgrid⟩ := List.exists_of_findSome?_eq_some hfound
    obtain ⟨coefficient, hcoefficient, rfl⟩ := Option.map_eq_some_iff.mp hgrid
    exact rankOfDecimal_of_onGrid hcoefficient

theorem digitsOf_shortest (tie : Tie) {rank : Nat} (h : rank ≠ 0) :
    DigitsOf rank (shortest tie rank).1 (shortest tie rank).2 := by
  have hrank := rankOfDecimal_nearestDecimal tie rank
  unfold shortest
  exact digitsOf_dropZeros h hrank

/-! ## The numeral of a double -/

/-- A numeral has the value of these digits: perhaps with zeros at the end, and with the power of
ten of the first digit. -/
def Shows (n : Numeral) (digits : List Char) (power : Int) : Prop :=
  ∃ zeros : Nat, n.value.coefficient = Nat.ofDigitChars 10 digits 0 * 10 ^ zeros ∧
    n.value.power + zeros = power + 1 - digits.length

theorem shows_positional (negative : Bool) (digits : List Char) (power : Int) :
    Shows (positional .document negative digits power) digits power := by
  unfold positional
  -- zeros stand in front of the digits, behind them, or nowhere
  split
  · refine ⟨0, ?_, ?_⟩
    · simp [Numeral.value, Nat.ofDigitChars_cons, Nat.ofDigitChars_append,
        Nat.ofDigitChars_replicate_zero]
    · simp only [Numeral.value, Option.getD_some, List.length_append, List.length_replicate]
      omega
  · extract_lets count whole
    have hcount : (count : Int) = power + 1 := by omega
    cases hdrop : digits.drop count with
    | nil =>
      have hle : digits.length ≤ count := List.drop_eq_nil_iff.mp hdrop
      have hwhole : whole = digits ++ List.replicate (count - digits.length) '0' :=
        congrArg (· ++ _) (List.take_of_length_le hle)
      refine ⟨count - digits.length + 1, ?_, ?_⟩
      · simp [Numeral.value, hwhole, NumberStyle.document, Nat.ofDigitChars_append,
          Nat.ofDigitChars_replicate_zero, Nat.ofDigitChars_cons]
        ring
      · simp only [Numeral.value, NumberStyle.document, if_true, Option.getD_some, List.length_singleton]
        omega
    | cons c rest =>
      have hlt : count < digits.length := by
        by_contra hle
        rw [List.drop_of_length_le (by omega)] at hdrop
        contradiction
      have hwhole : whole ++ c :: rest = digits := by
        have hzeros : count - digits.length = 0 := by omega
        show digits.take count ++ List.replicate (count - digits.length) '0' ++ c :: rest = digits
        rw [hzeros, List.replicate_zero, List.append_nil, ← hdrop, List.take_append_drop]
      have hlength := congrArg List.length hdrop
      rw [List.length_drop] at hlength
      refine ⟨0, ?_, ?_⟩
      · simp [Numeral.value, hwhole]
      · simp only [Numeral.value, Option.getD_some]
        omega

theorem shows_scientific (negative : Bool) {digits : List Char} (power : Int) (h : digits ≠ []) :
    Shows (scientific negative digits power) digits power := by
  obtain ⟨c, rest, rfl⟩ := List.exists_cons_of_ne_nil h
  have hfraction : (scientific negative (c :: rest) power).fraction.getD [] = rest := by
    cases rest <;> rfl
  have hexponent := Text.ofDigitChars_decimal power.natAbs
  refine ⟨0, ?_, ?_⟩
  · rw [Numeral.value, hfraction, Nat.pow_zero, Nat.mul_one]
    rfl
  · simp only [Numeral.value, hfraction, List.length_cons]
    by_cases hneg : power < 0
    · simp only [scientific, hneg, decide_true, hexponent]
      omega
    · simp only [scientific, hneg, decide_false, hexponent]
      omega

theorem negative_positional (negative : Bool) (digits : List Char) (power : Int) :
    (positional .document negative digits power).negative = negative := by
  unfold positional
  split
  · rfl
  · extract_lets count whole
    split <;> rfl

theorem negative_scientific (negative : Bool) (digits : List Char) (power : Int) :
    (scientific negative digits power).negative = negative := rfl

theorem Shows.rank_eq {n : Numeral} {digits : List Char} {power : Int} {rank : Nat}
    (h : Shows n digits power) (hdigits : DigitsOf rank digits power) :
    rankOfDecimal n.value.coefficient n.value.power = rank := by
  obtain ⟨zeros, hcoefficient, hpower⟩ := h
  rw [hcoefficient, rankOfDecimal_mul_pow, hpower, hdigits.rank_eq]

/-- The numeral of a double that is not zero is one of two layouts of its digits. -/
theorem numeral_cases {x : Binary64} (h : x.rank ≠ 0) :
    x.numeral .document =
        positional .document x.negative (shortest .even x.rank).1 (shortest .even x.rank).2 ∨
      x.numeral .document =
        scientific x.negative (shortest .even x.rank).1 (shortest .even x.rank).2 := by
  have htie : NumberStyle.document.tie = .even := rfl
  rw [numeral, if_neg h, htie]
  extract_lets shown plain
  split
  · exact .inl rfl
  · exact .inr rfl

theorem numeral_zero {x : Binary64} (h : x.rank = 0) :
    x.numeral .document = ⟨x.negative, ['0'], some ['0'], none⟩ := by
  rw [numeral, if_pos h]
  rfl

theorem negative_numeral (x : Binary64) : (x.numeral .document).negative = x.negative := by
  by_cases hzero : x.rank = 0
  · rw [numeral_zero hzero]
  · obtain hplain | hplain := numeral_cases hzero
    · rw [hplain, negative_positional]
    · rw [hplain, negative_scientific]

/-- **Doubles are written by decimals that round to them.** -/
theorem rankOfDecimal_numeral (x : Binary64) :
    rankOfDecimal (x.numeral .document).value.coefficient (x.numeral .document).value.power =
      x.rank := by
  by_cases hzero : x.rank = 0
  · have hcoefficient : (x.numeral .document).value.coefficient = 0 := by
      rw [numeral_zero hzero]
      rfl
    rw [hcoefficient, rankOfDecimal_zero, hzero]
  · have hdigits := digitsOf_shortest .even hzero
    have hne : (shortest .even x.rank).1 ≠ [] := by
      obtain ⟨c, rest, hcons, _⟩ := hdigits.leading
      simp [hcons]
    obtain hplain | hplain := numeral_cases hzero
    · rw [hplain]
      exact (shows_positional ..).rank_eq hdigits
    · rw [hplain]
      exact (shows_scientific _ _ hne).rank_eq hdigits

end OneApi.Binary64
