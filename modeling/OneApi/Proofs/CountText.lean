import OneApi.Text.Digits

/-! Which texts are read as counts. Spaces around the text do not matter; what is left are digits, with
at most one plus sign before them, and the count is their value, which must stay below the bound. -/

namespace OneApi.Text

/-- At least one digit, and their value. -/
structure IsNumeral (digits : List Char) (n : Nat) : Prop where
  ne_nil : digits ≠ []
  isDigit : ∀ c ∈ digits, c.isDigit = true
  value : Nat.ofDigitChars 10 digits 0 = n

/-- A text that stands for a count below a bound. -/
def Counts (bound : Nat) (text : String) (n : Nat) : Prop :=
  ∃ digits, (strip text.toList = digits ∨ strip text.toList = '+' :: digits) ∧
    IsNumeral digits n ∧ n < bound

theorem readDigits_eq_some_iff {s : List Char} {n : Nat} :
    readDigits s = some n ↔ IsNumeral s n := by
  unfold readDigits
  constructor
  · intro h
    split at h
    · rename_i hs
      obtain ⟨hne, hdigits⟩ := Bool.and_eq_true_iff.mp hs
      exact ⟨by simpa using hne, List.all_eq_true.mp hdigits, Option.some.inj h⟩
    · cases h
  · intro h
    obtain ⟨hne, hdigits, hvalue⟩ := h
    have hs : (!s.isEmpty && s.all Char.isDigit) = true := by
      rw [Bool.and_eq_true_iff, List.all_eq_true]
      exact ⟨by simpa using hne, hdigits⟩
    rw [if_pos hs, hvalue]

theorem dropPlus_of_isNumeral {s : List Char} {n : Nat} (h : IsNumeral s n) : dropPlus s = s := by
  unfold dropPlus
  split
  · rename_i rest
    exact absurd (h.isDigit '+' List.mem_cons_self) (by decide)
  · rfl

theorem readBelow_eq_some_iff {bound n : Nat} {s : List Char} :
    readBelow bound s = some n ↔
      ∃ digits, (s = digits ∨ s = '+' :: digits) ∧ IsNumeral digits n ∧ n < bound := by
  rw [readBelow, Option.filter_eq_some_iff, decide_eq_true_eq, readDigits_eq_some_iff]
  constructor
  · intro h
    obtain ⟨hnumeral, hlt⟩ := h
    refine ⟨dropPlus s, ?_, hnumeral, hlt⟩
    unfold dropPlus
    split
    · exact .inr rfl
    · exact .inl rfl
  · intro h
    obtain ⟨digits, hs, hnumeral, hlt⟩ := h
    refine ⟨?_, hlt⟩
    obtain rfl | rfl := hs
    · rwa [dropPlus_of_isNumeral hnumeral]
    · exact hnumeral

theorem readBelow_strip_iff {bound n : Nat} {text : String} :
    readBelow bound (strip text.toList) = some n ↔ Counts bound text n :=
  readBelow_eq_some_iff

theorem readCount32_eq_some_iff {text : String} {w : UInt32} :
    readCount32 (strip text.toList) = some w ↔ Counts UInt32.size text w.toNat := by
  rw [readCount32, Option.map_eq_some_iff, ← readBelow_strip_iff]
  constructor
  · intro h
    obtain ⟨n, hn, hw⟩ := h
    rwa [← hw, UInt32.toNat_ofNat_of_lt' (lt_of_readBelow hn)]
  · intro h
    exact ⟨w.toNat, h, UInt32.ofNat_toNat⟩

theorem readCount64_eq_some_iff {text : String} {w : UInt64} :
    readCount64 (strip text.toList) = some w ↔ Counts UInt64.size text w.toNat := by
  rw [readCount64, Option.map_eq_some_iff, ← readBelow_strip_iff]
  constructor
  · intro h
    obtain ⟨n, hn, hw⟩ := h
    rwa [← hw, UInt64.toNat_ofNat_of_lt' (lt_of_readBelow hn)]
  · intro h
    exact ⟨w.toNat, h, UInt64.ofNat_toNat⟩

theorem readCount32_eq_none_iff {text : String} :
    readCount32 (strip text.toList) = none ↔ ∀ n, ¬ Counts UInt32.size text n := by
  rw [readCount32, Option.map_eq_none_iff, Option.eq_none_iff_forall_ne_some]
  exact forall_congr' fun n => not_congr readBelow_strip_iff

theorem readCount64_eq_none_iff {text : String} :
    readCount64 (strip text.toList) = none ↔ ∀ n, ¬ Counts UInt64.size text n := by
  rw [readCount64, Option.map_eq_none_iff, Option.eq_none_iff_forall_ne_some]
  exact forall_congr' fun n => not_congr readBelow_strip_iff

end OneApi.Text
