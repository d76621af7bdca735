import OneApi.Proofs.CountSpelling
import OneApi.Proofs.RereadDocument

/-! Numbers in documents that are counts. They are the digits of a number below a bound, with no zero in
front; all others have a sign, a fraction or an exponent, or are too large. Only those are read as
counts, each as the number that its digits are. -/

namespace OneApi

open Json

namespace Text

/-- The digits of a number, of which a zero leads only if it stands alone. -/
structure IsDecimal (digits : List Char) (n : Nat) : Prop extends IsNumeral digits n where
  lead : digits.head? = some '0' → digits = ['0']

theorem isDecimal_decimal (n : Nat) : IsDecimal (decimal n) n where
  toIsNumeral := isNumeral_zeros 0 n
  lead := by
    intro hhead
    by_cases hzero : n = 0
    · rw [hzero]
      rfl
    · obtain ⟨d, rest, hcons, hd⟩ := exists_decimal_eq_cons hzero
      rw [hcons] at hhead
      exact absurd (Option.some.inj hhead) hd

theorem IsDecimal.eq_decimal {digits : List Char} {n : Nat} (h : IsDecimal digits n) :
    digits = decimal n := by
  obtain ⟨zeros, hzeros⟩ := h.exists_zeros
  cases zeros with
  | zero => exact hzeros
  | succ zeros =>
    have hhead : digits.head? = some '0' := by
      rw [hzeros]
      rfl
    have hlength := congrArg List.length (hzeros.symm.trans (h.lead hhead))
    have hpos : 0 < (decimal n).length := List.length_pos_of_ne_nil Nat.toDigits_ne_nil
    simp only [List.length_append, List.length_replicate, List.length_singleton] at hlength
    omega

theorem isDecimal_iff {digits : List Char} {n : Nat} : IsDecimal digits n ↔ digits = decimal n := by
  constructor
  · exact IsDecimal.eq_decimal
  · intro h
    rw [h]
    exact isDecimal_decimal n

end Text

namespace Numeral

variable {n : Numeral} {literal : List Char}

/-- The numbers in documents that are no counts below a bound. -/
inductive NoCount (bound : Nat) (n : Numeral) : Prop
  | sign : n.negative = true → NoCount bound n
  | fraction : n.fraction.isSome = true → NoCount bound n
  | exponent : n.exponent.isSome = true → NoCount bound n
  | large {v : Nat} : Text.IsNumeral n.whole v → bound ≤ v → NoCount bound n

theorem Spells.isLiteral (h : n.Spells literal) : n.IsLiteral := by
  obtain ⟨hliteral, _⟩ := h
  exact hliteral

theorem spells_ofNat (v : Nat) : (ofNat v).Spells (Text.decimal v) := by
  have htext : (ofNat v).text = Text.decimal v := by simp [text, ofNat]
  rw [← htext]
  exact (isLiteral_ofNat v).spells_text

/-- The number of a text is a count if and only if the text is its digits. -/
theorem Spells.isDecimal_iff (h : n.Spells literal) {v : Nat} :
    Text.IsDecimal literal v ↔ n = ofNat v := by
  rw [Text.isDecimal_iff]
  constructor
  · intro hliteral
    rw [hliteral] at h
    exact Option.some.inj (h.readNumeral_eq.symm.trans (spells_ofNat v).readNumeral_eq)
  · intro hn
    subst hn
    cases h with
    | intro _ he =>
      cases he
      simp [ofNat, fractionText]

theorem isDecimal_of_isWhole {ds : List Char} (h : isWhole ds = true) :
    Text.IsDecimal ds (Nat.ofDigitChars 10 ds 0) := by
  obtain ⟨hne, hdigits⟩ := isDigits_of_isWhole h
  refine ⟨⟨hne, hdigits, rfl⟩, ?_⟩
  intro hhead
  unfold isWhole at h
  split at h
  · cases hhead
  · rfl
  · cases hhead
    cases h

theorem IsLiteral.whole_eq (h : n.IsLiteral) :
    n.whole = Text.decimal (Nat.ofDigitChars 10 n.whole 0) :=
  (isDecimal_of_isWhole h.whole).eq_decimal

/-- Every number in a document is a count below the bound or none. -/
theorem IsLiteral.count_or_noCount (h : n.IsLiteral) (bound : Nat) :
    (∃ v, v < bound ∧ n = ofNat v) ∨ n.NoCount bound := by
  have hwhole := h.whole_eq
  obtain ⟨negative, whole, fraction, exponent⟩ := n
  cases negative with
  | true => exact .inr (.sign rfl)
  | false =>
    cases fraction with
    | some ds => exact .inr (.fraction rfl)
    | none =>
      cases exponent with
      | some e => exact .inr (.exponent rfl)
      | none =>
        obtain hlt | hle := Nat.lt_or_ge (Nat.ofDigitChars 10 whole 0) bound
        · exact .inl ⟨_, hlt, congrArg (Numeral.mk false · none none) hwhole⟩
        · obtain ⟨hne, hdigits⟩ := isDigits_of_isWhole h.whole
          exact .inr (.large ⟨hne, hdigits, rfl⟩ hle)

theorem NoCount.ne_ofNat {bound v : Nat} (h : n.NoCount bound) (hlt : v < bound) : n ≠ ofNat v := by
  intro hn
  subst hn
  cases h with
  | sign hsign => cases hsign
  | fraction hfraction => cases hfraction
  | exponent hexponent => cases hexponent
  | @large w hw hle =>
    have heq : w = v := hw.value.symm.trans (Text.ofDigitChars_decimal v)
    omega

theorem IsLiteral.natural?_eq_some_iff (h : n.IsLiteral) {v : Nat} :
    n.natural? = some v ↔ n = ofNat v := by
  constructor
  · intro hnatural
    have hwhole := h.whole_eq
    obtain ⟨negative, whole, fraction, exponent⟩ := n
    unfold natural? at hnatural
    split at hnatural
    · rename_i hplain
      simp only [Bool.and_eq_true, Bool.not_eq_true', Option.isNone_iff_eq_none] at hplain
      obtain ⟨⟨rfl, rfl⟩, rfl⟩ := hplain
      rw [← (Text.readDigits_eq_some_iff.mp hnatural).value]
      exact congrArg (Numeral.mk false · none none) hwhole
    · cases hnatural
  · intro hn
    rw [hn]
    exact natural?_ofNat v

end Numeral

namespace Width

variable {W : Type}

/-- A count of a width in a document. -/
def count? (width : Width W) (v : Json) : Option W := (Json.count? width.size v).map width.ofNat

theorem count?_number_iff {width : Width W} {n : Numeral} (h : n.IsLiteral) {w : W} :
    width.count? (.number n) = some w ↔ n = .ofNat (width.toNat w) := by
  have hcount (v : Nat) : Json.count? width.size (.number n) = some v ↔
      n = .ofNat v ∧ v < width.size := by
    rw [← h.natural?_eq_some_iff]
    exact Option.filter_eq_some_iff.trans (and_congr_right fun _ => decide_eq_true_iff)
  rw [count?, Option.map_eq_some_iff]
  simp only [hcount]
  constructor
  · intro hw
    obtain ⟨v, ⟨hn, hlt⟩, rfl⟩ := hw
    rwa [width.toNat_ofNat hlt]
  · intro hn
    exact ⟨width.toNat w, ⟨hn, width.toNat_lt w⟩, width.ofNat_toNat w⟩

end Width

end OneApi
