import OneApi.Text.Percent

/-! Percent-encoding can be undone: as long as the percent sign itself is encoded, decoding gives the
UTF-8 bytes of the text, and these determine it. -/

namespace OneApi.Text

theorem hexValue_hexDigit : ∀ n < 16, hexValue (hexDigit n) = some n := by decide

theorem percentDecode_cons_of_ne {c : Char} (h : c ≠ '%') (s : List Char) :
    percentDecode (c :: s) = String.utf8EncodeChar c ++ percentDecode s := by
  rw [percentDecode]
  intro a b t hc
  exact absurd hc h

theorem percentDecode_escape {a b : Char} {x y : Nat} (ha : hexValue a = some x)
    (hb : hexValue b = some y) (s : List Char) :
    percentDecode ('%' :: a :: b :: s) = UInt8.ofNat (16 * x + y) :: percentDecode s := by
  rw [percentDecode, ha, hb]

theorem percentDecode_escapeByte (b : UInt8) (s : List Char) :
    percentDecode (escapeByte b ++ s) = b :: percentDecode s := by
  have hlt := b.toNat_lt
  have hdigits : UInt8.ofNat (16 * (b.toNat / 16) + b.toNat % 16) = b := by
    rw [Nat.div_add_mod, UInt8.ofNat_toNat]
  have hhigh := hexValue_hexDigit (b.toNat / 16) (by omega)
  have hlow := hexValue_hexDigit (b.toNat % 16) (by omega)
  change percentDecode ('%' :: _ :: _ :: s) = _
  rw [percentDecode_escape hhigh hlow, hdigits]

theorem percentDecode_escapeBytes (bs : List UInt8) (s : List Char) :
    percentDecode (bs.flatMap escapeByte ++ s) = bs ++ percentDecode s := by
  induction bs with
  | nil => rfl
  | cons b bs ih =>
    rw [List.flatMap_cons, List.append_assoc, percentDecode_escapeByte, ih, List.cons_append]

theorem percentDecode_percentEncode_append {keep : Char → Bool} (h : keep '%' = false)
    (s t : List Char) :
    percentDecode (percentEncode keep s ++ t) =
      s.flatMap String.utf8EncodeChar ++ percentDecode t := by
  induction s with
  | nil => rfl
  | cons c s ih =>
    simp only [percentEncode, List.flatMap_cons, List.append_assoc] at ih ⊢
    by_cases hc : keep c = true
    · have hne : c ≠ '%' := by
        rintro rfl
        simp [h] at hc
      rw [if_pos hc, List.singleton_append, percentDecode_cons_of_ne hne, ih]
    · rw [if_neg hc, escapeChar, percentDecode_escapeBytes, ih]

theorem percentDecode_percentEncode {keep : Char → Bool} (h : keep '%' = false) (s : List Char) :
    percentDecode (percentEncode keep s) = s.flatMap String.utf8EncodeChar := by
  have := percentDecode_percentEncode_append h s []
  simpa [percentDecode] using this

theorem utf8_injective {s t : List Char}
    (h : s.flatMap String.utf8EncodeChar = t.flatMap String.utf8EncodeChar) : s = t := by
  apply String.ofList_injective
  apply String.toByteArray_inj.mp
  rw [String.toByteArray_ofList, String.toByteArray_ofList, List.utf8Encode, List.utf8Encode, h]

theorem percentEncode_injective {keep : Char → Bool} (h : keep '%' = false) {s t : List Char}
    (he : percentEncode keep s = percentEncode keep t) : s = t := by
  apply utf8_injective
  rw [← percentDecode_percentEncode h, ← percentDecode_percentEncode h, he]

/-- What stands in an encoded text: characters that are kept, and escapes. -/
theorem mem_percentEncode {keep : Char → Bool} {s : List Char} {c : Char}
    (h : c ∈ percentEncode keep s) :
    (keep c = true ∧ c ∈ s) ∨ c = '%' ∨ ∃ n < 16, c = hexDigit n := by
  obtain ⟨d, hd, hc⟩ := List.mem_flatMap.mp h
  split at hc
  · rename_i hkeep
    obtain rfl := List.mem_singleton.mp hc
    exact .inl ⟨hkeep, hd⟩
  · obtain ⟨b, _, hb⟩ := List.mem_flatMap.mp hc
    have hlt := b.toNat_lt
    simp only [escapeByte, List.mem_cons, List.not_mem_nil, or_false] at hb
    rcases hb with rfl | rfl | rfl
    · exact .inr (.inl rfl)
    · exact .inr (.inr ⟨_, by omega, rfl⟩)
    · exact .inr (.inr ⟨_, by omega, rfl⟩)

end OneApi.Text
