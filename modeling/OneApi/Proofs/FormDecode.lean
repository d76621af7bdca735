import OneApi.Proofs.PercentDecode
import OneApi.Text.Form

/-! What a server reads from a form. A form-encoded text is read back as it was. A text that went
into an address percent-encoded, with the marks of escapes kept, is read as if it had been put there
unencoded: its plus signs are spaces and its escapes are bytes. -/

namespace OneApi.Text

/-- What holds of the first 128 characters holds of every ASCII character. -/
@[elab_as_elim]
theorem forall_ascii {P : Char → Prop} {c : Char} (hc : c.toNat < 128)
    (h : ∀ n < 128, P (Char.ofNat n)) : P c := by
  have hP := h c.toNat hc
  rwa [Char.ofNat_toNat] at hP

/-! ## Reading UTF-8 -/

theorem ofUtf8From_eq_drop (skip : Nat) (bs : List UInt8) :
    ofUtf8From skip bs = ofUtf8 (bs.drop skip) := by
  induction bs generalizing skip with
  | nil => simp [ofUtf8, ofUtf8From]
  | cons b bs ih =>
    cases skip with
    | zero => rfl
    | succ left => rw [ofUtf8From, List.drop_succ_cons, ih]

theorem ofUtf8_cons_of_some {b : UInt8} {bs : List UInt8} {c : Char}
    (h : (b :: bs).toByteArray.utf8DecodeChar? 0 = some c) :
    ofUtf8 (b :: bs) = c :: ofUtf8 (bs.drop (c.utf8Size - 1)) := by
  rw [ofUtf8, ofUtf8From, h]
  exact congrArg _ (ofUtf8From_eq_drop _ _)

theorem ofUtf8_encodeChar_append (c : Char) (bs : List UInt8) :
    ofUtf8 (String.utf8EncodeChar c ++ bs) = c :: ofUtf8 bs := by
  have hlength := String.length_utf8EncodeChar c
  have hdecode : (String.utf8EncodeChar c ++ bs).toByteArray.utf8DecodeChar? 0 = some c := by
    rw [List.toByteArray_append]
    exact ByteArray.utf8DecodeChar?_utf8EncodeChar_append
  generalize String.utf8EncodeChar c = encoded at hlength hdecode ⊢
  cases encoded with
  | nil => exact absurd hlength.symm (Nat.ne_of_gt c.utf8Size_pos)
  | cons b rest =>
    have hrest : rest.length = c.utf8Size - 1 := by
      rw [← hlength, List.length_cons, Nat.add_sub_cancel]
    rw [List.cons_append] at hdecode ⊢
    rw [ofUtf8_cons_of_some hdecode, ← hrest, List.drop_left]

theorem ofUtf8_utf8 (s : List Char) : ofUtf8 (s.flatMap String.utf8EncodeChar) = s := by
  induction s with
  | nil => rfl
  | cons c s ih => rw [List.flatMap_cons, ofUtf8_encodeChar_append, ih]

/-! ## Plus signs -/

theorem plusToSpace_of_ne {c : Char} (h : c ≠ '+') : plusToSpace c = c := by
  simp [plusToSpace, h]

theorem plusToSpace_eq_percent {c : Char} : plusToSpace c = '%' ↔ c = '%' := by
  by_cases h : c = '+'
  · subst h
    decide
  · rw [plusToSpace_of_ne h]

theorem hexDigit_ne_plus : ∀ n < 16, hexDigit n ≠ '+' := by decide

theorem map_plusToSpace_escapeBytes (bs : List UInt8) :
    (bs.flatMap escapeByte).map plusToSpace = bs.flatMap escapeByte := by
  induction bs with
  | nil => rfl
  | cons b bs ih =>
    have hlt := b.toNat_lt
    have hhigh := plusToSpace_of_ne (hexDigit_ne_plus (b.toNat / 16) (by omega))
    have hlow := plusToSpace_of_ne (hexDigit_ne_plus (b.toNat % 16) (by omega))
    have hpercent : plusToSpace '%' = '%' := by decide
    rw [List.flatMap_cons, List.map_append, ih]
    simp only [escapeByte, List.map_cons, List.map_nil, hhigh, hlow, hpercent]

theorem percentDecode_plus_escapeChar (c : Char) (s : List Char) :
    percentDecode ((escapeChar c ++ s).map plusToSpace) =
      String.utf8EncodeChar c ++ percentDecode (s.map plusToSpace) := by
  rw [List.map_append, escapeChar, map_plusToSpace_escapeBytes, percentDecode_escapeBytes]

/-! ## Form-encoded texts -/

theorem isFormSafe_of_isDigit {c : Char} (h : c.isDigit = true) : isFormSafe c = true := by
  simp [isFormSafe, Char.isAlphanum, h]

theorem isFormSafe_ne {c : Char} (h : isFormSafe c = true) : c ≠ '+' ∧ c ≠ '%' := by
  constructor <;> rintro rfl <;> revert h <;> decide

theorem mem_formEncode {s : List Char} {c : Char} (h : c ∈ formEncode s) :
    isFormSafe c = true ∨ c = '+' ∨ c = '%' := by
  have hdigit : ∀ n < 16, isFormSafe (hexDigit n) = true := by decide
  obtain ⟨d, _, hc⟩ := List.mem_flatMap.mp h
  split at hc
  · exact .inr (.inl (List.mem_singleton.mp hc))
  · split at hc
    · rename_i hsafe
      rw [List.mem_singleton.mp hc]
      exact .inl hsafe
    · obtain ⟨b, _, hb⟩ := List.mem_flatMap.mp hc
      have hlt := b.toNat_lt
      simp only [escapeByte, List.mem_cons, List.not_mem_nil, or_false] at hb
      rcases hb with rfl | rfl | rfl
      · exact .inr (.inr rfl)
      · exact .inl (hdigit _ (by omega))
      · exact .inl (hdigit _ (by omega))

theorem percentDecode_plus_formEncode (s : List Char) :
    percentDecode ((formEncode s).map plusToSpace) = s.flatMap String.utf8EncodeChar := by
  induction s with
  | nil => rfl
  | cons c s ih =>
    rw [formEncode, List.flatMap_cons, ← formEncode, List.flatMap_cons]
    split
    · rename_i hspace
      have hspace : c = ' ' := by simpa using hspace
      subst hspace
      rw [List.singleton_append, List.map_cons, ← ih]
      exact percentDecode_cons_of_ne (by decide) _
    · split
      · rename_i hsafe
        obtain ⟨hplus, hpercent⟩ := isFormSafe_ne hsafe
        rw [List.singleton_append, List.map_cons, plusToSpace_of_ne hplus,
          percentDecode_cons_of_ne hpercent, ih]
      · rw [percentDecode_plus_escapeChar, ih]

theorem formDecode_formEncode (s : List Char) : formDecode (formEncode s) = s := by
  rw [formDecode, percentDecode_plus_formEncode, ofUtf8_utf8]

theorem all_intercalate {p : Char → Bool} {sep : List Char} {ls : List (List Char)}
    (hs : sep.all p = true) (h : ∀ l ∈ ls, l.all p = true) :
    (List.intercalate sep ls).all p = true := by
  induction ls with
  | nil => rfl
  | cons l ls ih =>
    obtain ⟨hl, hls⟩ := List.forall_mem_cons.mp h
    cases ls with
    | nil => simpa using hl
    | cons l' ls =>
      rw [List.intercalate_cons_cons, List.all_append, List.all_append, hl, hs, ih hls]
      rfl

end OneApi.Text
