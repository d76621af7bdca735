import Mathlib.Data.List.TakeDrop
import OneApi.Proofs.FormDecode
import OneApi.Text.Digits
import OneApi.Url.Encode

/-! Texts that are put into a query as they are. The address encodes some of their characters, which
changes nothing of what a server reads: it drops tabs and line ends, cuts the text at an ampersand,
takes plus signs for spaces and escapes for bytes. A text is read as it was written exactly when
none of this occurs in it. That nothing else gets it back is a matter of counting: no step adds an
ASCII character, and each of these steps loses one or turns it into another. -/

namespace OneApi.Text

/-! ## Escapes -/

def isHex (c : Char) : Bool := (hexValue c).isSome

def startsHex : List Char → Bool
  | a :: b :: _ => isHex a && isHex b
  | _ => false

/-- Somewhere a percent sign stands before two hexadecimal digits. -/
def hasEscape : List Char → Bool
  | [] => false
  | c :: s => (c == '%' && startsHex s) || hasEscape s

theorem percentDecode_percent {s : List Char} (h : startsHex s = false) :
    percentDecode ('%' :: s) = 37 :: percentDecode s := by
  cases s with
  | nil => rfl
  | cons a s =>
    cases s with
    | nil =>
      rw [percentDecode.eq_2 _ _ (by simp)]
      rfl
    | cons b s =>
      rw [percentDecode.eq_1]
      split
      · rename_i x y ha hb
        simp [startsHex, isHex, ha, hb] at h
      · rfl

/-- Texts as decoding reads them: an escape, a percent sign that begins none, or another character. -/
@[elab_as_elim]
theorem escape_induction {P : List Char → Prop} (nil : P [])
    (escape : ∀ a b s x y, hexValue a = some x → hexValue b = some y → P s → P ('%' :: a :: b :: s))
    (percent : ∀ s, startsHex s = false → P s → P ('%' :: s))
    (other : ∀ c s, c ≠ '%' → P s → P (c :: s)) (s : List Char) : P s := by
  fun_induction percentDecode s with
  | case1 a b s x y hb ha ih => exact escape a b s x y ha hb ih
  | case2 a b s hnot ih =>
    refine percent _ ?_ ih
    simp only [startsHex, isHex]
    cases ha : hexValue a <;> cases hb : hexValue b <;> simp_all
  | case3 c s hnot ih =>
    by_cases hc : c = '%'
    · subst hc
      refine percent s ?_ ih
      unfold startsHex
      split
      · exact absurd rfl (hnot _ _ _ rfl)
      · rfl
    · exact other c s hc ih
  | case4 => exact nil

theorem hasEscape_percent {s : List Char} (h : startsHex s = false) :
    hasEscape ('%' :: s) = hasEscape s := by
  rw [hasEscape, h, Bool.and_false, Bool.false_or]

theorem hasEscape_cons_of_ne {c : Char} (h : c ≠ '%') (s : List Char) :
    hasEscape (c :: s) = hasEscape s := by
  rw [hasEscape, beq_eq_false_iff_ne.mpr h, Bool.false_and, Bool.false_or]

theorem isHex_of_eq_some {c : Char} {n : Nat} (h : hexValue c = some n) : isHex c = true := by
  rw [isHex, h, Option.isSome_some]

theorem hasEscape_escape {a b : Char} {x y : Nat} (ha : hexValue a = some x)
    (hb : hexValue b = some y) (s : List Char) : hasEscape ('%' :: a :: b :: s) = true := by
  rw [hasEscape, startsHex, isHex_of_eq_some ha, isHex_of_eq_some hb]
  rfl

theorem percentDecode_of_no_escape {s : List Char} (h : hasEscape s = false) :
    percentDecode s = s.flatMap String.utf8EncodeChar := by
  induction s using escape_induction with
  | nil => rfl
  | escape a b s x y ha hb ih =>
    rw [hasEscape_escape ha hb] at h
    contradiction
  | percent s hs ih =>
    rw [hasEscape_percent hs] at h
    rw [percentDecode_percent hs, ih h]
    rfl
  | other c s hc ih =>
    rw [hasEscape_cons_of_ne hc] at h
    rw [percentDecode_cons_of_ne hc, ih h, List.flatMap_cons]

/-! ## Counting ASCII characters -/

def isAscii (c : Char) : Bool := c.toNat < 128

def isAsciiByte (b : UInt8) : Bool := b.toNat < 128

theorem isAscii_of_isHex {c : Char} (h : isHex c = true) : isAscii c = true := by
  simp only [isHex, hexValue] at h
  simp only [isAscii, decide_eq_true_eq]
  have hdigit : c.isDigit = true → c.toNat ≤ 57 := fun h => by
    simp only [Char.isDigit, Bool.and_eq_true, decide_eq_true_eq] at h
    exact h.2
  have hlower : c ≤ 'f' → c.toNat ≤ 102 := fun h => h
  have hupper : c ≤ 'F' → c.toNat ≤ 70 := fun h => h
  split at h
  · rename_i hc
    have := hdigit hc
    omega
  · split at h
    · rename_i hc
      simp only [Bool.and_eq_true, decide_eq_true_eq] at hc
      have := hlower hc.2
      omega
    · split at h
      · rename_i hc
        simp only [Bool.and_eq_true, decide_eq_true_eq] at hc
        have := hupper hc.2
        omega
      · contradiction

theorem utf8EncodeChar_of_isAscii {c : Char} (h : isAscii c = true) :
    String.utf8EncodeChar c = [UInt8.ofNat c.toNat] := by
  have hle : c.val.toNat ≤ 127 := Nat.le_of_lt_succ (of_decide_eq_true h)
  unfold String.utf8EncodeChar
  rw [if_pos hle]
  rfl

theorem isAsciiByte_ofNat {c : Char} (h : isAscii c = true) :
    isAsciiByte (UInt8.ofNat c.toNat) = true := by
  have hlt : c.toNat < 128 := of_decide_eq_true h
  simp only [isAsciiByte, UInt8.toNat_ofNat', decide_eq_true_eq]
  omega

theorem countP_utf8EncodeChar (c : Char) :
    (String.utf8EncodeChar c).countP isAsciiByte = if isAscii c then 1 else 0 := by
  split
  · rename_i h
    rw [utf8EncodeChar_of_isAscii h, List.countP_singleton, isAsciiByte_ofNat h]
    rfl
  · rename_i h
    have hgt : ¬ c.val.toNat ≤ 127 := fun hle => h (decide_eq_true (Nat.lt_succ_of_le hle))
    -- a byte of a longer sequence is an offset plus at least 128
    have hbyte {n : Nat} (h : 128 ≤ n % 256) : ¬ isAsciiByte (UInt8.ofNat n) = true := by
      simp only [isAsciiByte, UInt8.toNat_ofNat', decide_eq_true_eq]
      omega
    rw [List.countP_eq_zero]
    unfold String.utf8EncodeChar
    simp only [if_neg hgt]
    repeat' split
    all_goals simp only [List.forall_mem_cons]
    · exact ⟨hbyte (by omega), hbyte (by omega), by simp⟩
    · exact ⟨hbyte (by omega), hbyte (by omega), hbyte (by omega), by simp⟩
    · exact ⟨hbyte (by omega), hbyte (by omega), hbyte (by omega), hbyte (by omega), by simp⟩

theorem countP_cons_le {α : Type} (p : α → Bool) (a : α) (l : List α) :
    (a :: l).countP p ≤ l.countP p + 1 := by
  rw [List.countP_cons]
  split <;> omega

/-- Decoding adds no ASCII characters, and an escape costs at least one. -/
theorem countP_percentDecode (s : List Char) :
    (percentDecode s).countP isAsciiByte + (hasEscape s).toNat ≤ s.countP isAscii := by
  have hpercent : isAscii '%' = true := by decide
  induction s using escape_induction with
  | nil => exact Nat.le_refl 0
  | escape a b s x y ha hb ih =>
    have hbyte := countP_cons_le isAsciiByte (UInt8.ofNat (16 * x + y)) (percentDecode s)
    rw [percentDecode_escape ha hb, hasEscape_escape ha hb, Bool.toNat_true,
      List.countP_cons_of_pos hpercent,
      List.countP_cons_of_pos (isAscii_of_isHex (isHex_of_eq_some ha)),
      List.countP_cons_of_pos (isAscii_of_isHex (isHex_of_eq_some hb))]
    omega
  | percent s hs ih =>
    have hbyte := countP_cons_le isAsciiByte 37 (percentDecode s)
    rw [percentDecode_percent hs, hasEscape_percent hs, List.countP_cons_of_pos hpercent]
    omega
  | other c s hc ih =>
    rw [percentDecode_cons_of_ne hc, hasEscape_cons_of_ne hc, List.countP_append,
      countP_utf8EncodeChar, List.countP_cons]
    omega

theorem isAsciiByte_of_decode {b : UInt8} {bs : List UInt8} {c : Char} (hc : isAscii c = true)
    (h : (b :: bs).toByteArray.utf8DecodeChar? 0 = some c) : isAsciiByte b = true := by
  obtain ⟨rest, hrest⟩ := ByteArray.exists_of_utf8DecodeChar?_eq_some h
  rw [utf8EncodeChar_of_isAscii hc] at hrest
  have hbytes := congrArg (fun bytes => bytes.data.toList) hrest
  simp only [ByteArray.data_append, List.data_toByteArray, Array.toList_append,
    List.cons_append, List.nil_append, List.cons.injEq] at hbytes
  rw [hbytes.1]
  exact isAsciiByte_ofNat hc

/-- Reading UTF-8 adds no ASCII characters. -/
theorem countP_ofUtf8From (skip : Nat) (bs : List UInt8) :
    (ofUtf8From skip bs).countP isAscii ≤ bs.countP isAsciiByte := by
  induction bs generalizing skip with
  | nil => simp [ofUtf8From]
  | cons b bs ih =>
    rw [List.countP_cons]
    cases skip with
    | succ left => exact Nat.le_add_right_of_le (ih left)
    | zero =>
      rw [ofUtf8From]
      split
      · rename_i c hdecode
        have hb : isAscii c = true → isAsciiByte b = true := fun hc => isAsciiByte_of_decode hc hdecode
        have hrest := ih (c.utf8Size - 1)
        rw [List.countP_cons]
        grind
      · have hreplacement : isAscii replacement = false := by decide
        rw [List.countP_cons_of_neg (by simp [hreplacement])]
        exact Nat.le_add_right_of_le (ih _)

/-! ## Texts that are read as they are written -/

theorem isHex_plusToSpace (c : Char) : isHex (plusToSpace c) = isHex c := by
  by_cases h : c = '+'
  · subst h
    decide
  · rw [plusToSpace_of_ne h]

theorem startsHex_map_plusToSpace (s : List Char) :
    startsHex (s.map plusToSpace) = startsHex s := by
  match s with
  | [] => rfl
  | [_] => rfl
  | a :: b :: s => simp only [List.map_cons, startsHex, isHex_plusToSpace]

theorem hasEscape_map_plusToSpace (s : List Char) :
    hasEscape (s.map plusToSpace) = hasEscape s := by
  induction s with
  | nil => rfl
  | cons c s ih =>
    have hpercent : (plusToSpace c == '%') = (c == '%') := by
      rw [Bool.eq_iff_iff, beq_iff_eq, beq_iff_eq, plusToSpace_eq_percent]
    rw [List.map_cons, hasEscape, hasEscape, ih, startsHex_map_plusToSpace, hpercent]

theorem countP_formDecode (s : List Char) :
    (formDecode s).countP isAscii + (hasEscape s).toNat ≤ s.countP isAscii := by
  have hspace : (s.map plusToSpace).countP isAscii = s.countP isAscii := by
    rw [List.countP_map]
    refine List.countP_congr fun c _ => ?_
    by_cases h : c = '+'
    · subst h
      decide
    · rw [Function.comp_apply, plusToSpace_of_ne h]
  have hread := countP_ofUtf8From 0 (percentDecode (s.map plusToSpace))
  have hdecode := countP_percentDecode (s.map plusToSpace)
  rw [hasEscape_map_plusToSpace, hspace] at hdecode
  exact Nat.le_trans (Nat.add_le_add_right hread _) hdecode

/-- Holds none of the marks that a query or an address gives a meaning. -/
structure Verbatim (s : List Char) : Prop where
  chars : ∀ c ∈ s, c ≠ '&' ∧ c ≠ '+' ∧ Url.isTabOrNewline c = false
  escape : hasEscape s = false

/-- Whether a text is verbatim, as a test. -/
def isVerbatim (s : List Char) : Bool :=
  s.all (fun c => c != '&' && c != '+' && !Url.isTabOrNewline c) && !hasEscape s

theorem isVerbatim_iff {s : List Char} : isVerbatim s = true ↔ Verbatim s := by
  simp only [isVerbatim, Bool.and_eq_true, List.all_eq_true, bne_iff_ne, Bool.not_eq_true',
    and_assoc]
  exact ⟨fun h => ⟨h.1, h.2⟩, fun h => ⟨h.chars, h.escape⟩⟩

instance (s : List Char) : Decidable (Verbatim s) := decidable_of_iff _ isVerbatim_iff

theorem formDecode_of_no_escape {s : List Char} (h : hasEscape s = false) :
    formDecode s = s.map plusToSpace := by
  rw [formDecode, percentDecode_of_no_escape (by rwa [hasEscape_map_plusToSpace]), ofUtf8_utf8]

theorem Verbatim.formDecode_eq {s : List Char} (h : Verbatim s) : formDecode s = s := by
  rw [formDecode_of_no_escape h.escape]
  exact (List.map_congr_left fun c hc => plusToSpace_of_ne (h.chars c hc).2.1).trans (List.map_id s)

theorem Verbatim.dropTabs_eq {s : List Char} (h : Verbatim s) : Url.dropTabs s = s :=
  List.filter_eq_self.mpr fun c hc => by rw [(h.chars c hc).2.2]; rfl

theorem Verbatim.ne_ampersand {s : List Char} (h : Verbatim s) : ∀ c ∈ s, (c != '&') = true :=
  fun c hc => bne_iff_ne.mpr (h.chars c hc).1

theorem isAscii_of_isTabOrNewline {c : Char} (h : Url.isTabOrNewline c = true) :
    isAscii c = true := by
  simp only [Url.isTabOrNewline, Bool.or_eq_true, beq_iff_eq] at h
  rcases h with (rfl | rfl) | rfl <;> decide

theorem bne_of_not_mem {c : Char} {s : List Char} (h : c ∉ s) : ∀ d ∈ s, (d != c) = true :=
  fun _ hd => bne_iff_ne.mpr fun he => h (he ▸ hd)

theorem takeWhile_eq_self {p : Char → Bool} {s : List Char} (h : ∀ c ∈ s, p c = true) :
    s.takeWhile p = s := by
  have happend : (s ++ []).takeWhile p = s ++ [].takeWhile p := List.takeWhile_append_of_pos h
  simpa using happend

/-- A part of a list that has as many elements of a kind has all of them. -/
theorem mem_of_countP_le {α : Type} {p : α → Bool} {t s : List α} (h : t.Sublist s)
    (hcount : s.countP p ≤ t.countP p) {a : α} (ha : a ∈ s) (hp : p a = true) : a ∈ t := by
  have hlength : (s.filter p).length ≤ (t.filter p).length := by
    rwa [← List.countP_eq_length_filter, ← List.countP_eq_length_filter]
  have hfilter : t.filter p = s.filter p := (h.filter p).eq_of_length_le hlength
  have hmem : a ∈ t.filter p := by
    rw [hfilter]
    exact List.mem_filter.mpr ⟨ha, hp⟩
  exact (List.mem_filter.mp hmem).1

/-- What is read of a text up to the first ampersand is the text itself only if it is verbatim. -/
theorem verbatim_iff (s : List Char) :
    Verbatim s ↔ formDecode ((Url.dropTabs s).takeWhile (· != '&')) = s := by
  constructor
  · intro h
    rw [h.dropTabs_eq, takeWhile_eq_self h.ne_ampersand, h.formDecode_eq]
  · intro h
    have hread := countP_formDecode ((Url.dropTabs s).takeWhile (· != '&'))
    rw [h] at hread
    have hsub : ((Url.dropTabs s).takeWhile (· != '&')).Sublist s :=
      (List.takeWhile_sublist _).trans List.filter_sublist
    have hcount : s.countP isAscii ≤ ((Url.dropTabs s).takeWhile (· != '&')).countP isAscii := by
      omega
    -- no ASCII character of the text can be missing in what is read
    have hkept {c : Char} (hc : c ∈ s) (ha : isAscii c = true) :
        c ∈ (Url.dropTabs s).takeWhile (· != '&') := mem_of_countP_le hsub hcount hc ha
    have htabs : ∀ c ∈ s, Url.isTabOrNewline c = false := fun c hc => by
      by_contra htab
      rw [Bool.not_eq_false] at htab
      have hmem := List.takeWhile_subset _ (hkept hc (isAscii_of_isTabOrNewline htab))
      simpa [htab] using (List.mem_filter.mp hmem).2
    have hampersand : '&' ∉ s := fun hc => by
      simpa using List.all_eq_true.mp List.all_takeWhile _ (hkept hc (by decide))
    have hdrop : Url.dropTabs s = s := List.filter_eq_self.mpr fun c hc => by rw [htabs c hc]; rfl
    rw [hdrop, takeWhile_eq_self (bne_of_not_mem hampersand)] at h hread
    have hescape : hasEscape s = false := by
      cases he : hasEscape s with
      | false => rfl
      | true =>
        rw [he, Bool.toNat_true] at hread
        omega
    have hplus : '+' ∉ s := fun hc => by
      rw [← h, formDecode_of_no_escape hescape] at hc
      obtain ⟨d, _, hd⟩ := List.mem_map.mp hc
      by_cases hplus : d = '+'
      · subst hplus
        revert hd
        decide
      · rw [plusToSpace_of_ne hplus] at hd
        exact hplus hd
    exact ⟨fun c hc => ⟨fun he => hampersand (he ▸ hc), fun he => hplus (he ▸ hc), htabs c hc⟩,
      hescape⟩

/-! ## Texts of safe characters -/

theorem isTabOrNewline_of_isFormSafe {c : Char} (h : isFormSafe c = true) :
    Url.isTabOrNewline c = false := by
  rw [Bool.eq_false_iff]
  intro htab
  simp only [Url.isTabOrNewline, Bool.or_eq_true, beq_iff_eq] at htab
  rcases htab with (rfl | rfl) | rfl <;> revert h <;> decide

theorem hasEscape_of_not_mem {s : List Char} (h : '%' ∉ s) : hasEscape s = false := by
  induction s with
  | nil => rfl
  | cons c s ih =>
    rw [List.mem_cons, not_or] at h
    rw [hasEscape_cons_of_ne (Ne.symm h.1), ih h.2]

theorem verbatim_of_isFormSafe {s : List Char} (h : ∀ c ∈ s, isFormSafe c = true) : Verbatim s := by
  have hne {d : Char} (hd : isFormSafe d = false) : ∀ c ∈ s, c ≠ d := by
    rintro c hc rfl
    rw [h c hc] at hd
    contradiction
  exact ⟨fun c hc => ⟨hne (by decide) c hc, hne (by decide) c hc,
      isTabOrNewline_of_isFormSafe (h c hc)⟩,
    hasEscape_of_not_mem fun hc => hne (by decide) _ hc rfl⟩

theorem verbatim_decimal (n : Nat) : Verbatim (decimal n) :=
  verbatim_of_isFormSafe fun _ hc => isFormSafe_of_isDigit (isDigit_of_mem_decimal hc)

end OneApi.Text
