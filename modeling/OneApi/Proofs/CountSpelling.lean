import OneApi.Proofs.CountText
import OneApi.Proofs.ShortestDigits
import OneApi.Proofs.SortText

/-! The spellings of counts. A count is spelled by its decimal digits, with any number of zeros and at
most one plus sign before them and any spaces around. For each bound, every text either spells one
count below it or is refused, and reading tells these apart. -/

namespace OneApi

/-! ## Widths -/

/-- The words of a width, as the numbers below its size. -/
structure Width (W : Type) where
  size : Nat
  toNat : W → Nat
  ofNat : Nat → W
  toNat_lt (w : W) : toNat w < size
  toNat_ofNat {n : Nat} : n < size → toNat (ofNat n) = n
  ofNat_toNat (w : W) : ofNat (toNat w) = w

namespace Width

def word32 : Width UInt32 where
  size := UInt32.size
  toNat := UInt32.toNat
  ofNat := UInt32.ofNat
  toNat_lt := UInt32.toNat_lt_size
  toNat_ofNat := UInt32.toNat_ofNat_of_lt'
  ofNat_toNat _ := UInt32.ofNat_toNat

def word64 : Width UInt64 where
  size := UInt64.size
  toNat := UInt64.toNat
  ofNat := UInt64.ofNat
  toNat_lt := UInt64.toNat_lt_size
  toNat_ofNat := UInt64.toNat_ofNat_of_lt'
  ofNat_toNat _ := UInt64.ofNat_toNat

end Width

namespace Text

/-! ## Digits -/

theorem exists_digitChar {c : Char} (h : c.isDigit = true) : ∃ d, d < 10 ∧ c = d.digitChar := by
  obtain ⟨hlow, hhigh⟩ := Char.isDigit_iff_toNat.mp h
  have hlow : 48 ≤ c.toNat := hlow
  have hhigh : c.toNat ≤ 57 := hhigh
  refine ⟨c.toNat - 48, by omega, Char.toNat_inj.mp ?_⟩
  rw [Nat.toNat_digitChar_of_lt_ten (by omega)]
  omega

/-- Digits are the decimal digits of their value, behind as many zeros as there are too many. -/
theorem IsNumeral.exists_zeros {digits : List Char} {n : Nat} (h : IsNumeral digits n) :
    ∃ zeros, digits = List.replicate zeros '0' ++ decimal n := by
  obtain ⟨hne, hdigits, rfl⟩ := h
  -- from the last digit, as the value of the digits before it counts ten times
  induction digits using List.reverseRecOn with
  | nil => contradiction
  | append_singleton digits c ih =>
    obtain ⟨hinit, hc⟩ := List.forall_mem_append.mp hdigits
    obtain ⟨d, hd, rfl⟩ := exists_digitChar (hc c List.mem_cons_self)
    have hlast : decimal d = [d.digitChar] := Nat.toDigits_of_lt_base hd
    rw [Nat.ofDigitChars_append, Nat.ofDigitChars_cons_digitChar_of_lt_ten hd, Nat.ofDigitChars_nil]
    by_cases hnil : digits = []
    · subst hnil
      refine ⟨0, ?_⟩
      rw [Nat.ofDigitChars_nil, Nat.mul_zero, Nat.zero_add, hlast]
      rfl
    · obtain ⟨zeros, hzeros⟩ := ih hnil hinit
      generalize Nat.ofDigitChars 10 digits 0 = m at hzeros
      by_cases hm : m = 0
      · subst hm
        refine ⟨zeros + 1, ?_⟩
        rw [hzeros, Nat.mul_zero, Nat.zero_add, hlast, List.replicate_succ']
        rfl
      · refine ⟨zeros, ?_⟩
        have happend : decimal m ++ decimal d = decimal (10 * m + d) :=
          Nat.toDigits_append_toDigits (by decide) (Nat.pos_of_ne_zero hm) hd
        rw [← happend, hlast, hzeros, List.append_assoc]

theorem isNumeral_zeros (zeros n : Nat) : IsNumeral (List.replicate zeros '0' ++ decimal n) n where
  ne_nil := List.append_ne_nil_of_right_ne_nil _ Nat.toDigits_ne_nil
  isDigit := by
    intro c hc
    obtain hc | hc := List.mem_append.mp hc
    · rw [List.eq_of_mem_replicate hc]
      rfl
    · exact isDigit_of_mem_decimal hc
  value := by
    rw [Nat.ofDigitChars_append, Nat.ofDigitChars_replicate_zero, Nat.mul_zero, ofDigitChars_decimal]

/-! ## Counts -/

/-- The texts of a count. -/
inductive SpellsCount (text : List Char) (n : Nat) : Prop
  | plain (zeros : Nat) : Core text (List.replicate zeros '0' ++ decimal n) → SpellsCount text n
  | signed (zeros : Nat) : Core text ('+' :: (List.replicate zeros '0' ++ decimal n)) →
    SpellsCount text n

/-- The texts that are no count below a bound: those without a digit, those with a character that is
no digit other than a plus sign in front, and those of numbers that are too large. -/
inductive RefusesCount (bound : Nat) (text : List Char) : Prop
  | blank : Core text [] → RefusesCount bound text
  | sign : Core text ['+'] → RefusesCount bound text
  | stray {before after : List Char} {c : Char} : Core text (before ++ c :: after) →
    c.isDigit = false → before ≠ [] ∨ c ≠ '+' → RefusesCount bound text
  | large {n : Nat} : SpellsCount text n → bound ≤ n → RefusesCount bound text

variable {bound n : Nat} {text : List Char}

theorem core_iff {f : List Char} : Core text f ↔ strip text = f := by
  constructor
  · exact Core.strip_eq
  · intro h
    rw [← h]
    exact core_strip text

theorem spellsCount_iff : SpellsCount text n ↔
    ∃ digits, (strip text = digits ∨ strip text = '+' :: digits) ∧ IsNumeral digits n := by
  constructor
  · intro h
    cases h with
    | plain zeros hcore => exact ⟨_, .inl hcore.strip_eq, isNumeral_zeros zeros n⟩
    | signed zeros hcore => exact ⟨_, .inr hcore.strip_eq, isNumeral_zeros zeros n⟩
  · intro h
    obtain ⟨digits, hstrip, hnumeral⟩ := h
    obtain ⟨zeros, rfl⟩ := hnumeral.exists_zeros
    obtain hplain | hsigned := hstrip
    · exact .plain zeros (core_iff.mpr hplain)
    · exact .signed zeros (core_iff.mpr hsigned)

theorem readBelow_eq_some_iff_spellsCount :
    readBelow bound (strip text) = some n ↔ SpellsCount text n ∧ n < bound := by
  rw [readBelow_eq_some_iff, spellsCount_iff]
  simp only [← and_assoc, exists_and_right]

/-- A text spells one number at most. -/
theorem SpellsCount.unique {m : Nat} (hn : SpellsCount text n) (hm : SpellsCount text m) : n = m := by
  have hread (k : Nat) (hk : SpellsCount text k) (hle : k ≤ max n m) :
      readBelow (max n m + 1) (strip text) = some k :=
    readBelow_eq_some_iff_spellsCount.mpr ⟨hk, Nat.lt_succ_of_le hle⟩
  exact Option.some.inj ((hread n hn (Nat.le_max_left n m)).symm.trans
    (hread m hm (Nat.le_max_right n m)))

/-- Apart from a sign in front, a count is made of digits. -/
theorem SpellsCount.isDigit {before after : List Char} {c : Char} (h : SpellsCount text n)
    (hcore : Core text (before ++ c :: after)) (hc : before ≠ [] ∨ c ≠ '+') : c.isDigit = true := by
  obtain ⟨digits, hstrip, hnumeral⟩ := spellsCount_iff.mp h
  rw [hcore.strip_eq] at hstrip
  obtain rfl | hsigned := hstrip
  · exact hnumeral.isDigit c (List.mem_append_right before List.mem_cons_self)
  · cases before with
    | nil =>
      cases hsigned
      simp at hc
    | cons b before =>
      cases hsigned
      exact hnumeral.isDigit c (List.mem_append_right before List.mem_cons_self)

theorem RefusesCount.not_spells (h : RefusesCount bound text) (hn : SpellsCount text n) :
    bound ≤ n := by
  cases h with
  | blank hcore =>
    obtain ⟨digits, hstrip, hnumeral⟩ := spellsCount_iff.mp hn
    rw [hcore.strip_eq] at hstrip
    obtain rfl | hsigned := hstrip
    · exact absurd rfl hnumeral.ne_nil
    · cases hsigned
  | sign hcore =>
    obtain ⟨digits, hstrip, hnumeral⟩ := spellsCount_iff.mp hn
    rw [hcore.strip_eq] at hstrip
    obtain rfl | hsigned := hstrip
    · exact absurd (hnumeral.isDigit '+' List.mem_cons_self) (by decide)
    · cases hsigned
      exact absurd rfl hnumeral.ne_nil
  | stray hcore hdigit hc => cases hdigit.symm.trans (hn.isDigit hcore hc)
  | large hlarge hle =>
    rwa [hn.unique hlarge]

theorem spells_or_refuses_of_digits {digits : List Char}
    (hstrip : strip text = digits ∨ strip text = '+' :: digits) (hne : digits ≠ [])
    (hdigits : ∀ c ∈ digits, c.isDigit = true) :
    (∃ n, SpellsCount text n ∧ n < bound) ∨ RefusesCount bound text := by
  have hspells := spellsCount_iff.mpr ⟨digits, hstrip, hne, hdigits, rfl⟩
  obtain hlt | hle := Nat.lt_or_ge (Nat.ofDigitChars 10 digits 0) bound
  · exact .inl ⟨_, hspells, hlt⟩
  · exact .inr (.large hspells hle)

/-- Every text spells a count below the bound or is refused. -/
theorem spells_or_refuses (bound : Nat) (text : List Char) :
    (∃ n, SpellsCount text n ∧ n < bound) ∨ RefusesCount bound text := by
  have hstray {s : List Char} (h : ¬ ∀ c ∈ s, c.isDigit = true) :
      ∃ before c after, s = before ++ c :: after ∧ c.isDigit = false := by
    simp only [not_forall, Bool.not_eq_true] at h
    obtain ⟨c, hc, hdigit⟩ := h
    obtain ⟨before, after, rfl⟩ := List.append_of_mem hc
    exact ⟨before, c, after, rfl, hdigit⟩
  cases hs : strip text with
  | nil => exact .inr (.blank (core_iff.mpr hs))
  | cons c rest =>
    by_cases hplus : c = '+'
    · subst hplus
      by_cases hrest : ∀ d ∈ rest, d.isDigit = true
      · by_cases hnil : rest = []
        · subst hnil
          exact .inr (.sign (core_iff.mpr hs))
        · exact spells_or_refuses_of_digits (.inr hs) hnil hrest
      · obtain ⟨before, d, after, rfl, hdigit⟩ := hstray hrest
        have hcore : Core text (('+' :: before) ++ d :: after) := core_iff.mpr hs
        exact .inr (.stray hcore hdigit (.inl (List.cons_ne_nil _ _)))
    · by_cases hall : ∀ d ∈ c :: rest, d.isDigit = true
      · exact spells_or_refuses_of_digits (.inl hs) (by simp) hall
      · obtain ⟨before, d, after, hsplit, hdigit⟩ := hstray hall
        refine .inr (.stray (core_iff.mpr (hs.trans hsplit)) hdigit ?_)
        cases before with
        | nil =>
          cases hsplit
          exact .inr hplus
        | cons b before => exact .inl (by simp)

theorem readBelow_eq_none_iff :
    readBelow bound (strip text) = none ↔ RefusesCount bound text := by
  constructor
  · intro h
    obtain ⟨n, hn⟩ | hrefuses := spells_or_refuses bound text
    · cases h.symm.trans (readBelow_eq_some_iff_spellsCount.mpr hn)
    · exact hrefuses
  · intro h
    refine Option.eq_none_iff_forall_ne_some.mpr ?_
    intro n hn
    obtain ⟨hspells, hlt⟩ := readBelow_eq_some_iff_spellsCount.mp hn
    exact absurd hlt (Nat.not_lt.mpr (h.not_spells hspells))

example : readBelow 4294967296 (strip "\t+004294967295 ".toList) = some 4294967295 := by decide

example : readBelow 4294967296 (strip "4294967296".toList) = none := by decide

theorem isSpace_of_isDigit {c : Char} (h : c.isDigit = true) : isSpace c = false := by
  obtain ⟨d, hd, rfl⟩ := exists_digitChar h
  have hcode : d.digitChar.toNat = 48 + d := Nat.toNat_digitChar_of_lt_ten hd
  simp only [isSpace, hcode, Bool.or_eq_false_iff, Bool.and_eq_false_iff, decide_eq_false_iff_not,
    beq_eq_false_iff_ne]
  omega

theorem spellsCount_decimal (n : Nat) : SpellsCount (decimal n) n := by
  have hspace (c : Char) (hc : c ∈ decimal n) : isSpace c = false :=
    isSpace_of_isDigit (isDigit_of_mem_decimal hc)
  refine .plain 0 ⟨⟨[], [], by simp, by simp, by simp⟩, ?_, ?_⟩
  · exact fun c hc => hspace c (List.mem_of_mem_head? hc)
  · exact fun c hc => hspace c (List.mem_of_mem_getLast? hc)

end Text

namespace Width

variable {W : Type}

/-- Reading a count of a width. -/
def read (width : Width W) (text : List Char) : Option W :=
  (Text.readBelow width.size (Text.strip text)).map width.ofNat

variable {width : Width W} {text : List Char} {w : W}

theorem read_eq_some_iff : width.read text = some w ↔ Text.SpellsCount text (width.toNat w) := by
  rw [read, Option.map_eq_some_iff]
  simp only [Text.readBelow_eq_some_iff_spellsCount]
  constructor
  · intro h
    obtain ⟨n, ⟨hspells, hlt⟩, rfl⟩ := h
    rwa [width.toNat_ofNat hlt]
  · intro h
    exact ⟨width.toNat w, ⟨h, width.toNat_lt w⟩, width.ofNat_toNat w⟩

theorem read_eq_none_iff : width.read text = none ↔ Text.RefusesCount width.size text := by
  rw [read, Option.map_eq_none_iff, Text.readBelow_eq_none_iff]

end Width

end OneApi
