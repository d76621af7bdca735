import Mathlib.Data.List.TakeDrop
import OneApi.Json.Token
import OneApi.Proofs.ShortestDigits

/-! Numerals in documents. Those that a document can hold are read as they were written, and every
count and every double is written by one of them. -/

namespace OneApi

theorem Text.span_append {p : Char → Bool} {s rest : List Char} (hs : ∀ c ∈ s, p c = true)
    (hrest : ∀ c ∈ rest.head?, p c = false) : (s ++ rest).span p = (s, rest) := by
  rw [List.span_eq_takeWhile_dropWhile, List.takeWhile_append_of_pos hs,
    List.dropWhile_append_of_pos hs]
  cases rest with
  | nil => simp
  | cons c rest => simp [hrest c rfl]

/-! ## Numerals -/

namespace Numeral

def IsDigits (ds : List Char) : Prop := ds ≠ [] ∧ ∀ c ∈ ds, c.isDigit = true

/-- The numerals that documents can hold: no zero leads, and digits stand before and behind the
point and in the exponent. -/
structure IsLiteral (n : Numeral) : Prop where
  whole : Json.isWhole n.whole = true
  fraction : ∀ ds ∈ n.fraction, IsDigits ds
  exponent : ∀ e ∈ n.exponent, IsDigits e.2

def fractionText : Option (List Char) → List Char
  | none => []
  | some ds => '.' :: ds

def exponentText : Option (Bool × List Char) → List Char
  | none => []
  | some (minus, ds) => 'e' :: (if minus then '-' else '+') :: ds

/-- The texts of an exponent: after either letter, with a plus sign or without. -/
inductive ExponentSpells : List Char → Option (Bool × List Char) → Prop
  | none : ExponentSpells [] none
  | plain {e : Char} (ds : List Char) : e = 'e' ∨ e = 'E' →
    ExponentSpells (e :: ds) (some (false, ds))
  | signed {e : Char} (minus : Bool) (ds : List Char) : e = 'e' ∨ e = 'E' →
    ExponentSpells (e :: (if minus then '-' else '+') :: ds) (some (minus, ds))

/-- The texts of a numeral, which differ in the exponent only. -/
inductive Spells : List Char → Numeral → Prop
  | intro {n : Numeral} {e : List Char} : n.IsLiteral → ExponentSpells e n.exponent →
    Spells ((if n.negative then ['-'] else []) ++ (n.whole ++ (fractionText n.fraction ++ e))) n

theorem exponentSpells_text (e : Option (Bool × List Char)) :
    ExponentSpells (exponentText e) e := by
  cases e with
  | none => exact .none
  | some x => exact .signed x.1 x.2 (.inl rfl)

theorem text_eq (n : Numeral) : n.text = (if n.negative then ['-'] else []) ++
    (n.whole ++ (fractionText n.fraction ++ exponentText n.exponent)) := by
  simp only [text, List.append_assoc]
  rfl

theorem IsLiteral.spells_text {n : Numeral} (h : n.IsLiteral) : Spells n.text n := by
  rw [text_eq]
  exact .intro h (exponentSpells_text n.exponent)

theorem isDigits_of_isWhole {ds : List Char} (h : Json.isWhole ds = true) : IsDigits ds := by
  unfold Json.isWhole at h
  split at h
  · contradiction
  · exact ⟨by simp, by simp⟩
  · rw [Bool.and_eq_true] at h
    exact ⟨by simp, List.all_eq_true.mp h.2⟩

theorem IsDigits.exists_cons {ds : List Char} (h : IsDigits ds) :
    ∃ c rest, ds = c :: rest ∧ c ≠ '-' ∧ c ≠ '+' := by
  obtain ⟨hne, hdigits⟩ := h
  obtain ⟨c, rest, rfl⟩ := List.exists_cons_of_ne_nil hne
  have hdigit : c.isDigit = true := hdigits c List.mem_cons_self
  refine ⟨c, rest, rfl, ?_, ?_⟩ <;> rintro rfl <;> contradiction

theorem ExponentSpells.readExponent_eq {s : List Char} {e : Option (Bool × List Char)}
    (h : ExponentSpells s e) (hdigits : ∀ x ∈ e, IsDigits x.2) : readExponent s = some e := by
  have hread {ds : List Char} (hds : IsDigits ds) :
      (!ds.isEmpty && ds.all Char.isDigit) = true := by
    have hempty : ds.isEmpty = false := by simpa using hds.1
    rw [hempty, List.all_eq_true.mpr hds.2]
    rfl
  cases h with
  | none => rfl
  | plain ds he =>
    have hds := hdigits _ rfl
    obtain ⟨c, rest, rfl, hminus, hplus⟩ := hds.exists_cons
    have hall := hread hds
    obtain rfl | rfl := he <;> simp_all [readExponent]
  | signed minus ds he =>
    have hall := hread (hdigits _ rfl)
    obtain rfl | rfl := he <;> cases minus <;> simp_all [readExponent]

theorem ExponentSpells.head {s : List Char} {e : Option (Bool × List Char)}
    (h : ExponentSpells s e) : ∀ c ∈ s.head?, c = 'e' ∨ c = 'E' := by
  cases h with
  | none => simp
  | plain ds he => simpa using he
  | signed minus ds he => simpa using he

theorem readUnsigned_of_spells {n : Numeral} {e : List Char} (h : n.IsLiteral)
    (he : ExponentSpells e n.exponent) :
    Json.readUnsigned n.negative (n.whole ++ (fractionText n.fraction ++ e)) = some n := by
  obtain ⟨negative, whole, fraction, exponent⟩ := n
  obtain ⟨hwhole, hfraction, hexponent⟩ := h
  have hread := he.readExponent_eq hexponent
  have hstops : ∀ c ∈ e.head?, c.isDigit = false := by
    intro c hc
    obtain rfl | rfl := he.head c hc <;> rfl
  have hfront : ∀ c ∈ (fractionText fraction ++ e).head?, c.isDigit = false := by
    cases fraction with
    | none => exact hstops
    | some ds => simp [fractionText]
  unfold Json.readUnsigned
  rw [Text.span_append (isDigits_of_isWhole hwhole).2 hfront]
  cases fraction with
  | none =>
    have hpoint : ∀ r, e ≠ '.' :: r := by
      rintro r rfl
      obtain h | h := he.head '.' rfl <;> contradiction
    simp [fractionText, hread, hwhole]
  | some ds =>
    obtain ⟨hne, hds⟩ := hfraction _ rfl
    simp [fractionText, -List.span_eq_takeWhile_dropWhile, Text.span_append hds hstops, hne, hread,
      hwhole]

theorem Spells.readNumeral_eq {s : List Char} {n : Numeral} (h : Spells s n) :
    Json.readNumeral s = some n := by
  obtain ⟨hliteral, he⟩ := h
  have hread := readUnsigned_of_spells hliteral he
  cases hnegative : n.negative with
  | true =>
    rw [hnegative] at hread
    exact hread
  | false =>
    obtain ⟨c, rest, hcons, hminus, _⟩ := (isDigits_of_isWhole hliteral.whole).exists_cons
    rw [hnegative] at hread
    rw [← hread]
    simp [hcons, Json.readNumeral, hminus]

theorem exponentSpells_of_readExponent {s : List Char} {e : Option (Bool × List Char)}
    (h : readExponent s = some e) : ExponentSpells s e ∧ ∀ x ∈ e, IsDigits x.2 := by
  unfold readExponent at h
  split at h
  · cases h
    exact ⟨.none, by simp⟩
  · rename_i c rest
    split at h
    · contradiction
    · rename_i hletter
      have hc : c = 'e' ∨ c = 'E' := by
        by_contra hne
        simp_all
      split at h
      rename_i minus ds hsign
      split at h
      · rename_i hdigits
        rw [Bool.and_eq_true, List.all_eq_true] at hdigits
        cases h
        have hds : IsDigits ds := ⟨by simpa using hdigits.1, hdigits.2⟩
        refine ⟨?_, by rintro _ ⟨⟩; exact hds⟩
        split at hsign <;> cases hsign
        · exact .signed true _ hc
        · exact .signed false _ hc
        · exact .plain _ hc
      · contradiction

theorem exists_rest_of_readUnsigned {negative : Bool} {s : List Char} {n : Numeral}
    (h : Json.readUnsigned negative s = some n) :
    ∃ fraction rest exponent, s.dropWhile Char.isDigit = fractionText fraction ++ rest ∧
      (∀ ds ∈ fraction, IsDigits ds) ∧ readExponent rest = some exponent ∧
      (if Json.isWhole (s.takeWhile Char.isDigit) then
        some ⟨negative, s.takeWhile Char.isDigit, fraction, exponent⟩ else none) = some n := by
  unfold Json.readUnsigned at h
  rw [List.span_eq_takeWhile_dropWhile] at h
  simp only [Option.bind_eq_bind] at h
  split at h
  · rename_i r hpoint
    rw [List.span_eq_takeWhile_dropWhile] at h
    split at h
    · contradiction
    · rename_i hdigits
      rw [Option.bind_some] at h
      obtain ⟨exponent, hexponent, h⟩ := Option.bind_eq_some_iff.mp h
      refine ⟨some (r.takeWhile Char.isDigit), _, exponent, ?_, ?_, hexponent, h⟩
      · rw [hpoint, fractionText, List.cons_append, List.takeWhile_append_dropWhile]
      · rintro ds ⟨⟩
        exact ⟨by simpa using hdigits, List.all_eq_true.mp List.all_takeWhile⟩
  · rw [Option.bind_some] at h
    obtain ⟨exponent, hexponent, h⟩ := Option.bind_eq_some_iff.mp h
    exact ⟨none, _, exponent, rfl, by simp, hexponent, h⟩

theorem spells_of_readUnsigned {negative : Bool} {s : List Char} {n : Numeral}
    (h : Json.readUnsigned negative s = some n) : n.negative = negative ∧ n.IsLiteral ∧
      ∃ e, ExponentSpells e n.exponent ∧ s = n.whole ++ (fractionText n.fraction ++ e) := by
  obtain ⟨fraction, rest, exponent, hrest, hfraction, hexponent, h⟩ := exists_rest_of_readUnsigned h
  split at h
  · rename_i hwhole
    cases h
    obtain ⟨he, hdigits⟩ := exponentSpells_of_readExponent hexponent
    refine ⟨rfl, ⟨hwhole, hfraction, hdigits⟩, rest, he, ?_⟩
    rw [← hrest, List.takeWhile_append_dropWhile]
  · contradiction

theorem spells_of_readNumeral {s : List Char} {n : Numeral} (h : Json.readNumeral s = some n) :
    Spells s n := by
  unfold Json.readNumeral at h
  split at h
  all_goals
    obtain ⟨hnegative, hliteral, e, he, rfl⟩ := spells_of_readUnsigned h
    have hspells := Spells.intro hliteral he
    rwa [hnegative] at hspells

theorem readNumeral_eq_some_iff {s : List Char} {n : Numeral} :
    Json.readNumeral s = some n ↔ Spells s n :=
  ⟨spells_of_readNumeral, Spells.readNumeral_eq⟩

theorem isNumberChar_of_isDigit {c : Char} (h : c.isDigit = true) : Json.isNumberChar c = true := by
  simp [Json.isNumberChar, h]

theorem Spells.isNumberChar {s : List Char} {n : Numeral} (h : Spells s n) :
    ∀ c ∈ s, Json.isNumberChar c = true := by
  obtain ⟨hliteral, he⟩ := h
  have hdigits {ds : List Char} (hds : IsDigits ds) : ∀ c ∈ ds, Json.isNumberChar c = true :=
    fun c hc => isNumberChar_of_isDigit (hds.2 c hc)
  have hpoint : Json.isNumberChar '.' = true := by decide
  have hletter {c : Char} (hc : c = 'e' ∨ c = 'E') : Json.isNumberChar c = true := by
    obtain rfl | rfl := hc <;> rfl
  have hsign (minus : Bool) : Json.isNumberChar (if minus then '-' else '+') = true := by
    cases minus <;> rfl
  simp only [List.forall_mem_append]
  refine ⟨?_, hdigits (isDigits_of_isWhole hliteral.whole), ?_, ?_⟩
  · cases n.negative with
    | false => simp
    | true => simpa using hsign true
  · cases hfraction : n.fraction with
    | none => simp [fractionText]
    | some ds => simpa [fractionText, hpoint] using hdigits (hliteral.fraction ds hfraction)
  · have hexponent := hliteral.exponent
    generalize n.exponent = x at he hexponent
    cases he with
    | none => simp
    | plain ds hc => exact List.forall_mem_cons.mpr ⟨hletter hc, hdigits (hexponent _ rfl)⟩
    | signed minus ds hc =>
      exact List.forall_mem_cons.mpr ⟨hletter hc,
        List.forall_mem_cons.mpr ⟨hsign minus, hdigits (hexponent _ rfl)⟩⟩

theorem isNumberChar_of_mem_text {n : Numeral} (h : n.IsLiteral) :
    ∀ c ∈ n.text, Json.isNumberChar c = true :=
  h.spells_text.isNumberChar

theorem isWhole_cons {c : Char} {ds : List Char} (hc : c ≠ '0')
    (hds : ∀ d ∈ c :: ds, d.isDigit = true) : Json.isWhole (c :: ds) = true := by
  have hall : (c :: ds).all Char.isDigit = true := List.all_eq_true.mpr hds
  have hne : (c != '0') = true := bne_iff_ne.mpr hc
  unfold Json.isWhole
  split
  · contradiction
  · rfl
  · rename_i hcons
    cases hcons
    rw [hne, hall]
    rfl

theorem isDigits_decimal (n : Nat) : IsDigits (Text.decimal n) :=
  ⟨Nat.toDigits_ne_nil, fun _ hc => Text.isDigit_of_mem_decimal hc⟩

theorem isLiteral_ofNat (n : Nat) : (ofNat n).IsLiteral := by
  refine ⟨?_, by simp [ofNat], by simp [ofNat]⟩
  by_cases hzero : n = 0
  · rw [hzero]
    rfl
  · obtain ⟨d, rest, hcons, hd⟩ := Text.exists_decimal_eq_cons hzero
    show Json.isWhole (Text.decimal n) = true
    rw [hcons]
    exact isWhole_cons hd (hcons ▸ (isDigits_decimal n).2)

end Numeral

namespace Binary64

open Numeral (IsDigits isWhole_cons isDigits_decimal)

variable {rank : Nat} {digits : List Char} {power : Int}

theorem DigitsOf.isDigits (h : DigitsOf rank digits power) : IsDigits digits := by
  obtain ⟨c, rest, hcons, _⟩ := h.leading
  exact ⟨by simp [hcons], h.isDigit⟩

theorem DigitsOf.isLiteral_positional (h : DigitsOf rank digits power) (negative : Bool) :
    (positional .document negative digits power).IsLiteral := by
  obtain ⟨hne, hdigits⟩ := h.isDigits
  have hzeros (n : Nat) : ∀ c ∈ List.replicate n '0', c.isDigit = true := by
    intro c hc
    rw [List.eq_of_mem_replicate hc]
    rfl
  unfold positional
  split
  · refine ⟨rfl, ?_, by simp⟩
    rintro ds ⟨⟩
    exact ⟨by simp [hne], List.forall_mem_append.mpr ⟨hzeros _, hdigits⟩⟩
  · extract_lets count whole
    have hwhole : Json.isWhole whole = true := by
      have hall : ∀ c ∈ whole, c.isDigit = true := List.forall_mem_append.mpr
        ⟨fun c hc => hdigits c (List.mem_of_mem_take hc), hzeros _⟩
      obtain ⟨c, rest, hcons, hc⟩ := h.leading
      have hfront : whole = c :: (rest.take power.toNat ++
          List.replicate (count - digits.length) '0') := by
        show digits.take (power.toNat + 1) ++ _ = _
        rw [hcons]
        rfl
      rw [hfront] at hall ⊢
      exact isWhole_cons hc hall
    split
    · refine ⟨hwhole, ?_, by simp⟩
      rintro ds ⟨⟩
      exact ⟨by simp, by simp⟩
    · rename_i hdrop
      refine ⟨hwhole, ?_, by simp⟩
      rintro ds ⟨⟩
      exact ⟨hdrop, fun c hc => hdigits c (List.mem_of_mem_drop hc)⟩

theorem DigitsOf.isLiteral_scientific (h : DigitsOf rank digits power) (negative : Bool) :
    (scientific negative digits power).IsLiteral := by
  obtain ⟨c, rest, rfl, hc⟩ := h.leading
  have hdigits := h.isDigit
  refine ⟨?_, ?_, ?_⟩
  · exact isWhole_cons hc (List.forall_mem_singleton.mpr (hdigits c List.mem_cons_self))
  · intro ds hds
    cases rest with
    | nil => contradiction
    | cons d rest =>
      cases hds
      exact ⟨by simp, fun e he => hdigits e (List.mem_cons_of_mem _ he)⟩
  · rintro e ⟨⟩
    exact isDigits_decimal _

theorem isLiteral_numeral (x : Binary64) : (x.numeral .document).IsLiteral := by
  by_cases hzero : x.rank = 0
  · rw [numeral_zero hzero]
    refine ⟨rfl, ?_, by simp⟩
    rintro ds ⟨⟩
    exact ⟨by simp, by simp⟩
  · have hdigits := digitsOf_shortest .even hzero
    obtain hplain | hplain := numeral_cases hzero
    · rw [hplain]
      exact hdigits.isLiteral_positional _
    · rw [hplain]
      exact hdigits.isLiteral_scientific _

end Binary64

end OneApi
