import Mathlib.Data.List.Forall2
import OneApi.Json.Parser
import OneApi.Json.Printer
import OneApi.Proofs.WrittenNumeral

/-! Words of a document. Numerals and texts in quotes have several spellings; each of them is read
from the front of a text as the word it spells, and what follows is left over; nothing else is read
as a word. What is written is one of the spellings. -/

namespace OneApi.Json

/-! ## Strings -/

/-- The spellings of a unit: a character itself unless it is a quote, a backslash or a control, an
escaped one, or a code of four hexadecimal digits. -/
inductive UnitSpells : List Char → CharUnit → Prop
  | plain {c : Char} : c ≠ '"' → c ≠ '\\' → ¬ c < ' ' → UnitSpells [c] (.char c)
  | escaped {e c : Char} : unescape? e = some c → UnitSpells ['\\', e] (.char c)
  | code {a b c d : Char} {n : Nat} : hexCode a b c d = some n →
    UnitSpells ['\\', 'u', a, b, c, d] (.code n)

/-- The spellings of a string, which has no text if its codes do not fit together. -/
inductive StringSpells : List Char → Option String → Prop
  | intro {parts : List (List Char)} {us : List CharUnit} : List.Forall₂ UnitSpells parts us →
    StringSpells ('"' :: (parts.flatten ++ ['"'])) ((joinUnits us).map String.ofList)

theorem UnitSpells.readUnits_eq {part : List Char} {u : CharUnit} (h : UnitSpells part u)
    (s : List Char) : readUnits (part ++ s) = before u (readUnits s) := by
  cases h with
  | plain hquote hbackslash hshown =>
    show readUnits (_ :: s) = _
    rw [readUnits, if_neg hshown]
    · exact hquote
    · exact fun _ _ _ _ _ hc _ => hbackslash hc
    · exact fun _ _ hc _ => hbackslash hc
  | @escaped e c he =>
    show readUnits ('\\' :: e :: s) = _
    rw [readUnits, he]
    · rfl
    · rintro a b c d rest rfl _
      contradiction
  | code hn =>
    show readUnits ('\\' :: 'u' :: _ :: _ :: _ :: _ :: s) = _
    rw [readUnits, hn]
    rfl

theorem readUnits_flatten {parts : List (List Char)} {us : List CharUnit}
    (h : List.Forall₂ UnitSpells parts us) (rest : List Char) :
    readUnits (parts.flatten ++ '"' :: rest) = some (us, rest) := by
  induction h with
  | nil => simp [readUnits]
  | cons hunit _ ih =>
    rw [List.flatten_cons, List.append_assoc, hunit.readUnits_eq, ih]
    rfl

theorem StringSpells.readToken_eq {s : List Char} {t : Option String} (h : StringSpells s t)
    (rest : List Char) : readToken (s ++ rest) = some (.string t, rest) := by
  obtain ⟨hunits⟩ := h
  have hread := readUnits_flatten hunits rest
  simp [readToken, mark?, hread]

theorem exists_units_of_readUnits {s rest : List Char} {us : List CharUnit}
    (h : readUnits s = some (us, rest)) :
    ∃ parts, List.Forall₂ UnitSpells parts us ∧ s = parts.flatten ++ '"' :: rest := by
  have hbefore {part s : List Char} {u : CharUnit} {us : List CharUnit} (hunit : UnitSpells part u)
      (h : before u (readUnits s) = some (us, rest))
      (ih : ∀ {us}, readUnits s = some (us, rest) →
        ∃ parts, List.Forall₂ UnitSpells parts us ∧ s = parts.flatten ++ '"' :: rest) :
      ∃ parts, List.Forall₂ UnitSpells parts us ∧ part ++ s = parts.flatten ++ '"' :: rest := by
    obtain ⟨⟨vs, r⟩, hread, heq⟩ := Option.map_eq_some_iff.mp h
    cases heq
    obtain ⟨parts, hparts, rfl⟩ := ih hread
    exact ⟨part :: parts, .cons hunit hparts, by simp⟩
  fun_induction readUnits s generalizing us with
  | case1 => contradiction
  | case2 s =>
    cases h
    exact ⟨[], .nil, rfl⟩
  | case3 s a b c d ih =>
    obtain ⟨n, hn, h⟩ := Option.bind_eq_some_iff.mp h
    exact hbefore (.code hn) h ih
  | case4 s e hcode ih =>
    obtain ⟨c, hc, h⟩ := Option.bind_eq_some_iff.mp h
    exact hbefore (.escaped hc) h ih
  | case5 => contradiction
  | case6 c s hquote hcode hescape hshown ih =>
    by_cases hbackslash : c = '\\'
    · cases s with
      | nil => cases h
      | cons e s => exact (hescape e s hbackslash rfl).elim
    · exact hbefore (.plain hquote hbackslash hshown) h ih

theorem hexCode_control : ∀ n < 32,
    hexCode '0' '0' (lowerHexDigit (n / 16)) (lowerHexDigit (n % 16)) = some n := by
  decide

theorem joinUnits_code {n : Nat} (h : n < 0xd800) (us : List CharUnit) :
    joinUnits (.code n :: us) = (joinUnits us).map (Char.ofNat n :: ·) := by
  have hhigh : isHighHalf n = false := by simp [isHighHalf]; omega
  have hlow : isLowHalf n = false := by simp [isLowHalf]; omega
  cases us with
  | nil => simp [joinUnits, hhigh, hlow]
  | cons u us => cases u <;> simp [joinUnits, hhigh, hlow]

/-- A character is written as one unit, which is joined as the character. -/
theorem exists_unit (c : Char) : ∃ u, UnitSpells (escape c) u ∧
    ∀ us, joinUnits (u :: us) = (joinUnits us).map (c :: ·) := by
  have hchar : ∀ us, joinUnits (.char c :: us) = (joinUnits us).map (c :: ·) := fun _ => rfl
  unfold escape
  split
  case h_8 =>
    rename_i hquote hbackslash _ _ _ _ _
    split
    · -- a control without a letter of its own is written by its code
      rename_i hcontrol
      have hlt : c.toNat < 32 := hcontrol
      refine ⟨.code c.toNat, .code (hexCode_control _ hlt), fun us => ?_⟩
      rw [joinUnits_code (by omega), Char.ofNat_toNat]
    · rename_i hshown
      exact ⟨.char c, .plain hquote hbackslash hshown, hchar⟩
  all_goals exact ⟨.char _, .escaped rfl, hchar⟩

theorem exists_units (s : List Char) :
    ∃ us, List.Forall₂ UnitSpells (s.map escape) us ∧ joinUnits us = some s := by
  induction s with
  | nil => exact ⟨[], .nil, rfl⟩
  | cons c s ih =>
    obtain ⟨us, hspells, hjoin⟩ := ih
    obtain ⟨u, hunit, hchar⟩ := exists_unit c
    refine ⟨u :: us, .cons hunit hspells, ?_⟩
    rw [hchar, hjoin]
    rfl

theorem stringSpells_stringText (s : String) : StringSpells (stringText (some s)) (some s) := by
  obtain ⟨us, hspells, hjoin⟩ := exists_units s.toList
  have h := StringSpells.intro hspells
  rw [hjoin, Option.map_some, String.ofList_toList] at h
  exact h

/-! ## Numbers -/

/-- No number goes on here. -/
def Stops (rest : List Char) : Prop := ∀ c ∈ rest.head?, isNumberChar c = false

theorem stops_cons {c : Char} (h : isNumberChar c = false) (rest : List Char) :
    Stops (c :: rest) := by
  rintro d ⟨⟩
  exact h

theorem mark?_of_isNumberChar {c : Char} (h : isNumberChar c = true) : mark? c = none := by
  unfold mark?
  split
  case h_7 => rfl
  all_goals contradiction

theorem readToken_number {s : List Char} {n : Numeral} (h : n.Spells s) {rest : List Char}
    (hrest : Stops rest) : readToken (s ++ rest) = some (.number n, rest) := by
  have hnumber : readNumber (s ++ rest) = some (.number n, rest) := by
    have hspan := Text.span_append h.isNumberChar hrest
    rw [List.span_eq_takeWhile_dropWhile, Prod.mk.injEq] at hspan
    rw [readNumber, hspan.1, hspan.2, h.readNumeral_eq]
    rfl
  have hne : s ≠ [] := by
    rintro rfl
    have hread := h.readNumeral_eq
    contradiction
  obtain ⟨c, s, rfl⟩ := List.exists_cons_of_ne_nil hne
  have hc : isNumberChar c = true := h.isNumberChar c List.mem_cons_self
  have hquote : c ≠ '"' := by
    rintro rfl
    contradiction
  rw [List.cons_append] at hnumber ⊢
  simp [readToken, mark?_of_isNumberChar hc, hquote, hc, hnumber]

/-! ## All words -/

/-- The texts of words. -/
inductive Token.Spells : List Char → Token → Prop
  | openArray : Spells ['['] .openArray
  | closeArray : Spells [']'] .closeArray
  | openObject : Spells ['\x7b'] .openObject
  | closeObject : Spells ['\x7d'] .closeObject
  | comma : Spells [','] .comma
  | colon : Spells [':'] .colon
  | null : Spells "null".toList .null
  | true : Spells "true".toList (.bool true)
  | false : Spells "false".toList (.bool false)
  | number {s : List Char} {n : Numeral} : n.Spells s → Spells s (.number n)
  | string {s : List Char} {t : Option String} : StringSpells s t → Spells s (.string t)

theorem spells_of_mark? {c : Char} {t : Token} (h : mark? c = some t) : t.Spells [c] := by
  unfold mark? at h
  split at h <;> cases h
  · exact .openArray
  · exact .closeArray
  · exact .openObject
  · exact .closeObject
  · exact .comma
  · exact .colon

theorem exists_spells_of_readWord {s rest : List Char} {t : Token}
    (h : readWord s = some (t, rest)) : ∃ w, t.Spells w ∧ s = w ++ rest := by
  unfold readWord at h
  split at h <;> cases h
  · exact ⟨_, .null, rfl⟩
  · exact ⟨_, .true, rfl⟩
  · exact ⟨_, .false, rfl⟩

theorem exists_spells_of_readToken {s rest : List Char} {t : Token}
    (h : readToken s = some (t, rest)) : ∃ w, t.Spells w ∧ s = w ++ rest := by
  unfold readToken at h
  split at h
  · contradiction
  · rename_i c s
    split at h
    · rename_i hmark
      cases h
      exact ⟨[c], spells_of_mark? hmark, rfl⟩
    · split at h
      · rename_i hquote
        obtain ⟨⟨us, r⟩, hunits, h⟩ := Option.map_eq_some_iff.mp h
        cases h
        obtain rfl := beq_iff_eq.mp hquote
        obtain ⟨parts, hparts, rfl⟩ := exists_units_of_readUnits hunits
        exact ⟨_, .string (.intro hparts), by simp⟩
      · split at h
        · obtain ⟨n, hn, h⟩ := Option.map_eq_some_iff.mp h
          cases h
          exact ⟨_, .number (Numeral.readNumeral_eq_some_iff.mp hn),
            List.takeWhile_append_dropWhile.symm⟩
        · exact exists_spells_of_readWord h

/-- White space between words. -/
def Blank (s : List Char) : Prop := ∀ c ∈ s, isBlank c = true

theorem blank_nil : Blank [] := List.forall_mem_nil _

theorem Blank.append {s t : List Char} (hs : Blank s) (ht : Blank t) : Blank (s ++ t) :=
  List.forall_mem_append.mpr ⟨hs, ht⟩

theorem tokens_nil : tokens [] = some [] := by
  rw [tokens]

theorem tokens_blank {c : Char} (h : isBlank c = true) (s : List Char) :
    tokens (c :: s) = tokens s := by
  rw [tokens, if_pos h]

theorem readToken_blank {c : Char} (h : isBlank c = true) (s : List Char) :
    readToken (c :: s) = none := by
  simp only [isBlank, Bool.or_eq_true, beq_iff_eq] at h
  rcases h with ((rfl | rfl) | rfl) | rfl <;> rfl

theorem tokens_of_readToken {s rest : List Char} {t : Token} (h : readToken s = some (t, rest)) :
    tokens s = (tokens rest).map (t :: ·) := by
  cases s with
  | nil => contradiction
  | cons c s =>
    have hblank : isBlank c ≠ true := by
      intro hc
      rw [readToken_blank hc] at h
      contradiction
    rw [tokens, if_neg hblank]
    split
    · rename_i hnone
      rw [h] at hnone
      contradiction
    · rename_i hsome
      rw [h] at hsome
      cases hsome
      rfl

/-! ## States -/

namespace State

/-- The state behind a text. -/
def run (state : State) (s : List Char) : Option State :=
  (tokens s).bind fun ts => ts.foldlM step state

theorem run_nil (state : State) : state.run [] = some state := by
  rw [run, tokens_nil]
  rfl

theorem run_blank {c : Char} (h : isBlank c = true) (state : State) (s : List Char) :
    state.run (c :: s) = state.run s := by
  rw [run, tokens_blank h]
  rfl

theorem run_token {s rest : List Char} {t : Token} (h : readToken s = some (t, rest))
    (state : State) : state.run s = (state.step t).bind fun next => next.run rest := by
  rw [run, tokens_of_readToken h]
  cases htokens : tokens rest with
  | none => cases state.step t <;> simp [run, htokens]
  | some ts => cases hstep : state.step t <;> simp [run, htokens, hstep]

theorem run_blanks {gap : List Char} (h : Blank gap) (state : State) (s : List Char) :
    state.run (gap ++ s) = state.run s := by
  induction gap with
  | nil => rfl
  | cons c gap ih =>
    obtain ⟨hc, hgap⟩ := List.forall_mem_cons.mp h
    rw [List.cons_append, run_blank hc, ih hgap]

theorem parse_eq (s : List Char) : parse s = (start.run s).bind result? := by
  show (tokens s).bind (fun ts => (ts.foldlM step start).bind result?) = _
  rw [run, Option.bind_assoc]

end State

end OneApi.Json
