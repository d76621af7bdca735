import OneApi.Proofs.CountSpelling
import OneApi.Proofs.RawText
import OneApi.Settings

/-! Where counts are read. A header stands for the number that its first value spells, and for zero
when there is none; a variable that must be a count gives the settings the number that its text
spells, and is an error otherwise. So a number is read exactly or not at all. -/

namespace OneApi

/-! ## Headers -/

namespace Headers

/-- A value all of whose bytes are visible ASCII, spaces or tabs. -/
def Readable (value : List UInt8) : Prop :=
  ∀ b ∈ value, (0x20 ≤ b.toNat ∧ b.toNat ≤ 0x7e) ∨ b = 9

/-- The first of the lines with a name, whatever is behind it. -/
inductive FirstValue (name : String) : Headers → List UInt8 → Prop
  | intro {before after : Headers} {other : String} {value : List UInt8} :
    (∀ line ∈ before, sameName line.1 name = false) → sameName other name = true →
    FirstValue name (before ++ (other, value) :: after) value

/-- What the lines say under a name that stands for a count. A text stands in a line by its UTF-8
bytes. -/
inductive Announces (lines : Headers) (name : String) : Nat → Prop
  | count {text : List Char} {n : Nat} :
    FirstValue name lines (text.flatMap String.utf8EncodeChar) →
    Readable (text.flatMap String.utf8EncodeChar) → Text.SpellsCount text n → n < UInt64.size →
    Announces lines name n
  | refused {text : List Char} : FirstValue name lines (text.flatMap String.utf8EncodeChar) →
    Readable (text.flatMap String.utf8EncodeChar) → Text.RefusesCount UInt64.size text →
    Announces lines name 0
  | unreadable {value : List UInt8} : FirstValue name lines value → ¬ Readable value →
    Announces lines name 0
  | missing : (∀ line ∈ lines, sameName line.1 name = false) → Announces lines name 0

variable {lines : Headers} {name : String} {value : List UInt8} {text : List Char}

theorem all_isVisible_iff : value.all isVisible = true ↔ Readable value := by
  simp only [isVisible, Readable, List.all_eq_true, Bool.or_eq_true, Bool.and_eq_true,
    decide_eq_true_eq, beq_iff_eq]

/-- A readable value is the bytes of an ASCII text. -/
theorem utf8_of_readable (h : Readable value) :
    (value.map fun b => Char.ofNat b.toNat).flatMap String.utf8EncodeChar = value := by
  induction value with
  | nil => rfl
  | cons b value ih =>
    obtain ⟨hb, hvalue⟩ := List.forall_mem_cons.mp h
    have hlt : b.toNat < 128 := by
      obtain hb | rfl := hb
      · omega
      · decide
    have hvalid : b.toNat.isValidChar := .inl (by omega)
    have hcode : (Char.ofNat b.toNat).toNat = b.toNat := by
      rw [Char.ofNat, dif_pos hvalid]
      rfl
    have hascii : Text.isAscii (Char.ofNat b.toNat) = true := by
      rw [Text.isAscii, hcode]
      exact decide_eq_true hlt
    rw [List.map_cons, List.flatMap_cons, ih hvalue, Text.utf8EncodeChar_of_isAscii hascii, hcode,
      UInt8.ofNat_toNat]
    rfl

theorem text?_of_readable (h : Readable (text.flatMap String.utf8EncodeChar)) :
    text? (text.flatMap String.utf8EncodeChar) = some text := by
  rw [text?, if_pos (all_isVisible_iff.mpr h), Option.some.injEq]
  exact Text.utf8_injective (utf8_of_readable h)

theorem text?_of_not_readable (h : ¬ Readable value) : text? value = none := by
  rw [text?, if_neg (mt all_isVisible_iff.mp h)]

theorem readable_decimal (n : Nat) :
    Readable ((Text.decimal n).flatMap String.utf8EncodeChar) := by
  refine List.forall_mem_flatMap.mpr ?_
  intro c hc
  obtain ⟨d, hd, rfl⟩ := Text.exists_digitChar (Text.isDigit_of_mem_decimal hc)
  have hcode : d.digitChar.toNat = 48 + d := Nat.toNat_digitChar_of_lt_ten hd
  have hascii : Text.isAscii d.digitChar = true := by
    rw [Text.isAscii, hcode]
    exact decide_eq_true (by omega)
  have hbyte : (UInt8.ofNat (48 + d)).toNat = 48 + d := by
    rw [UInt8.toNat_ofNat']
    omega
  rw [Text.utf8EncodeChar_of_isAscii hascii, hcode, List.forall_mem_singleton, hbyte]
  omega

theorem first?_eq_some_iff : lines.first? name = some value ↔ FirstValue name lines value := by
  rw [first?, Option.map_eq_some_iff]
  simp only [List.find?_eq_some_iff_append, Bool.not_eq_true']
  constructor
  · intro h
    obtain ⟨line, ⟨hsame, before, after, rfl, hbefore⟩, rfl⟩ := h
    exact .intro hbefore hsame
  · intro h
    cases h with
    | @intro before after other value hbefore hsame =>
      exact ⟨(other, value), ⟨hsame, before, after, rfl, hbefore⟩, rfl⟩

theorem first?_eq_none_iff :
    lines.first? name = none ↔ ∀ line ∈ lines, sameName line.1 name = false := by
  rw [first?, Option.map_eq_none_iff, List.find?_eq_none]
  simp only [Bool.not_eq_true]

theorem count_of_firstValue (h : FirstValue name lines value) :
    lines.count name = ((text? value).bind Width.word64.read).getD 0 := by
  rw [count, first?_eq_some_iff.mpr h]
  rfl

theorem count_of_missing (h : ∀ line ∈ lines, sameName line.1 name = false) :
    lines.count name = 0 := by
  rw [count, first?_eq_none_iff.mpr h]
  rfl

theorem announces_count (lines : Headers) (name : String) :
    lines.Announces name (lines.count name).toNat := by
  cases hfirst : lines.first? name with
  | none =>
    have hno := first?_eq_none_iff.mp hfirst
    rw [count_of_missing hno]
    exact .missing hno
  | some value =>
    have hvalue := first?_eq_some_iff.mp hfirst
    rw [count_of_firstValue hvalue]
    by_cases hreadable : Readable value
    · -- the value is the bytes of its text
      have hutf8 := utf8_of_readable hreadable
      generalize (value.map fun b => Char.ofNat b.toNat) = text at hutf8
      subst hutf8
      rw [text?_of_readable hreadable, Option.bind_some]
      cases hread : Width.word64.read text with
      | none => exact .refused hvalue hreadable (Width.read_eq_none_iff.mp hread)
      | some w =>
        exact .count hvalue hreadable (Width.read_eq_some_iff.mp hread) (Width.word64.toNat_lt w)
    · rw [text?_of_not_readable hreadable]
      exact .unreadable hvalue hreadable

theorem Announces.toNat_count {n : Nat} (h : lines.Announces name n) :
    (lines.count name).toNat = n := by
  cases h with
  | @count text n hvalue hreadable hspells hlt =>
    have htoNat : (UInt64.ofNat n).toNat = n := UInt64.toNat_ofNat_of_lt' hlt
    have hread : Width.word64.read text = some (.ofNat n) := by
      rw [Width.read_eq_some_iff]
      show Text.SpellsCount _ (UInt64.ofNat n).toNat
      rwa [htoNat]
    rw [count_of_firstValue hvalue, text?_of_readable hreadable, Option.bind_some, hread]
    exact htoNat
  | refused hvalue hreadable hrefuses =>
    rw [count_of_firstValue hvalue, text?_of_readable hreadable, Option.bind_some,
      Width.read_eq_none_iff.mpr hrefuses]
    rfl
  | unreadable hvalue hreadable =>
    rw [count_of_firstValue hvalue, text?_of_not_readable hreadable]
    rfl
  | missing hno =>
    rw [count_of_missing hno]
    rfl

theorem toNat_count_iff {n : Nat} : (lines.count name).toNat = n ↔ lines.Announces name n := by
  constructor
  · intro h
    rw [← h]
    exact announces_count lines name
  · exact Announces.toNat_count

end Headers

/-! ## Variables -/

namespace Settings

/-- A variable that gives settings a count of a width: the number that its text spells, and nothing
for all other texts. -/
structure ReadsCounts {W : Type} (v : Variable) (width : Width W) (put : Settings → W → Settings) :
    Prop where
  ok_iff (s : Settings) (raw : String) (w : W) :
    s.set v raw = .ok (put s w) ↔ Text.SpellsCount raw.toList (width.toNat w)
  error_iff (s : Settings) (raw : String) :
    s.set v raw = .error (notACount v raw) ↔ Text.RefusesCount width.size raw.toList
  ok_or_error (s : Settings) (raw : String) :
    (∃ w, s.set v raw = .ok (put s w)) ∨ s.set v raw = .error (notACount v raw)
  written (s : Settings) (w : W) :
    s.set v (String.ofList (Text.decimal (width.toNat w))) = .ok (put s w)

theorem readsCounts_of_set {W : Type} {v : Variable} {width : Width W} {put : Settings → W → Settings}
    (hput : ∀ s w x, put s w = put s x → w = x)
    (hset : ∀ (s : Settings) (raw : String), s.set v raw =
      match width.read raw.toList with
      | some w => .ok (put s w)
      | none => .error (notACount v raw)) : ReadsCounts v width put where
  ok_iff s raw w := by
    rw [hset, ← Width.read_eq_some_iff]
    cases width.read raw.toList with
    | none => simp
    | some x =>
      simp only [Except.ok.injEq, Option.some.injEq]
      exact ⟨hput s x w, fun h => by rw [h]⟩
  error_iff s raw := by
    rw [hset, ← Width.read_eq_none_iff]
    cases width.read raw.toList with
    | none => simp
    | some x => simp
  ok_or_error s raw := by
    rw [hset]
    cases width.read raw.toList with
    | none => exact .inr rfl
    | some w => exact .inl ⟨w, rfl⟩
  written s w := by
    have hread : width.read (Text.decimal (width.toNat w)) = some w :=
      Width.read_eq_some_iff.mpr (Text.spellsCount_decimal _)
    rw [hset, String.toList_ofList, hread]

theorem readsCounts_timeoutSeconds :
    ReadsCounts .timeoutSeconds Width.word64 fun s w => { s with timeoutSeconds := w } := by
  refine readsCounts_of_set ?_ ?_
  · intro s w x h
    exact congrArg timeoutSeconds h
  · intro s raw
    have hread : Width.word64.read raw.toList = Text.readCount64 (Text.strip raw.toList) := rfl
    unfold set
    dsimp only
    rw [hread]
    cases Text.readCount64 (Text.strip raw.toList) with
    | none => rfl
    | some n => rfl

theorem readsCounts_maxRetries :
    ReadsCounts .maxRetries Width.word32 fun s w => { s with maxRetries := w } := by
  refine readsCounts_of_set ?_ ?_
  · intro s w x h
    exact congrArg maxRetries h
  · intro s raw
    have hread : Width.word32.read raw.toList = Text.readCount32 (Text.strip raw.toList) := rfl
    unfold set
    dsimp only
    rw [hread]
    cases Text.readCount32 (Text.strip raw.toList) with
    | none => rfl
    | some n => rfl

end Settings

/-- **Counts are read exactly or not at all.** A header is zero unless its first value is readable and
spells a number of 64 bits, and so are the three numbers of a rate window. A variable that must be a
count is an error unless its text spells a number of its width. What is written in decimal digits is
read back. -/
theorem counts_read_exactly :
    (∀ (lines : Headers) (name : String) (n : Nat),
      (lines.count name).toNat = n ↔ lines.Announces name n) ∧
    (∀ (lines : Headers) (w : RateWindow), RateWindow.ofHeaders lines = w ↔
      lines.Announces RateWindow.limitHeader w.limit.toNat ∧
      lines.Announces RateWindow.remainingHeader w.remaining.toNat ∧
      lines.Announces RateWindow.resetHeader w.reset.toNat) ∧
    (∀ (name : String) (w : UInt64) (rest : Headers),
      Headers.count ((name, (Text.decimal w.toNat).flatMap String.utf8EncodeChar) :: rest) name = w) ∧
    Settings.ReadsCounts .timeoutSeconds .word64 (fun s w => { s with timeoutSeconds := w }) ∧
    Settings.ReadsCounts .maxRetries .word32 (fun s w => { s with maxRetries := w }) := by
  refine ⟨fun _ _ _ => Headers.toNat_count_iff, ?_, ?_, Settings.readsCounts_timeoutSeconds,
    Settings.readsCounts_maxRetries⟩
  · intro lines w
    simp only [← Headers.toNat_count_iff, UInt64.toNat_inj, RateWindow.ofHeaders]
    constructor
    · intro h
      rw [← h]
      exact ⟨rfl, rfl, rfl⟩
    · intro h
      obtain ⟨hlimit, hremaining, hreset⟩ := h
      rw [hlimit, hremaining, hreset]
  · intro name w rest
    rw [← UInt64.toNat_inj, Headers.toNat_count_iff]
    have hfirst : Headers.FirstValue name
        ((name, (Text.decimal w.toNat).flatMap String.utf8EncodeChar) :: rest) _ :=
      @Headers.FirstValue.intro name [] rest name _ (List.forall_mem_nil _) (beq_self_eq_true _)
    exact .count hfirst (Headers.readable_decimal w.toNat) (Text.spellsCount_decimal w.toNat)
      (Width.word64.toNat_lt w)

end OneApi
