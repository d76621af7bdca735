import Mathlib.Data.List.DropRight
import OneApi.Proofs.PercentDecode
import OneApi.Text.Blank
import OneApi.Url.Parser

/-! The segments of web addresses. A path that was read has clean segments only: they are encoded,
hold no slash and are no dot segments. A path written from clean segments is read back as it is,
so that joining and appending change nothing but what is added. -/

namespace OneApi.Url

/-! ## Dots -/

theorem toNat_toLower (c : Char) :
    c.toLower.toNat = if 65 ≤ c.toNat ∧ c.toNat ≤ 90 then c.toNat + 32 else c.toNat := by
  have hupper : (c.val ≥ 'A'.val ∧ c.val ≤ 'Z'.val) ↔ (65 ≤ c.toNat ∧ c.toNat ≤ 90) := Iff.rfl
  unfold Char.toLower
  split
  · rename_i h
    have hn := hupper.mp h
    have hlt : c.val.toNat < 91 := Nat.lt_succ_of_le hn.2
    rw [if_pos hn]
    change (c.val + 32).toNat = c.val.toNat + 32
    rw [UInt32.toNat_add, Nat.mod_eq_of_lt]
    · rfl
    · change c.val.toNat + 32 < _
      omega
  · rename_i h
    rw [if_neg (mt hupper.mpr h)]

theorem toLower_eq_of_lt {c d : Char} (hd : d.toNat < 97) (h : c.toLower = d) : c = d := by
  have hn := toNat_toLower c
  rw [h] at hn
  apply Char.toNat_inj.mp
  split at hn <;> omega

theorem hexValue_of_toLower_eq {c : Char} (h : c.toLower = 'e') : Text.hexValue c = some 14 := by
  have hn := toNat_toLower c
  rw [h, show 'e'.toNat = 101 from rfl] at hn
  split at hn
  · have hc : c = 'E' := Char.toNat_inj.mp (show c.toNat = 69 by omega)
    rw [hc]
    rfl
  · have hc : c = 'e' := Char.toNat_inj.mp (show c.toNat = 101 from hn.symm)
    rw [hc]
    rfl

theorem percentDecode_encodedDot {e : Char} (h : e.toLower = 'e') (s : List Char) :
    Text.percentDecode ('%' :: '2' :: e :: s) = 46 :: Text.percentDecode s :=
  Text.percentDecode_escape (x := 2) rfl (hexValue_of_toLower_eq h) s

/-- Both spellings of a dot segment decode to a dot. -/
theorem percentDecode_of_isDot {s : Segment} (h : isDot s = true) : Text.percentDecode s = [46] := by
  simp only [isDot, Bool.or_eq_true, beq_iff_eq] at h
  rcases h with h | h
  · obtain ⟨c, rfl, hc⟩ : ∃ c, s = [c] ∧ c.toLower = '.' := by
      simpa [List.map_eq_cons_iff] using h
    rw [toLower_eq_of_lt (by decide) hc]
    decide
  · obtain ⟨a, ha, b, hb, c, hc, rfl⟩ :
        ∃ a, a.toLower = '%' ∧ ∃ b, b.toLower = '2' ∧ ∃ c, c.toLower = 'e' ∧ s = [a, b, c] := by
      simp [List.map_eq_cons_iff] at h
      grind
    rw [toLower_eq_of_lt (by decide) ha, toLower_eq_of_lt (by decide) hb,
      percentDecode_encodedDot hc]
    rfl

theorem percentDecode_of_isDoubleDot {s : Segment} (h : isDoubleDot s = true) :
    Text.percentDecode s = [46, 46] := by
  unfold isDoubleDot at h
  split at h
  · rename_i t
    rw [Text.percentDecode_cons_of_ne (by decide), percentDecode_of_isDot h]
    decide
  · rename_i e t
    simp only [Bool.and_eq_true, beq_iff_eq] at h
    rw [percentDecode_encodedDot h.1, percentDecode_of_isDot h.2]
  · contradiction

theorem eq_of_percentDecode_encode {marks s t : List Char} (hm : '%' ∈ marks)
    (h : Text.percentDecode (encode marks s) = t.flatMap String.utf8EncodeChar) : s = t := by
  have hkeep : keepExcept marks '%' = false := by simp [keepExcept, hm]
  apply Text.utf8_injective
  rw [← Text.percentDecode_percentEncode hkeep, ← encode, h]

/-- A text encoded as one segment is a dot segment only if it was one before. -/
theorem eq_of_isDot_encode {marks s : List Char} (hm : '%' ∈ marks)
    (h : isDot (encode marks s) = true) : s = ['.'] :=
  eq_of_percentDecode_encode hm (percentDecode_of_isDot h)

theorem eq_of_isDoubleDot_encode {marks s : List Char} (hm : '%' ∈ marks)
    (h : isDoubleDot (encode marks s) = true) : s = ['.', '.'] :=
  eq_of_percentDecode_encode hm (percentDecode_of_isDoubleDot h)

/-! ## Clean segments -/

/-- Encoded for a path, without any slash. -/
def Encoded (s : Segment) : Prop :=
  ∀ c ∈ s, keepExcept pathMarks c = true ∧ c ≠ '/' ∧ c ≠ '\\'

instance (s : Segment) : Decidable (Encoded s) :=
  decidable_of_iff (s.all fun c => keepExcept pathMarks c && (c != '/' && c != '\\'))
    (by simp [Encoded])

/-- A segment as it stands in a web address. -/
structure Clean (s : Segment) : Prop where
  encoded : Encoded s
  not_dot : isDot s = false
  not_doubleDot : isDoubleDot s = false

theorem clean_nil : Clean [] := ⟨by simp [Encoded], rfl, rfl⟩

theorem encoded_hexDigit : ∀ n < 16, keepExcept pathMarks (Text.hexDigit n) = true ∧
    Text.hexDigit n ≠ '/' ∧ Text.hexDigit n ≠ '\\' := by decide

/-- Encoding with at least the marks of a path gives an encoded segment, if it takes the slashes. -/
theorem encoded_encode {marks s : List Char} (hm : pathMarks ⊆ marks)
    (hs : ∀ c ∈ s, keepExcept marks c = true → c ≠ '/' ∧ c ≠ '\\') : Encoded (encode marks s) := by
  intro c hc
  rcases Text.mem_percentEncode hc with ⟨hk, hcs⟩ | rfl | ⟨n, hn, rfl⟩
  · have hplain : isPlain c = true ∧ c ∉ marks := by simpa [keepExcept] using hk
    have hpath : c ∉ pathMarks := fun h => hplain.2 (hm h)
    exact ⟨by simp [keepExcept, hplain.1, hpath], hs c hcs hk⟩
  · decide
  · exact encoded_hexDigit n hn

theorem Encoded.encode_eq {s : Segment} (h : Encoded s) : encode pathMarks s = s :=
  encode_of_all (List.all_eq_true.mpr fun c hc => (h c hc).1)

theorem Encoded.dropWhile_eq {s : Segment} (h : Encoded s) : s.dropWhile (· == '/') = s := by
  cases s with
  | nil => rfl
  | cons c rest =>
    have hc := (h c List.mem_cons_self).2.1
    simp [hc]

namespace Path

variable {k : Kind} {done segs : List Segment} {s : Segment} {P : Segment → Prop}

theorem place_of_clean (last : Bool) (done : List Segment) (h : Clean s) :
    place last done s = done ++ [s] := by
  simp [place, h.not_dot, h.not_doubleDot]

theorem forall_settle (last : Bool) (hnil : P []) (h : ∀ t ∈ done, P t) :
    ∀ t ∈ settle last done, P t := by
  unfold settle
  split
  · exact List.forall_mem_append.mpr ⟨h, List.forall_mem_singleton.mpr hnil⟩
  · exact h

theorem forall_place (last : Bool) (hnil : P []) (h : ∀ t ∈ done, P t)
    (hs : isDot s = false → isDoubleDot s = false → P s) : ∀ t ∈ place last done s, P t := by
  unfold place
  split
  · apply forall_settle last hnil
    unfold up
    split
    · exact h
    · exact fun t ht => h t (List.dropLast_subset _ ht)
  · rename_i hdouble
    split
    · exact forall_settle last hnil h
    · rename_i hdot
      have hP : P s := hs (by simpa using hdot) (by simpa using hdouble)
      exact List.forall_mem_append.mpr ⟨h, List.forall_mem_singleton.mpr hP⟩

/-- What holds of the empty segment and of all that are no dot segments holds of a resolved path. -/
theorem forall_resolve (hnil : P []) (h : ∀ t ∈ done, P t)
    (hs : ∀ t ∈ segs, isDot t = false → isDoubleDot t = false → P t) :
    ∀ t ∈ resolve done segs, P t := by
  fun_induction resolve done segs with
  | case1 done => exact h
  | case2 done s => exact forall_place true hnil h (hs s (by simp))
  | case3 done s rest hne ih =>
    exact ih (forall_place false hnil h (hs s (by simp)))
      (fun t ht => hs t (List.mem_cons_of_mem _ ht))

theorem resolve_of_clean (hs : ∀ t ∈ segs, Clean t) : resolve done segs = done ++ segs := by
  fun_induction resolve done segs with
  | case1 done => simp
  | case2 done s => exact place_of_clean true done (hs s (by simp))
  | case3 done s rest hne ih =>
    rw [place_of_clean false done (hs s (by simp))] at ih ⊢
    rw [ih (fun t ht => hs t (List.mem_cons_of_mem _ ht)), List.append_assoc]
    rfl

/-! ## Reading and writing -/

theorem isSlash_iff (hk : k.isSpecial = true) (c : Char) :
    k.isSlash c = true ↔ c = '/' ∨ c = '\\' := by
  simp [Kind.isSlash, hk]

theorem not_mem_splitOnP {α : Type} {p : α → Bool} {l t : List α} (ht : t ∈ l.splitOnP p) {a : α}
    (ha : a ∈ t) : p a = false := by
  induction l generalizing t with
  | nil =>
    rw [List.splitOnP_nil, List.mem_singleton] at ht
    simp [ht] at ha
  | cons x l ih =>
    rw [List.splitOnP_cons_eq_if_modifyHead] at ht
    split at ht
    · rcases List.mem_cons.mp ht with rfl | ht
      · simp at ha
      · exact ih ht ha
    · rename_i hx
      cases hl : l.splitOnP p with
      | nil => simp [hl] at ht
      | cons u us =>
        rw [hl, List.modifyHead_cons] at ht
        rcases List.mem_cons.mp ht with rfl | ht
        · rcases List.mem_cons.mp ha with rfl | ha
          · simpa using hx
          · exact ih (hl ▸ List.mem_cons_self) ha
        · exact ih (hl ▸ List.mem_cons_of_mem _ ht) ha

theorem not_isSlash_of_mem_split {t : List Char} (hs : s ∈ split k t) {c : Char} (hc : c ∈ s) :
    k.isSlash c = false := by
  unfold split at hs
  split at hs
  · exact not_mem_splitOnP hs hc
  · rw [List.mem_singleton] at hs
    simp [hs] at hc

theorem forall_clean_segments (hk : k.isSpecial = true) (t : List Char) :
    ∀ s ∈ segments k t, Clean s := by
  simp only [segments, hk, Bool.not_true, Bool.and_false, Bool.false_eq_true, if_false]
  apply forall_resolve clean_nil (by simp)
  intro s hs hdot hdouble
  refine ⟨?_, hdot, hdouble⟩
  obtain ⟨raw, hraw, rfl⟩ := List.mem_map.mp hs
  apply encoded_encode (List.Subset.refl _)
  intro c hc _
  have hslash := not_isSlash_of_mem_split hraw hc
  have hiff := isSlash_iff hk c
  rw [hslash] at hiff
  simpa using hiff

theorem split_text (hk : k.isSpecial = true) (hne : segs ≠ []) (h : ∀ t ∈ segs, Encoded t) :
    split k (text segs) = segs := by
  have hslash : k.isSlash '/' = true := (isSlash_iff hk _).mpr (.inl rfl)
  have hfree : ∀ t ∈ segs, ∀ c ∈ t, k.isSlash c = false := fun t ht c hc => by
    rw [Bool.eq_false_iff, ne_eq, isSlash_iff hk, not_or]
    exact (h t ht c hc).2
  cases segs with
  | nil => exact absurd rfl hne
  | cons s rest =>
    have hsplit : (s ++ text rest).splitOnP k.isSlash = s :: rest := by
      clear hne h
      induction rest generalizing s with
      | nil => simpa [text] using List.splitOnP_eq_singleton (hfree s (by simp))
      | cons r rest ih =>
        rw [show s ++ text (r :: rest) = s ++ '/' :: (r ++ text rest) from rfl,
          List.splitOnP_append_cons_of_forall_mem (hfree s (by simp)) '/' hslash,
          ih r (fun t ht => hfree t (List.mem_cons_of_mem _ ht))]
    change (if k.isSlash '/' = true then s ++ text rest else _).splitOnP _ = _
    rw [if_pos hslash, hsplit]

/-- Clean segments are read as they are written. -/
theorem segments_text (hk : k.isSpecial = true) (hne : segs ≠ []) (h : ∀ t ∈ segs, Clean t) :
    segments k (text segs) = segs := by
  have hencode : segs.map (encode pathMarks) = segs := by
    conv => rhs; rw [← List.map_id segs]
    exact List.map_congr_left fun t ht => (h t ht).encoded.encode_eq
  simp only [segments, hk, Bool.not_true, Bool.and_false, Bool.false_eq_true, if_false]
  rw [split_text hk hne (fun t ht => (h t ht).encoded), hencode, resolve_of_clean h,
    List.nil_append]

theorem text_append (segs more : List Segment) : text (segs ++ more) = text segs ++ text more :=
  List.flatMap_append

/-- Cutting the final slashes off a path takes its final empty segments away. -/
theorem dropEnd_text (h : ∀ t ∈ segs, Encoded t) :
    Text.dropEnd (· == '/') (text segs) = text (segs.rdropWhile List.isEmpty) := by
  induction segs using List.reverseRecOn with
  | nil => rfl
  | append_singleton segs s ih =>
    rw [text_append, show text [s] = '/' :: s by simp [text]]
    rcases List.eq_nil_or_concat s with rfl | ⟨r, c, rfl⟩
    · rw [List.rdropWhile_concat_pos _ _ _ rfl, ← ih (fun t ht => h t (by simp [ht]))]
      simp [Text.dropEnd]
    · rw [List.concat_eq_append] at h ⊢
      have hc : (c == '/') = false := by
        have := (h (r ++ [c]) (by simp) c (by simp)).2.1
        simpa using this
      rw [List.rdropWhile_concat_neg _ _ _ (by simp), text_append,
        show text segs ++ '/' :: (r ++ [c]) = (text segs ++ '/' :: r) ++ [c] by simp,
        Text.dropEnd_append_of_last (p := (· == '/')) hc]
      simp [text]

/-! ## Appending -/

theorem popEmpty_append (segs : List Segment) (h : s ≠ []) : popEmpty (segs ++ [s]) = segs ++ [s] := by
  simp [popEmpty, h]

/-- Appending to a path of the web places one encoded segment at its end. -/
theorem push_web (p : UInt16) {raw : List Char} (hempty : done ≠ []) (hroot : done ≠ [[]])
    (hraw : raw ≠ ['.'] ∧ raw ≠ ['.', '.']) :
    push (.web p) done raw = place true done (encode ('\\' :: segmentMarks) (dropTabs raw)) := by
  simp [push, hraw.1, hraw.2, hempty, hroot, finish, Kind.isSpecial]

end Path

/-! ## Addresses of the web -/

section

variable [DomainNames]

theorem kind_of_readForeign {scheme s : List Char} {u : Url} (h : readForeign scheme s = .ok u) :
    u.kind = Kind.ofScheme scheme := by
  unfold readForeign at h
  split at h
  · unfold readWithAuthority at h
    simp only [bind, Except.bind] at h
    split at h
    · cases h
    · cases h
      rfl
  · cases h
    rfl
  · cases h
    rfl

theorem kind_of_readFile {scheme s : List Char} {u : Url} (h : readFile scheme s = .ok u) :
    u.kind = Kind.ofScheme scheme := by
  unfold readFile at h
  simp only [bind, Except.bind] at h
  split at h
  · cases h
  · -- whatever its host and path are, a file address keeps its scheme
    repeat' split at h
    all_goals cases h; rfl

/-- The path of a web address that was read has clean segments. -/
theorem path_of_parse {s : List Char} {u : Url} {p : UInt16} (h : parse s = .ok u)
    (hk : u.kind = .web p) :
    ∃ segs, u.path = .hierarchical false segs ∧ ∀ t ∈ segs, Clean t := by
  unfold parse at h
  dsimp only at h
  split at h
  · cases h
  · rename_i scheme rest _
    split at h
    · rename_i port hscheme
      unfold readWithAuthority at h
      simp only [bind, Except.bind] at h
      split at h
      · cases h
      · cases h
        refine ⟨_, rfl, ?_⟩
        rw [hscheme]
        exact Path.forall_clean_segments rfl _
    · rename_i hscheme
      rw [kind_of_readFile h, hscheme] at hk
      cases hk
    · rename_i hscheme
      rw [kind_of_readForeign h, hscheme] at hk
      cases hk

end

end OneApi.Url
