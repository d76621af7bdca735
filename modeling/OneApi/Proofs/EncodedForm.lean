import OneApi.Proofs.PathSegments
import OneApi.Proofs.RawText

/-! Forms inside addresses. An address percent-encodes characters of its query, but keeps the marks
of forms and of escapes. So a server reads the same pairs from the query of an address as from the
text that was put there, apart from the tabs and line ends that are dropped. -/

namespace OneApi.Text

/-- Keeps everything that means something in a form. -/
structure KeepsForm (keep : Char → Bool) : Prop where
  percent : keep '%' = true
  plus : keep '+' = true
  equals : keep '=' = true
  ampersand : keep '&' = true
  hex : ∀ c, isHex c = true → keep c = true

variable {keep : Char → Bool}

theorem percentEncode_cons (c : Char) (s : List Char) :
    percentEncode keep (c :: s) = (if keep c then [c] else escapeChar c) ++ percentEncode keep s :=
  List.flatMap_cons

theorem percentEncode_cons_of_keep {c : Char} (h : keep c = true) (s : List Char) :
    percentEncode keep (c :: s) = c :: percentEncode keep s := by
  rw [percentEncode_cons, if_pos h, List.singleton_append]

theorem exists_escapeChar (c : Char) : ∃ t, escapeChar c = '%' :: t := by
  have hlength := String.length_utf8EncodeChar c
  have hpos := c.utf8Size_pos
  unfold escapeChar
  cases hbytes : String.utf8EncodeChar c with
  | nil =>
    rw [hbytes, List.length_nil] at hlength
    omega
  | cons b bs => exact ⟨_, rfl⟩

/-! ## Escapes -/

theorem startsHex_cons (c : Char) (s : List Char) :
    startsHex (c :: s) = (isHex c && s.head?.any isHex) := by
  cases s <;> simp [startsHex]

theorem any_isHex_head?_percentEncode (hk : KeepsForm keep) (s : List Char) :
    (percentEncode keep s).head?.any isHex = s.head?.any isHex := by
  cases s with
  | nil => rfl
  | cons c s =>
    by_cases hc : keep c = true
    · rw [percentEncode_cons_of_keep hc]
      rfl
    · have hhex : isHex c = false := Bool.eq_false_iff.mpr fun h => hc (hk.hex c h)
      have hpercent : isHex '%' = false := by decide
      obtain ⟨t, ht⟩ := exists_escapeChar c
      rw [percentEncode_cons, if_neg hc, ht]
      simp [hhex, hpercent]

/-- Encoding makes no escape of a percent sign that was none. -/
theorem startsHex_percentEncode (hk : KeepsForm keep) (s : List Char) :
    startsHex (percentEncode keep s) = startsHex s := by
  cases s with
  | nil => rfl
  | cons c s =>
    by_cases hc : keep c = true
    · rw [percentEncode_cons_of_keep hc, startsHex_cons, startsHex_cons,
        any_isHex_head?_percentEncode hk]
    · have hhex : isHex c = false := Bool.eq_false_iff.mpr fun h => hc (hk.hex c h)
      have hpercent : isHex '%' = false := by decide
      obtain ⟨t, ht⟩ := exists_escapeChar c
      rw [percentEncode_cons, if_neg hc, ht, List.cons_append, startsHex_cons, startsHex_cons, hhex,
        hpercent, Bool.false_and, Bool.false_and]

theorem plusToSpace_of_isHex {c : Char} (h : isHex c = true) : plusToSpace c = c := by
  refine plusToSpace_of_ne ?_
  rintro rfl
  revert h
  decide

/-- The bytes of a text are those of the encoded text. -/
theorem percentDecode_plus_percentEncode (hk : KeepsForm keep) (s : List Char) :
    percentDecode ((percentEncode keep s).map plusToSpace) = percentDecode (s.map plusToSpace) := by
  have hmark : plusToSpace '%' = '%' := by decide
  induction s using escape_induction with
  | nil => rfl
  | escape a b s x y ha hb ih =>
    have hhexa := isHex_of_eq_some ha
    have hhexb := isHex_of_eq_some hb
    simp only [percentEncode_cons_of_keep hk.percent, percentEncode_cons_of_keep (hk.hex a hhexa),
      percentEncode_cons_of_keep (hk.hex b hhexb), List.map_cons, plusToSpace_of_isHex hhexa,
      plusToSpace_of_isHex hhexb, hmark, percentDecode_escape ha hb, ih]
  | percent s hs ih =>
    have hplain : startsHex (s.map plusToSpace) = false := by
      rw [startsHex_map_plusToSpace, hs]
    have hencoded : startsHex ((percentEncode keep s).map plusToSpace) = false := by
      rw [startsHex_map_plusToSpace, startsHex_percentEncode hk, hs]
    rw [percentEncode_cons_of_keep hk.percent, List.map_cons, List.map_cons, hmark,
      percentDecode_percent hencoded, percentDecode_percent hplain, ih]
  | other c s hc ih =>
    have hne : plusToSpace c ≠ '%' := fun h => hc (plusToSpace_eq_percent.mp h)
    rw [List.map_cons, percentDecode_cons_of_ne hne, ← ih]
    by_cases hkeep : keep c = true
    · rw [percentEncode_cons_of_keep hkeep, List.map_cons, percentDecode_cons_of_ne hne]
    · have hplus : c ≠ '+' := fun h => hkeep (h ▸ hk.plus)
      rw [percentEncode_cons, if_neg hkeep, percentDecode_plus_escapeChar, plusToSpace_of_ne hplus]

theorem formDecode_percentEncode (hk : KeepsForm keep) (s : List Char) :
    formDecode (percentEncode keep s) = formDecode s := by
  rw [formDecode, formDecode, percentDecode_plus_percentEncode hk]

/-! ## Pairs -/

theorem formPair_append {name : List Char} (h : '=' ∉ name) (value : List Char) :
    formPair (name ++ '=' :: value) =
      (String.ofList (formDecode name), String.ofList (formDecode value)) := by
  have hname := bne_of_not_mem h
  rw [formPair, List.span_eq_takeWhile_dropWhile, List.takeWhile_append_of_pos hname,
    List.dropWhile_append_of_pos hname]
  simp

theorem formPair_of_not_mem {s : List Char} (h : '=' ∉ s) :
    formPair s = (String.ofList (formDecode s), "") := by
  have hname := bne_of_not_mem h
  have hdrop : s.dropWhile (· != '=') = [] := (dropWhile_eq_nil _ s).mpr hname
  rw [formPair, List.span_eq_takeWhile_dropWhile, takeWhile_eq_self hname, hdrop]
  rfl

theorem not_mem_percentEncode {c : Char} (hc : c ≠ '%') (hx : isHex c = false) {s : List Char}
    (h : c ∉ s) : c ∉ percentEncode keep s := by
  intro hmem
  rcases mem_percentEncode hmem with ⟨_, hs⟩ | hpercent | ⟨n, hn, hdigit⟩
  · exact h hs
  · exact hc hpercent
  · rw [hdigit, isHex_of_eq_some (hexValue_hexDigit n hn)] at hx
    contradiction

theorem formPair_percentEncode (hk : KeepsForm keep) (s : List Char) :
    formPair (percentEncode keep s) = formPair s := by
  have hnot {s : List Char} (h : '=' ∉ s) : '=' ∉ percentEncode keep s :=
    not_mem_percentEncode (by decide) (by decide) h
  by_cases h : '=' ∈ s
  · obtain ⟨name, value, rfl, hname⟩ := List.eq_append_cons_of_mem h
    rw [percentEncode_append, percentEncode_cons_of_keep hk.equals, formPair_append (hnot hname),
      formPair_append hname, formDecode_percentEncode hk, formDecode_percentEncode hk]
  · rw [formPair_of_not_mem (hnot h), formPair_of_not_mem h, formDecode_percentEncode hk]

theorem percentEncode_intercalate {c : Char} (hc : keep c = true) (parts : List (List Char)) :
    percentEncode keep (List.intercalate [c] parts) =
      List.intercalate [c] (parts.map (percentEncode keep)) := by
  induction parts with
  | nil => rfl
  | cons part parts ih =>
    cases parts with
    | nil => simp
    | cons next parts =>
      rw [List.map_cons] at ih
      rw [List.map_cons, List.map_cons, List.intercalate_cons_cons, List.intercalate_cons_cons,
        percentEncode_append, percentEncode_append, ih, percentEncode_cons_of_keep hc]
      rfl

theorem splitOn_percentEncode (hk : KeepsForm keep) (s : List Char) :
    (percentEncode keep s).splitOn '&' = (s.splitOn '&').map (percentEncode keep) := by
  have hparts : ∀ part ∈ (s.splitOn '&').map (percentEncode keep), '&' ∉ part := by
    intro part hpart
    obtain ⟨plain, hplain, rfl⟩ := List.mem_map.mp hpart
    rw [List.splitOn_eq_splitOnP] at hplain
    refine not_mem_percentEncode (by decide) (by decide) fun h => ?_
    have := Url.Path.not_mem_splitOnP hplain h
    contradiction
  have hne : (s.splitOn '&').map (percentEncode keep) ≠ [] := by
    rw [ne_eq, List.map_eq_nil_iff, List.splitOn_eq_splitOnP]
    exact List.splitOnP_ne_nil _ _
  have hjoined : percentEncode keep s =
      List.intercalate ['&'] ((s.splitOn '&').map (percentEncode keep)) := by
    rw [← percentEncode_intercalate hk.ampersand, List.intercalate_splitOn]
  conv_lhs => rw [hjoined]
  exact List.splitOn_intercalate '&' hparts hne

theorem percentEncode_eq_nil {s : List Char} : percentEncode keep s = [] ↔ s = [] := by
  cases s with
  | nil => simp [percentEncode]
  | cons c s =>
    obtain ⟨t, ht⟩ := exists_escapeChar c
    rw [percentEncode_cons]
    split <;> simp [ht]

/-- **Encoding a query leaves its pairs alone.** -/
theorem formPairs_percentEncode (hk : KeepsForm keep) (s : List Char) :
    formPairs (percentEncode keep s) = formPairs s := by
  have hempty : (fun pair : List Char => !pair.isEmpty) ∘ percentEncode keep =
      fun pair => !pair.isEmpty := by
    funext pair
    rw [Function.comp_apply, Bool.eq_iff_iff]
    simp [percentEncode_eq_nil]
  have hpair : formPair ∘ percentEncode keep = formPair := funext (formPair_percentEncode hk)
  rw [formPairs, splitOn_percentEncode hk, List.filter_map, List.map_map, hempty, hpair, formPairs]

theorem formPairs_intercalate {parts : List (List Char)}
    (h : ∀ part ∈ parts, '&' ∉ part ∧ part ≠ []) :
    formPairs (List.intercalate ['&'] parts) = parts.map formPair := by
  by_cases hne : parts = []
  · subst hne
    rfl
  · have hsplit := List.splitOn_intercalate '&' (fun part hpart => (h part hpart).1) hne
    have hkept : parts.filter (fun pair => !pair.isEmpty) = parts :=
      List.filter_eq_self.mpr fun part hpart => by simpa using (h part hpart).2
    rw [formPairs, hsplit, hkept]

/-- The first pair is what stands in front of the first ampersand. -/
theorem head?_formPairs {s : List Char} (h : s.takeWhile (· != '&') ≠ []) :
    (formPairs s).head? = some (formPair (s.takeWhile (· != '&'))) := by
  have hseparator {s : List Char} (hs : '&' ∉ s) : ∀ c ∈ s, (c == '&') = false := fun c hc => by
    simpa using bne_of_not_mem hs c hc
  by_cases hs : '&' ∈ s
  · obtain ⟨first, rest, rfl, hfirst⟩ := List.eq_append_cons_of_mem hs
    have htake : (first ++ '&' :: rest).takeWhile (· != '&') = first := by
      rw [List.takeWhile_append_of_pos (bne_of_not_mem hfirst)]
      simp
    rw [htake] at h ⊢
    rw [formPairs, List.splitOn_eq_splitOnP,
      List.splitOnP_append_cons_of_forall_mem (hseparator hfirst) '&' (by decide)]
    simp [h]
  · rw [takeWhile_eq_self (bne_of_not_mem hs)] at h ⊢
    rw [formPairs, List.splitOn_eq_splitOnP, List.splitOnP_eq_singleton (hseparator hs)]
    simp [h]

/-! ## Queries made of pairs -/

/-- A name that can stand before an equals sign. -/
structure IsKey (name : List Char) : Prop where
  verbatim : Verbatim name
  equals : '=' ∉ name

instance (name : List Char) : Decidable (IsKey name) :=
  decidable_of_iff (Verbatim name ∧ name.contains '=' = false)
    ⟨fun h => ⟨h.1, by simpa using h.2⟩, fun h => ⟨h.verbatim, by simpa using h.equals⟩⟩

/-- A fragment that stays whole in a query. -/
structure Whole (part : List Char) : Prop where
  chars : ∀ c ∈ part, c ≠ '&' ∧ Url.isTabOrNewline c = false
  nonempty : part ≠ []

theorem IsKey.formPair_eq {name : List Char} (h : IsKey name) (value : List Char) :
    formPair (name ++ '=' :: value) = (String.ofList name, String.ofList (formDecode value)) := by
  rw [formPair_append h.equals, h.verbatim.formDecode_eq]

theorem IsKey.whole {name value : List Char} (h : IsKey name)
    (hv : ∀ c ∈ value, c ≠ '&' ∧ Url.isTabOrNewline c = false) : Whole (name ++ '=' :: value) := by
  refine ⟨?_, by simp⟩
  refine List.forall_mem_append.mpr ⟨fun c hc => ?_, List.forall_mem_cons.mpr ⟨by decide, hv⟩⟩
  exact ⟨(h.verbatim.chars c hc).1, (h.verbatim.chars c hc).2.2⟩

theorem Verbatim.whole {name value : List Char} (hn : IsKey name) (hv : Verbatim value) :
    Whole (name ++ '=' :: value) :=
  hn.whole fun c hc => ⟨(hv.chars c hc).1, (hv.chars c hc).2.2⟩

theorem whole_formEncode {name : List Char} (hn : IsKey name) (value : List Char) :
    Whole (name ++ '=' :: formEncode value) := by
  refine hn.whole fun c hc => ?_
  rcases mem_formEncode hc with hsafe | rfl | rfl
  · refine ⟨?_, isTabOrNewline_of_isFormSafe hsafe⟩
    rintro rfl
    revert hsafe
    decide
  · decide
  · decide

theorem formPairs_of_whole {parts : List (List Char)} (h : ∀ part ∈ parts, Whole part) :
    formPairs (Url.dropTabs (List.intercalate ['&'] parts)) = parts.map formPair := by
  have htabs : (List.intercalate ['&'] parts).all (fun c => !Url.isTabOrNewline c) = true := by
    refine all_intercalate (by decide) fun part hpart => List.all_eq_true.mpr fun c hc => ?_
    rw [((h part hpart).chars c hc).2]
    rfl
  rw [Url.dropTabs, List.filter_eq_self.mpr (List.all_eq_true.mp htabs)]
  exact formPairs_intercalate fun part hpart =>
    ⟨fun hc => ((h part hpart).chars _ hc).1 rfl, (h part hpart).nonempty⟩

theorem takeWhile_intercalate (part : List Char) (parts : List (List Char)) :
    (Url.dropTabs (List.intercalate ['&'] (part :: parts))).takeWhile (· != '&') =
      (Url.dropTabs part).takeWhile (· != '&') := by
  have hstop (s t : List Char) : (s ++ '&' :: t).takeWhile (· != '&') = s.takeWhile (· != '&') := by
    induction s with
    | nil => simp
    | cons c s ih => rw [List.cons_append, List.takeWhile_cons, List.takeWhile_cons, ih]
  cases parts with
  | nil => simp
  | cons next parts =>
    have hmark : Url.dropTabs ['&'] = ['&'] := by decide
    rw [List.intercalate_cons_cons, List.append_assoc, Url.dropTabs_append, Url.dropTabs_append,
      hmark]
    exact hstop _ _

/-- A raw value in front of other fragments is read as it was written only if it is verbatim. -/
theorem formPairs_raw_iff {name raw : List Char} {parts : List (List Char)} (hn : IsKey name)
    (h : ∀ part ∈ parts, Whole part) :
    formPairs (Url.dropTabs (List.intercalate ['&'] ((name ++ '=' :: raw) :: parts))) =
      (String.ofList name, String.ofList raw) :: parts.map formPair ↔ Verbatim raw := by
  constructor
  · intro hpairs
    have hfront : (Url.dropTabs (name ++ '=' :: raw)).takeWhile (· != '&') =
        name ++ '=' :: (Url.dropTabs raw).takeWhile (· != '&') := by
      have hequals : Url.dropTabs ('=' :: raw) = '=' :: Url.dropTabs raw :=
        List.filter_cons_of_pos (by decide)
      rw [Url.dropTabs_append, hn.verbatim.dropTabs_eq, hequals,
        List.takeWhile_append_of_pos hn.verbatim.ne_ampersand,
        List.takeWhile_cons_of_pos (by decide)]
    have hhead := congrArg List.head? hpairs
    rw [head?_formPairs (by rw [takeWhile_intercalate, hfront]; simp), takeWhile_intercalate,
      hfront, hn.formPair_eq, List.head?_cons] at hhead
    have hvalue := congrArg Prod.snd (Option.some.inj hhead)
    exact (verbatim_iff raw).mpr (String.ofList_injective hvalue)
  · intro hraw
    rw [formPairs_of_whole (List.forall_mem_cons.mpr ⟨Verbatim.whole hn hraw, h⟩), List.map_cons,
      hn.formPair_eq, hraw.formDecode_eq]

/-- The same for a raw value that may be missing. -/
theorem formPairs_raw?_iff {name : List Char} (raw : Option (List Char)) {parts : List (List Char)}
    (hn : IsKey name) (h : ∀ part ∈ parts, Whole part) :
    formPairs (Url.dropTabs (List.intercalate ['&']
        ((raw.toList.map fun r => name ++ '=' :: r) ++ parts))) =
      (raw.toList.map fun r => (String.ofList name, String.ofList r)) ++ parts.map formPair ↔
    ∀ r ∈ raw, Verbatim r := by
  cases raw with
  | none => simpa using formPairs_of_whole h
  | some r => simpa using formPairs_raw_iff hn h

end OneApi.Text
