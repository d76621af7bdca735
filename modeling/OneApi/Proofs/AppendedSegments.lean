import OneApi.Proofs.ItemAddress

/-! Segments behind a collection. Whatever the scheme of a base is, a collection comes last in the path
of its address, and nothing that is appended takes it away again: each text becomes one more
segment, in which no delimiter is left and which decodes to that text. So an address at or below a
collection is a front that does not depend on the collection, the segments, and the query. -/

namespace OneApi

namespace Url

/-! ## Segments -/

/-- What is encoded in an appended segment. -/
def marksOf (k : Kind) : List Char := if k.isSpecial then '\\' :: segmentMarks else segmentMarks

/-- The segment that a text without tabs becomes. -/
def segmentOf (k : Kind) (raw : List Char) : Segment := encode (marksOf k) raw

/-- One segment, which reads as this text. -/
structure Spells (k : Kind) (s : Segment) (raw : List Char) : Prop where
  decoded : Text.percentDecode s = raw.flatMap String.utf8EncodeChar
  whole : ∀ c ∈ s, k.isSlash c = false ∧ c ≠ '?' ∧ c ≠ '#'
  not_dot : isDot s = false
  not_doubleDot : isDoubleDot s = false

/-- A text that can be appended as it is. -/
structure IsPlainName (raw : List Char) : Prop where
  ne_nil : raw ≠ []
  not_dot : raw ≠ ['.']
  not_doubleDot : raw ≠ ['.', '.']
  without_tabs : dropTabs raw = raw

variable {k : Kind} {raw : List Char}

theorem percent_mem_marksOf (k : Kind) : '%' ∈ marksOf k := by
  unfold marksOf
  split <;> decide

theorem keepExcept_percent (k : Kind) : keepExcept (marksOf k) '%' = false := by
  simp [keepExcept, percent_mem_marksOf k]

theorem segmentOf_injective (k : Kind) {other : List Char}
    (h : segmentOf k raw = segmentOf k other) : raw = other :=
  Text.percentEncode_injective (keepExcept_percent k) h

theorem segmentOf_ne_nil (k : Kind) (h : raw ≠ []) : segmentOf k raw ≠ [] :=
  fun he => h (segmentOf_injective k he)

theorem not_delimiter_of_keepExcept {c : Char} (h : keepExcept (marksOf k) c = true) :
    k.isSlash c = false ∧ c ≠ '?' ∧ c ≠ '#' := by
  unfold marksOf at h
  cases hk : k.isSpecial <;> rw [hk] at h <;>
    simp_all [keepExcept, segmentMarks, pathMarks, Kind.isSlash]

theorem spells_segmentOf (k : Kind) (h : IsPlainName raw) : Spells k (segmentOf k raw) raw := by
  have hdigit : ∀ n < 16, Text.hexDigit n ≠ '?' ∧ Text.hexDigit n ≠ '#' := by decide
  refine ⟨Text.percentDecode_percentEncode (keepExcept_percent k) raw, ?_, ?_, ?_⟩
  · intro c hc
    rcases Text.mem_percentEncode hc with ⟨hk, _⟩ | rfl | ⟨n, hn, rfl⟩
    · exact not_delimiter_of_keepExcept hk
    · simp [Kind.isSlash]
    · obtain ⟨_, hslash, hback⟩ := encoded_hexDigit n hn
      exact ⟨by simp [Kind.isSlash, hslash, hback], hdigit n hn⟩
  · exact Bool.eq_false_iff.mpr fun hd => h.not_dot (eq_of_isDot_encode (percent_mem_marksOf k) hd)
  · exact Bool.eq_false_iff.mpr fun hd =>
      h.not_doubleDot (eq_of_isDoubleDot_encode (percent_mem_marksOf k) hd)

/-! ## Paths -/

namespace Path

variable {segs front : List Segment} {name : Segment}

theorem dropEmpty_of_head (h : segs.head? ≠ some []) : dropEmpty segs = segs := by
  unfold dropEmpty
  split
  · simp at h
  · rfl

theorem dropEmpty_concat (front : List Segment) (hn : name ≠ []) :
    dropEmpty (front ++ [name]) = front.dropWhile List.isEmpty ++ [name] := by
  induction front with
  | nil => exact dropEmpty_of_head (by simpa using hn)
  | cons s rest ih =>
    cases s with
    | nil =>
      rw [List.dropWhile_cons_of_pos rfl, ← ih]
      cases rest <;> rfl
    | cons c t => exact dropEmpty_of_head (by simp)

/-- A drive letter is spelled anew in the first segment alone. -/
theorem spellDrive_cons (s : Segment) (rest : List Segment) :
    spellDrive (s :: rest) = spellDrive [s] ++ rest := by
  by_cases h : ∃ c, s = [c, '|']
  · obtain ⟨c, rfl⟩ := h
    simp only [spellDrive]
    split <;> rfl
  · have hkeep (more : List Segment) : spellDrive (s :: more) = s :: more := by
      unfold spellDrive
      split
      · rename_i c t he
        exact absurd ⟨c, (List.cons.inj he).1⟩ h
      · rfl
    rw [hkeep, hkeep]
    rfl

theorem spellDrive_concat (front : List Segment) (hn : isDriveLetter name = false) :
    spellDrive (front ++ [name]) = spellDrive front ++ [name] := by
  cases front with
  | nil =>
    unfold spellDrive
    split
    · rename_i c rest he
      obtain ⟨rfl, rfl⟩ : name = [c, '|'] ∧ rest = [] := by simpa using he
      have hc : c.isAlpha = false := by simpa [isDriveLetter] using hn
      simp [hc]
    · rfl
  | cons s rest =>
    rw [List.cons_append, spellDrive_cons, spellDrive_cons s rest, List.append_assoc]

theorem resolve_concat (done raws : List Segment) (s : Segment) :
    resolve done (raws ++ [s]) = place true (raws.foldl (place false) done) s := by
  induction raws generalizing done with
  | nil => rfl
  | cons r rest ih =>
    rw [List.foldl_cons, ← ih]
    cases rest <;> rfl

/-- A name behind a slash is split off, whatever stands before it. -/
theorem exists_split_concat (k : Kind) (front : List Char) : ∃ raws, ∀ name, Encoded name →
    split k (front ++ '/' :: name) = raws ++ [name] := by
  have hslash : k.isSlash '/' = true := by simp [Kind.isSlash]
  have hfree {name : Segment} (hn : Encoded name) : ∀ c ∈ name, k.isSlash c = false := by
    intro c hc
    obtain ⟨_, hfront, hback⟩ := hn c hc
    simp [Kind.isSlash, hfront, hback]
  have hlast (s : List Char) {name : Segment} (hn : Encoded name) :
      (s ++ '/' :: name).splitOnP k.isSlash = s.splitOnP k.isSlash ++ [name] := by
    rw [List.splitOnP_append_cons _ _ hslash, List.splitOnP_eq_singleton (hfree hn)]
  cases front with
  | nil =>
    -- the slash is the first one of the path, so no segment ends at it
    refine ⟨[], fun name hn => ?_⟩
    show (if k.isSlash '/' = true then name else _).splitOnP _ = _
    rw [if_pos hslash, List.splitOnP_eq_singleton (hfree hn), List.nil_append]
  | cons c t =>
    refine ⟨split k (c :: t), fun name hn => ?_⟩
    unfold split
    simp only [List.cons_append]
    split
    · exact hlast t hn
    · exact hlast (c :: t) hn

/-- Whatever stands before it, a clean name comes last. -/
theorem exists_segments_concat (k : Kind) (front : List Char) : ∃ segs, ∀ name, Clean name →
    segments k (front ++ '/' :: name) = segs ++ [name] := by
  obtain ⟨raws, hraws⟩ := exists_split_concat k front
  refine ⟨(raws.map (encode pathMarks)).foldl (place false) [], fun name hn => ?_⟩
  have hne : (front ++ '/' :: name).isEmpty = false := by simp
  rw [segments, hne, Bool.false_and, if_neg (by decide), hraws name hn.encoded,
    List.map_append, List.map_singleton, hn.encoded.encode_eq, resolve_concat,
    place_of_clean true _ hn]

/-- A path whose last segment has a name, and that a file address leaves as it is. -/
structure Settled (k : Kind) (segs : List Segment) : Prop where
  head : k = .file → segs.head? ≠ some []
  last : ∃ front name, segs = front ++ [name] ∧ name ≠ []

theorem Settled.finish_eq (h : Settled k segs) (more : List Segment) :
    finish k (segs ++ more) = segs ++ more := by
  obtain ⟨front, name, rfl, _⟩ := h.last
  unfold finish
  split
  · rename_i hk
    refine dropEmpty_of_head ?_
    have hhead := h.head hk
    cases front <;> simpa using hhead
  · rfl

/-- Segments are appended at the end, one for each text. -/
theorem Settled.push_eq (h : Settled k segs) (hraw : IsPlainName raw) :
    push k segs raw = segs ++ [segmentOf k raw] := by
  obtain ⟨front, name, rfl, hname⟩ := h.last
  have hspells := spells_segmentOf k hraw
  have hroot : ¬ ((front ++ [name]).isEmpty || front ++ [name] == [[]]) = true := by
    cases front <;> simp [hname]
  unfold push
  rw [hraw.without_tabs, if_neg (by simp [hraw.not_dot, hraw.not_doubleDot])]
  show (if _ then _ else finish k (place true _ (segmentOf k raw))) = _
  rw [if_neg hroot]
  have hplace (done : List Segment) :
      place true done (segmentOf k raw) = done ++ [segmentOf k raw] := by
    simp [place, hspells.not_dot, hspells.not_doubleDot]
  rw [hplace, h.finish_eq]

theorem Settled.concat (h : Settled k segs) (hname : name ≠ []) : Settled k (segs ++ [name]) := by
  refine ⟨fun hk => ?_, segs, name, rfl, hname⟩
  obtain ⟨front, last, rfl, _⟩ := h.last
  have hhead := h.head hk
  cases front <;> simpa using hhead

theorem Settled.foldl_push (h : Settled k segs) {raws : List (List Char)}
    (hraws : ∀ raw ∈ raws, IsPlainName raw) :
    raws.foldl (push k) segs = segs ++ raws.map (segmentOf k) := by
  induction raws generalizing segs with
  | nil => simp
  | cons raw rest ih =>
    have hraw := hraws raw List.mem_cons_self
    have hnext := h.concat (segmentOf_ne_nil k hraw.ne_nil)
    rw [List.foldl_cons, h.push_eq hraw, ih hnext fun r hr => hraws r (List.mem_cons_of_mem _ hr),
      List.map_cons, List.append_assoc, List.singleton_append]

theorem Settled.append_eq (h : Settled k segs) {raws : List (List Char)}
    (hraws : ∀ raw ∈ raws, IsPlainName raw) :
    append k segs raws = segs ++ raws.map (segmentOf k) := by
  obtain ⟨front, name, rfl, hname⟩ := h.last
  unfold append
  split
  · rename_i hempty
    simp [List.isEmpty_iff.mp hempty]
  · rw [popEmpty_append front hname, h.foldl_push hraws]

theorem exists_finishSpelled_concat (k : Kind) (front : List Segment) : ∃ done, ∀ name,
    isDriveLetter name = false → name ≠ [] →
      finishSpelled k (front ++ [name]) = done ++ [name] ∧ Settled k (done ++ [name]) := by
  by_cases hk : k = .file
  · refine ⟨(spellDrive front).dropWhile List.isEmpty, fun name hdrive hname => ?_⟩
    refine ⟨?_, ?_, _, name, rfl, hname⟩
    · simp only [finishSpelled, finish, if_pos hk]
      rw [spellDrive_concat front hdrive, dropEmpty_concat _ hname]
    · intro _
      have hhead := List.head?_dropWhile_not List.isEmpty (spellDrive front)
      cases hd : (spellDrive front).dropWhile List.isEmpty with
      | nil => simpa using hname
      | cons s rest =>
        intro hs
        obtain rfl : s = [] := Option.some.inj hs
        simp [hd] at hhead
  · refine ⟨front, fun name _ hname => ⟨?_, fun h => absurd h hk, front, name, rfl, hname⟩⟩
    simp only [finishSpelled, finish, if_neg hk]

end Path

/-! ## Addresses -/

/-- A name that stays what it is at the end of any path. -/
structure IsCollection (name : Segment) : Prop where
  clean : Clean name
  ne_nil : name ≠ []
  not_drive : isDriveLetter name = false

theorem exists_withPath {base : Url} {guarded : Bool} {segs : List Segment}
    (hp : base.path = .hierarchical guarded segs) : ∃ front, ∀ name, IsCollection name →
      base.withPath ('/' :: name) = { base with path := .hierarchical guarded (front ++ [name]) } ∧
      Path.Settled base.kind (front ++ [name]) := by
  obtain ⟨raw, hraw⟩ := Path.exists_segments_concat base.kind
    (dropTabs (Text.dropEnd (· == '/') (Path.text segs)))
  obtain ⟨front, hfront⟩ := Path.exists_finishSpelled_concat base.kind raw
  refine ⟨front, fun name hname => ?_⟩
  obtain ⟨hfinish, hsettled⟩ := hfront name hname.not_drive hname.ne_nil
  refine ⟨?_, hsettled⟩
  have hjoined : dropTabs (joinedPath segs ('/' :: name)) =
      dropTabs (Text.dropEnd (· == '/') (Path.text segs)) ++ '/' :: name := by
    have hkept : dropTabs ('/' :: name) = '/' :: name := by
      have hencoded : ∀ t ∈ [name], Encoded t := List.forall_mem_singleton.mpr hname.clean.encoded
      simpa [Path.text] using dropTabs_text hencoded
    rw [joinedPath, List.dropWhile_cons_of_pos rfl, hname.clean.encoded.dropWhile_eq,
      dropTabs_append, hkept]
  unfold withPath
  rw [hp]
  simp only [hjoined]
  rw [hraw name hname.clean, hfinish]

/-- What comes before the collection in all addresses at and below one. -/
def Fronts (base : Url) (front : List Char) : Prop :=
  ∀ name, IsCollection name → ∀ raws, (∀ raw ∈ raws, IsPlainName raw) → ∀ query,
    (base.endpoint ('/' :: name) raws query).text =
      front ++ '/' :: name ++ Path.text (raws.map (segmentOf base.kind)) ++
        marked '?' (base.withQuery query).query

theorem exists_fronts {base : Url} {guarded : Bool} {segs : List Segment}
    (hp : base.path = .hierarchical guarded segs) : ∃ front, base.Fronts front := by
  obtain ⟨front, hfront⟩ := exists_withPath hp
  refine ⟨base.origin ++ (Url.Path.hierarchical guarded front).written, ?_⟩
  intro name hname raws hraws query
  obtain ⟨hwith, hsettled⟩ := hfront name hname
  have hendpoint : base.endpoint ('/' :: name) raws query =
      { base with
        path := .hierarchical guarded (front ++ [name] ++ raws.map (segmentOf base.kind))
        query := (base.withQuery query).query
        fragment := none } := by
    unfold endpoint
    rw [hwith, ← hsettled.append_eq hraws]
    rfl
  rw [hendpoint]
  unfold text
  simp [origin, Url.Path.written, Path.text, marked]

end Url

end OneApi
