/-! White space of Unicode texts. A character is a space when it has the property White_Space;
trimming takes spaces off both ends and nothing else, so trimming twice is trimming once and a
text is blank exactly when nothing is left of it. -/

namespace OneApi.Text

def isSpace (c : Char) : Bool :=
  let n := c.toNat
  (0x9 ≤ n && n ≤ 0xd) || n == 0x20 || n == 0x85 || n == 0xa0 || n == 0x1680 ||
    (0x2000 ≤ n && n ≤ 0x200a) || n == 0x2028 || n == 0x2029 || n == 0x202f || n == 0x205f ||
    n == 0x3000

def dropEnd (p : Char → Bool) (s : List Char) : List Char := (s.reverse.dropWhile p).reverse

def strip (s : List Char) : List Char := dropEnd isSpace (s.dropWhile isSpace)

def isBlank (s : List Char) : Bool := s.all isSpace

def trim (s : String) : String := String.ofList (strip s.toList)

theorem dropWhile_eq_nil (p : Char → Bool) (s : List Char) :
    s.dropWhile p = [] ↔ ∀ c ∈ s, p c = true := by
  induction s with
  | nil => simp
  | cons c s ih => cases h : p c <;> simp [h, ih]

theorem dropEnd_eq_nil_iff (p : Char → Bool) (s : List Char) :
    dropEnd p s = [] ↔ ∀ c ∈ s, p c = true := by
  rw [dropEnd, List.reverse_eq_nil_iff, dropWhile_eq_nil]
  simp only [List.mem_reverse]

theorem dropEnd_append_of_last {p : Char → Bool} {c : Char} (h : p c = false) (s : List Char) :
    dropEnd p (s ++ [c]) = s ++ [c] := by
  simp [dropEnd, h]

theorem exists_eq_append_of_dropEnd_ne_nil {p : Char → Bool} {s : List Char}
    (h : dropEnd p s ≠ []) : ∃ r c, dropEnd p s = r ++ [c] ∧ p c = false := by
  unfold dropEnd at h ⊢
  cases hd : s.reverse.dropWhile p with
  | nil => simp [hd] at h
  | cons c r =>
    refine ⟨r.reverse, c, by simp, ?_⟩
    have := List.head?_dropWhile_not p s.reverse
    simpa [hd] using this

theorem strip_eq_nil_iff (s : List Char) : strip s = [] ↔ isBlank s = true := by
  rw [strip, dropEnd_eq_nil_iff, isBlank, List.all_eq_true]
  constructor
  · intro h c hc
    rw [← List.takeWhile_append_dropWhile (p := isSpace) (l := s)] at hc
    rcases List.mem_append.mp hc with hc | hc
    · exact List.all_eq_true.mp List.all_takeWhile c hc
    · exact h c hc
  · intro h c hc
    exact h c (List.dropWhile_subset _ hc)

theorem strip_strip (s : List Char) : strip (strip s) = strip s := by
  by_cases h : strip s = []
  · rw [h]; rfl
  · obtain ⟨r, c, he, hc⟩ := exists_eq_append_of_dropEnd_ne_nil (s := s.dropWhile isSpace) h
    have hd : strip s = r ++ [c] := he
    have hw : (r ++ [c]).dropWhile isSpace = r ++ [c] := by
      have hnot := List.head?_dropWhile_not isSpace s
      cases hs : s.dropWhile isSpace with
      | nil => simp [strip, hs, dropEnd] at h
      | cons d t =>
        rw [hs] at hnot he
        simp only [List.head?_cons] at hnot
        cases r with
        | nil => simp [hc]
        | cons e r =>
          have hp : (e :: r) ++ [c] <+: d :: t := by
            rw [← he]
            unfold dropEnd
            rw [← List.reverse_suffix]
            simpa using List.dropWhile_suffix _
          have : e = d := by
            obtain ⟨u, hu⟩ := hp
            simp at hu
            exact hu.1
          simp [this, hnot]
    rw [hd, strip, hw, dropEnd_append_of_last hc]

theorem trim_trim (s : String) : trim (trim s) = trim s := by
  rw [trim, trim, String.toList_ofList, strip_strip]

theorem isBlank_trim (s : String) : isBlank (trim s).toList = isBlank s.toList := by
  rw [Bool.eq_iff_iff, ← strip_eq_nil_iff, ← strip_eq_nil_iff, trim, String.toList_ofList,
    strip_strip]

end OneApi.Text
