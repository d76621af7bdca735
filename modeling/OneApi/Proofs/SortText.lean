import Mathlib.Data.List.Forall2
import OneApi.Direction
import OneApi.Proofs.PathSegments
import OneApi.Proofs.WrittenNumeral

/-! Texts of sort keys. Up to its first colon a text is a field, which loses the spaces around it;
what follows the colon must be a direction letter by letter, in small letters or capitals. A key is
read from exactly these texts, and is written as one of them. -/

namespace OneApi

/-! ## Spaces -/

/-- What is left of a text without the spaces around it. -/
structure Text.Core (s f : List Char) : Prop where
  around : ∃ l r, s = l ++ (f ++ r) ∧ (∀ c ∈ l, isSpace c = true) ∧ ∀ c ∈ r, isSpace c = true
  first : ∀ c ∈ f.head?, isSpace c = false
  last : ∀ c ∈ f.getLast?, isSpace c = false

namespace Text

theorem dropEnd_append_of_all {p : Char → Bool} {f r : List Char} (hr : ∀ c ∈ r, p c = true)
    (hf : ∀ c ∈ f.getLast?, p c = false) : dropEnd p (f ++ r) = f := by
  have hfront : ∀ c ∈ f.reverse.head?, p c = false := by
    rwa [List.head?_reverse]
  rw [dropEnd, List.reverse_append,
    List.dropWhile_append_of_pos fun c hc => hr c (List.mem_reverse.mp hc)]
  cases hrev : f.reverse with
  | nil => simpa using (List.reverse_eq_nil_iff.mp hrev).symm
  | cons c t =>
    rw [hrev] at hfront
    rw [List.dropWhile_cons_of_neg (by simp [hfront c rfl]), ← hrev, List.reverse_reverse]

theorem core_strip (s : List Char) : Core s (strip s) := by
  have hsplit : s.takeWhile isSpace ++ (strip s ++ (s.dropWhile isSpace).rtakeWhile isSpace) = s := by
    rw [show strip s = (s.dropWhile isSpace).rdropWhile isSpace from rfl,
      List.rdropWhile_append_rtakeWhile, List.takeWhile_append_dropWhile]
  refine ⟨⟨_, _, hsplit.symm, ?_, ?_⟩, ?_, ?_⟩
  · exact fun c hc => List.mem_takeWhile_imp hc
  · exact fun c hc => List.mem_rtakeWhile_imp hc
  · intro c hc
    obtain ⟨u, hu⟩ : strip s <+: s.dropWhile isSpace := List.rdropWhile_prefix isSpace _
    have hnot := List.head?_dropWhile_not isSpace s
    rw [← hu, List.head?_append, Option.mem_def.mp hc] at hnot
    exact hnot
  · intro c hc
    obtain ⟨hne, hlast⟩ := List.mem_getLast?_eq_getLast hc
    rw [hlast]
    exact Bool.eq_false_iff.mpr (List.rdropWhile_last_not isSpace (s.dropWhile isSpace) hne)

theorem Core.strip_eq {s f : List Char} (h : Core s f) : strip s = f := by
  obtain ⟨⟨l, r, rfl, hl, hr⟩, hfirst, hlast⟩ := h
  rw [strip, List.dropWhile_append_of_pos hl]
  cases f with
  | nil => rw [List.nil_append, (dropWhile_eq_nil isSpace r).mpr hr]; rfl
  | cons c f =>
    rw [List.cons_append, List.dropWhile_cons_of_neg (by simp [hfirst c rfl]), ← List.cons_append]
    exact dropEnd_append_of_all hr hlast

end Text

/-! ## Directions -/

/-- A text that spells a direction, each letter small or capital. -/
def Direction.Spells (t : List Char) (d : Direction) : Prop :=
  List.Forall₂ (fun c l => c = l ∨ c = l.toUpper) t d.name.toList

namespace Direction

/-- The letters of the names. -/
def letters : List Char := ['a', 'c', 'd', 'e', 's']

theorem toLower_eq_iff {c l : Char} (hl : l ∈ letters) :
    c.toLower = l ↔ c = l ∨ c = l.toUpper := by
  have hsmall : 97 ≤ l.toNat ∧ l.toUpper.toNat + 32 = l.toNat ∧ l.toLower = l ∧
      l.toUpper.toLower = l := by
    simp only [letters, List.mem_cons, List.not_mem_nil, or_false] at hl
    obtain rfl | rfl | rfl | rfl | rfl := hl <;> decide
  obtain ⟨hle, hupper, hlower, hback⟩ := hsmall
  constructor
  · rintro rfl
    have hn := Url.toNat_toLower c
    split at hn
    · refine .inr (Char.toNat_inj.mp ?_)
      omega
    · exact .inl (Char.toNat_inj.mp hn.symm)
  · rintro (rfl | rfl)
    · exact hlower
    · exact hback

theorem map_toLower_eq_iff {word : List Char} (hword : word ⊆ letters) (t : List Char) :
    t.map Char.toLower = word ↔ List.Forall₂ (fun c l => c = l ∨ c = l.toUpper) t word := by
  induction word generalizing t with
  | nil => simp
  | cons l word ih =>
    obtain ⟨hl, hword⟩ := List.cons_subset.mp hword
    cases t with
    | nil => simp
    | cons c t =>
      rw [List.map_cons, List.cons.injEq, toLower_eq_iff hl, ih hword, List.forall₂_cons]

theorem ofName?_eq_some_iff {s : String} {d : Direction} : ofName? s = some d ↔ s = d.name := by
  constructor
  · intro h
    unfold ofName? at h
    split at h
    · rename_i hs
      rw [hs, ← Option.some.inj h]
      rfl
    · split at h
      · rename_i hs
        rw [hs, ← Option.some.inj h]
        rfl
      · cases h
  · rintro rfl
    exact ofName?_name d

theorem ofName?_lower_iff {t : List Char} {d : Direction} :
    ofName? (String.ofList (t.map Char.toLower)) = some d ↔ d.Spells t := by
  have hword : d.name.toList ⊆ letters := by
    cases d <;> decide
  rw [ofName?_eq_some_iff, Spells, ← map_toLower_eq_iff hword, ← String.toList_inj,
    String.toList_ofList]

theorem spells_name (d : Direction) : d.Spells d.name.toList := by
  refine ofName?_lower_iff.mp ?_
  cases d <;> rfl

theorem read_of_spells {t : List Char} {d : Direction} (h : d.Spells t) :
    read (String.ofList t) = .ok d := by
  rw [read, String.toList_ofList, ofName?_lower_iff.mpr h]

theorem read_of_not_spells {t : List Char} (h : ∀ d : Direction, ¬ d.Spells t) :
    read (String.ofList t) = .error (.unknownDirection (String.ofList (t.map Char.toLower))) := by
  have hnone : ofName? (String.ofList (t.map Char.toLower)) = none :=
    Option.eq_none_iff_forall_ne_some.mpr fun d hd => h d (ofName?_lower_iff.mp hd)
  rw [read, String.toList_ofList, hnone]

end Direction

/-! ## Keys -/

namespace SortKey

/-- The texts of a key: a field, or a field, a colon and a direction. Without a direction the order
is ascending. -/
inductive Written : List Char → SortKey → Prop
  | field {g f : List Char} : ':' ∉ g → Text.Core g f → f ≠ [] →
    Written g ⟨String.ofList f, .ascending⟩
  | directed {g f t : List Char} {d : Direction} : ':' ∉ g → Text.Core g f → f ≠ [] → d.Spells t →
    Written (g ++ ':' :: t) ⟨String.ofList f, d⟩

/-- The texts that are no key, and what is reported. A field without a direction behind its colon is
not looked at. -/
inductive Refused : List Char → SortFault → Prop
  | direction {g t : List Char} : ':' ∉ g → (∀ d : Direction, ¬ d.Spells t) →
    Refused (g ++ ':' :: t) (.unknownDirection (String.ofList (t.map Char.toLower)))
  | field {g : List Char} : ':' ∉ g → (∀ c ∈ g, Text.isSpace c = true) → Refused g .emptyField
  | directedField {g t : List Char} {d : Direction} : ':' ∉ g → (∀ c ∈ g, Text.isSpace c = true) →
    d.Spells t → Refused (g ++ ':' :: t) .emptyField

/-- A field that is not blank, has no spaces around it and holds no colon. -/
structure Plain (k : SortKey) : Prop where
  not_blank : ∃ c ∈ k.field.toList, Text.isSpace c = false
  core : Text.Core k.field.toList k.field.toList
  no_colon : ':' ∉ k.field.toList

variable {g f t : List Char} {d : Direction} {k : SortKey} {s : String}

theorem withField_of_core (h : Text.Core g f) (hf : f ≠ []) (d : Direction) :
    withField g d = .ok ⟨String.ofList f, d⟩ := by
  have hblank : ¬ Text.isBlank g = true := by
    rwa [← Text.strip_eq_nil_iff, h.strip_eq]
  rw [withField, if_neg hblank, h.strip_eq]

theorem withField_of_blank (h : ∀ c ∈ g, Text.isSpace c = true) (d : Direction) :
    withField g d = .error .emptyField := by
  have hblank : Text.isBlank g = true := List.all_eq_true.mpr h
  rw [withField, if_pos hblank]

theorem read_of_not_mem (hs : s.toList = g) (h : ':' ∉ g) : read s = withField g .ascending := by
  have hspan : (g ++ []).span (· != ':') = (g, []) :=
    Text.span_append (fun c hc => bne_iff_ne.mpr fun he => h (he ▸ hc)) (by simp)
  rw [List.append_nil] at hspan
  rw [read, hs, hspan]

theorem read_of_colon (hs : s.toList = g ++ ':' :: t) (h : ':' ∉ g) :
    read s = (Direction.read (String.ofList t)).bind (withField g) := by
  have hspan : (g ++ ':' :: t).span (· != ':') = (g, ':' :: t) :=
    Text.span_append (fun c hc => bne_iff_ne.mpr fun he => h (he ▸ hc)) (by simp)
  rw [read, hs, hspan]
  rfl

theorem Written.read_eq (h : Written s.toList k) : read s = .ok k := by
  generalize hs : s.toList = text at h
  cases h with
  | field hg hcore hf => rw [read_of_not_mem hs hg, withField_of_core hcore hf]
  | directed hg hcore hf hd =>
    rw [read_of_colon hs hg, Direction.read_of_spells hd]
    exact withField_of_core hcore hf _

theorem Refused.read_eq {e : SortFault} (h : Refused s.toList e) : read s = .error e := by
  generalize hs : s.toList = text at h
  cases h with
  | direction hg ht => rw [read_of_colon hs hg, Direction.read_of_not_spells ht]; rfl
  | field hg hblank => rw [read_of_not_mem hs hg, withField_of_blank hblank]
  | directedField hg hblank hd =>
    rw [read_of_colon hs hg, Direction.read_of_spells hd]
    exact withField_of_blank hblank _

/-- Every text is written for a key or refused. -/
theorem written_or_refused (text : List Char) : (∃ k, Written text k) ∨ ∃ e, Refused text e := by
  have hfield (g : List Char) : (∃ f, Text.Core g f ∧ f ≠ []) ∨ ∀ c ∈ g, Text.isSpace c = true := by
    by_cases h : Text.strip g = []
    · exact .inr (List.all_eq_true.mp ((Text.strip_eq_nil_iff g).mp h))
    · exact .inl ⟨_, Text.core_strip g, h⟩
  by_cases hcolon : ':' ∈ text
  · obtain ⟨g, t, rfl, hg⟩ := List.eq_append_cons_of_mem hcolon
    by_cases hd : ∃ d : Direction, d.Spells t
    · obtain ⟨d, hd⟩ := hd
      obtain ⟨f, hcore, hf⟩ | hblank := hfield g
      · exact .inl ⟨_, .directed hg hcore hf hd⟩
      · exact .inr ⟨_, .directedField hg hblank hd⟩
    · exact .inr ⟨_, .direction hg (not_exists.mp hd)⟩
  · obtain ⟨f, hcore, hf⟩ | hblank := hfield text
    · exact .inl ⟨_, .field hcolon hcore hf⟩
    · exact .inr ⟨_, .field hcolon hblank⟩

theorem read_eq_ok_iff : read s = .ok k ↔ Written s.toList k := by
  constructor
  · intro h
    obtain ⟨k', hk⟩ | ⟨e, he⟩ := written_or_refused s.toList
    · cases h.symm.trans hk.read_eq
      exact hk
    · cases h.symm.trans he.read_eq
  · exact Written.read_eq

theorem read_eq_error_iff {e : SortFault} : read s = .error e ↔ Refused s.toList e := by
  constructor
  · intro h
    obtain ⟨k, hk⟩ | ⟨e', he⟩ := written_or_refused s.toList
    · cases h.symm.trans hk.read_eq
    · cases h.symm.trans he.read_eq
      exact he
  · exact Refused.read_eq

theorem plain_of_core (hg : ':' ∉ g) (h : Text.Core g f) (hf : f ≠ []) (d : Direction) :
    Plain ⟨String.ofList f, d⟩ := by
  obtain ⟨c, t, rfl⟩ := List.exists_cons_of_ne_nil hf
  refine ⟨?_, ?_, ?_⟩
  · exact ⟨c, by simp, h.first c rfl⟩
  · rw [String.toList_ofList]
    exact ⟨⟨[], [], by simp, by simp, by simp⟩, h.first, h.last⟩
  · rw [String.toList_ofList]
    obtain ⟨l, r, rfl, _⟩ := h.around
    exact fun hc => hg (List.mem_append_right l (List.mem_append_left r hc))

theorem Written.plain {text : List Char} (h : Written text k) : k.Plain := by
  cases h with
  | field hg hcore hf => exact plain_of_core hg hcore hf _
  | directed hg hcore hf _ => exact plain_of_core hg hcore hf _

theorem Plain.written_text (h : k.Plain) : Written k.text k := by
  obtain ⟨c, hc, _⟩ := h.not_blank
  have hwritten := Written.directed h.no_colon h.core (List.ne_nil_of_mem hc) k.direction.spells_name
  rwa [String.ofList_toList] at hwritten

/-- **Sort keys are read from exactly their texts.** A text without a colon is a field in ascending
order, and one with a colon is a field up to the first colon, and a direction behind it. Fields
that are read are plain, so the text of the key is read as the same key. A direction that is none is
reported before a field that is blank. -/
theorem read_exactly_written (s : String) :
    (∀ k, read s = .ok k ↔ Written s.toList k) ∧
    (∀ e, read s = .error e ↔ Refused s.toList e) ∧
    ∀ k, read s = .ok k → k.Plain ∧ read (String.ofList k.text) = .ok k := by
  refine ⟨fun k => read_eq_ok_iff, fun e => read_eq_error_iff, ?_⟩
  intro k hk
  have hplain := (read_eq_ok_iff.mp hk).plain
  refine ⟨hplain, read_eq_ok_iff.mpr ?_⟩
  rw [String.toList_ofList]
  exact hplain.written_text

end SortKey

end OneApi
