import OneApi.Proofs.CountNumerals
import OneApi.Proofs.DocumentParts

/-! Scores that can be read. A value inside of a text has a text of its own, so what is read from it is
read from a spelled value: all scores of movies that are decoded are doubles that some number is read
as, though not all need be read from the numerals that they are written with. -/

namespace OneApi

open Json

/-! ## Texts inside of texts -/

theorem Json.Spells.of_put {s : List Char} {step : Around} {v : Json} (h : Spells s (step.put v)) :
    ∃ t, Spells t v := by
  obtain ⟨_, t, _, hcuts⟩ := @Spells.cut [step] s v h
  exact ⟨t, hcuts.spells⟩

theorem Json.SpellsDocument.exists_spells {s : List Char} {v : Json} (h : SpellsDocument s v) :
    ∃ t, Spells t v := by
  obtain ⟨_, hs⟩ := h
  exact ⟨_, hs⟩

theorem exists_spells_of_decode {α : Type} [Document α] {body : String} {a : α}
    (h : decode body = some a) : ∃ s v, Spells s v ∧ Document.ofJson v = some a := by
  obtain ⟨v, hparse, hread⟩ := Option.bind_eq_some_iff.mp h
  obtain ⟨s, hs⟩ := (parse_eq_some_iff.mp hparse).exists_spells
  exact ⟨s, v, hs, hread⟩

theorem Json.exists_put_of_mem {keys : List String} {v w : Json} {fs : Fields} {key : String}
    (hfs : fields? keys v = some fs) (hmem : (key, w) ∈ fs) : ∃ step : Around, v = step.put w := by
  cases v with
  | object ms =>
    obtain ⟨all, hall, _⟩ : ∃ all, named? ms = some all ∧ _ := Option.bind_eq_some_iff.mp hfs
    obtain rfl := named?_eq_some_iff.mp hall
    rw [fields?_object] at hfs
    split at hfs
    · cases hfs
      have hmember := mem_map_named.mpr (List.mem_of_mem_filter hmem)
      obtain ⟨before, after, hsplit⟩ := List.append_of_mem hmember
      exact ⟨.member before after (some key), congrArg Json.object hsplit⟩
    · cases hfs
  | array items =>
    obtain ⟨_, hfs⟩ := Option.ite_none_right_eq_some.mp hfs
    cases hfs
    obtain ⟨before, after, rfl⟩ := List.append_of_mem (List.of_mem_zip hmem).2
    exact ⟨.item before after, rfl⟩
  | null | bool | number | string => cases hfs

/-- A field of a value that was read has its default, or is read from a value that is spelled out. -/
theorem Json.ReadsFields.missing_or_spelled {α : Type} [Document α] {record : List (RecordField α)}
    (h : ReadsFields α record) {s : List Char} {v : Json} {a : α} (hs : Spells s v)
    (ha : Document.ofJson v = some a) {f : RecordField α} (hf : f ∈ record) :
    f.missing = some (f.get a) ∨ ∃ t w, Spells t w ∧ f.read w = some (f.get a) := by
  obtain ⟨fs, hfs, hfields⟩ := (h.ofJson_eq_some_iff v a).mp ha
  have hfield := hfields f hf
  unfold field at hfield
  cases hlookup : fs.lookup f.key with
  | none =>
    rw [hlookup] at hfield
    exact .inl hfield
  | some w =>
    rw [hlookup] at hfield
    obtain ⟨before, after, hsplit, _⟩ := List.lookup_eq_some_iff.mp hlookup
    have hmem : (f.key, w) ∈ fs := hsplit ▸ List.mem_append_right _ List.mem_cons_self
    obtain ⟨step, rfl⟩ := exists_put_of_mem hfs hmem
    obtain ⟨t, ht⟩ := hs.of_put
    exact .inr ⟨t, w, ht, hfield⟩

/-! ## Doubles -/

namespace Binary64

/-- Some number in a document is read as the double. -/
def Readable (x : Binary64) : Prop := ∃ n : Numeral, n.IsLiteral ∧ ofNumeral n = some x

theorem ReadsBack.readable {x : Binary64} (h : x.ReadsBack) : x.Readable :=
  ⟨_, x.isLiteral_numeral, h⟩

theorem readable_zero : zero.Readable :=
  (readsBack_of_short (by decide +kernel)).readable

theorem readable_of_real? {s : List Char} {v : Json} {x : Binary64} (hs : Spells s v)
    (h : real? v = some x) : x.Readable := by
  cases hs with
  | number hn => exact ⟨_, hn.isLiteral, h⟩
  | _ => cases h

/-- There is one numeral for each double that some number is read as. -/
theorem exists_numeral : ∃ numeral : Binary64 → Numeral, ∀ x : Binary64, x.Readable →
    (numeral x).IsLiteral ∧ ofNumeral (numeral x) = some x := by
  have hchoice (x : Binary64) : ∃ n : Numeral, x.Readable → n.IsLiteral ∧ ofNumeral n = some x := by
    by_cases h : x.Readable
    · obtain ⟨n, hn⟩ := h
      exact ⟨n, fun _ => hn⟩
    · exact ⟨.ofNat 0, fun hx => absurd hx h⟩
  exact Classical.skolem.mp hchoice

end Binary64

/-! ## Movies -/

namespace Movie

def ScoresReadable (m : Movie) : Prop := ∀ x ∈ m.scores, x.Readable

theorem scoresReadable_of_ofJson {s : List Char} {v : Json} {m : Movie} (hs : Spells s v)
    (h : ofJson v = some m) : m.ScoresReadable := by
  have hreal {key : String} {get : Movie → Binary64}
      (hf : ⟨key, some .zero, real?, get⟩ ∈ record) : (get m).Readable := by
    obtain hmissing | ⟨t, w, ht, hw⟩ := readsFields.missing_or_spelled hs h hf
    · have hzero : Binary64.zero = get m := Option.some.inj hmissing
      rw [← hzero]
      exact Binary64.readable_zero
    · exact Binary64.readable_of_real? ht hw
  have hbudget := @hreal "budgetInMillions" Movie.budgetInMillions (by simp [record])
  have hrevenue :=
    @hreal "boxOfficeRevenueInMillions" Movie.boxOfficeRevenueInMillions (by simp [record])
  have htomatoes := @hreal "rottenTomatoesScore" Movie.rottenTomatoesScore (by simp [record])
  simp [ScoresReadable, scores, hbudget, hrevenue, htomatoes]

theorem scoresReadable_of_decode {body : String} {m : Movie} (h : decode body = some m) :
    m.ScoresReadable := by
  obtain ⟨s, v, hs, hread⟩ := exists_spells_of_decode h
  exact scoresReadable_of_ofJson hs hread

end Movie

theorem Page.scoresReadable_of_decode {body : String} {p : Page Movie} (h : decode body = some p) :
    ∀ m ∈ p.items, m.ScoresReadable := by
  obtain ⟨s, v, hs, hread⟩ := exists_spells_of_decode h
  obtain hmissing | ⟨t, w, ht, hw⟩ :=
    (readsFields Movie).missing_or_spelled hs hread List.mem_cons_self
  · cases hmissing
  · obtain ⟨vs, rfl, hitems⟩ := forall₂_of_list? hw
    intro m hm
    obtain ⟨i, hi, rfl⟩ := List.getElem_of_mem hm
    have hlt : i < vs.length := hitems.length_eq ▸ hi
    obtain ⟨before, after, hsplit⟩ := List.append_of_mem (List.getElem_mem hlt)
    rw [hsplit] at ht
    obtain ⟨_, hspelled⟩ := @Spells.of_put t (.item before after) _ ht
    exact Movie.scoresReadable_of_ofJson hspelled (hitems.get hlt hi)

end OneApi
