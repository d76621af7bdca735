import OneApi.Proofs.IdCalls
import OneApi.Proofs.ReadScores

/-! Counts in documents. Wherever a number stands for a count, its text decides: the digits of a number
of the width are decoded as this number, and nothing else that is read changes with them; with any
other number the whole document is refused. -/

namespace OneApi

open Json

/-- What is decoded from documents with a number at a place, of which a part is this number. -/
structure DecodesCount {α W : Type} [Document α] (width : Width W) (place : Place)
    (part : Component α W) : Prop where
  /-- Every text of such a document is the text of the number between two others. -/
  cut {s : String} {n : Numeral} : SpellsDocument s.toList (place.put (.number n)) →
    ∃ gap : Gap place, ∃ literal, n.Spells literal ∧ s = gap.fill literal
  /-- When a zero is decoded there, so are the digits of each count of the width, and no more. -/
  isSome_iff (gap : Gap place) {literal : List Char} {n : Numeral} : n.Spells literal →
    ((decode (gap.fill literal) : Option α).isSome = true ↔
      (decode (gap.fill ['0']) : Option α).isSome = true ∧
        ∃ v, Text.IsDecimal literal v ∧ v < width.size)
  exact (gap : Gap place) {literal : List Char} {n : Numeral} {a : α} : n.Spells literal →
    decode (gap.fill literal) = some a →
    ∃ w, part.get? a = some w ∧ Text.IsDecimal literal (width.toNat w)
  /-- Nothing else that is decoded depends on the number. -/
  rest (gap : Gap place) {literal : List Char} {v : Nat} : Text.IsDecimal literal v →
    v < width.size → (decode (gap.fill literal) : Option α) =
      (decode (gap.fill ['0'])).map (part.put (width.ofNat v))
  refused (gap : Gap place) {literal : List Char} {n : Numeral} : n.Spells literal →
    n.NoCount width.size → (decode (gap.fill literal) : Option α) = none
  count_or_noCount {literal : List Char} {n : Numeral} : n.Spells literal →
    (∃ v, Text.IsDecimal literal v ∧ v < width.size) ∨ n.NoCount width.size

section

variable {α W : Type} [Document α] {width : Width W} {place : Place} {part : Component α W}

theorem Json.exists_gap_number {s : String} {n : Numeral}
    (h : SpellsDocument s.toList (place.put (.number n))) :
    ∃ gap : Gap place, ∃ literal, n.Spells literal ∧ s = gap.fill literal := by
  obtain ⟨gap, literal, hspells, hs⟩ := exists_gap h
  cases hspells with
  | number hn => exact ⟨gap, literal, hn, hs⟩

theorem Json.Gap.decode_number (gap : Gap place) {literal : List Char} {n : Numeral}
    (h : n.Spells literal) :
    (decode (gap.fill literal) : Option α) = Document.ofJson (place.put (.number n)) := by
  refine decode_of_spells ?_
  rw [Gap.fill, String.toList_ofList]
  exact gap.spells (.number h)

theorem ReadsPart.eq_ofNat (h : ReadsPart Document.ofJson place width.count? part) (gap : Gap place)
    {literal : List Char} {n : Numeral} (hn : n.Spells literal) {a : α}
    (ha : decode (gap.fill literal) = some a) :
    ∃ w, part.get? a = some w ∧ n = .ofNat (width.toNat w) := by
  rw [gap.decode_number hn] at ha
  obtain ⟨w, hw, hcount⟩ := h.get ha
  exact ⟨w, hw, (Width.count?_number_iff hn.isLiteral).mp hcount⟩

theorem ReadsPart.decode_put (h : ReadsPart Document.ofJson place width.count? part)
    (gap : Gap place) {u v : Nat} (hv : v < width.size) {a : α}
    (ha : decode (gap.fill (Text.decimal u)) = some a) :
    decode (gap.fill (Text.decimal v)) = some (part.put (width.ofNat v) a) := by
  rw [gap.decode_number (Numeral.spells_ofNat _)] at ha ⊢
  refine h.put ha ((Width.count?_number_iff (Numeral.isLiteral_ofNat v)).mpr ?_)
  rw [width.toNat_ofNat hv]

/-- The digits of a count are decoded if and only if a zero in their place is. -/
theorem ReadsPart.decode_eq (h : ReadsPart Document.ofJson place width.count? part)
    (gap : Gap place) {v : Nat} (hv : v < width.size) :
    (decode (gap.fill (Text.decimal v)) : Option α) =
      (decode (gap.fill ['0'])).map (part.put (width.ofNat v)) := by
  have hzero : ['0'] = Text.decimal 0 := rfl
  rw [hzero]
  cases hdecode : (decode (gap.fill (Text.decimal 0)) : Option α) with
  | some a => exact h.decode_put gap hv hdecode
  | none =>
    -- a zero could stand wherever the count was decoded
    refine Option.eq_none_iff_forall_ne_some.mpr ?_
    intro a ha
    cases hdecode.symm.trans (h.decode_put gap (Nat.zero_lt_of_lt hv) ha)

theorem decodesCount_of_readsPart (h : ReadsPart Document.ofJson place width.count? part) :
    DecodesCount width place part where
  cut := exists_gap_number
  isSome_iff gap {literal n} hn := by
    constructor
    · intro hsome
      obtain ⟨a, ha⟩ := Option.isSome_iff_exists.mp hsome
      obtain ⟨w, _, hw⟩ := h.eq_ofNat gap hn ha
      have hliteral := hn.isDecimal_iff.mpr hw
      refine ⟨?_, _, hliteral, width.toNat_lt w⟩
      rwa [hliteral.eq_decimal, h.decode_eq gap (width.toNat_lt w), Option.isSome_map] at hsome
    · intro hcount
      obtain ⟨hsome, v, hliteral, hlt⟩ := hcount
      rwa [hliteral.eq_decimal, h.decode_eq gap hlt, Option.isSome_map]
  exact gap {literal n a} hn ha := by
    obtain ⟨w, hget, hw⟩ := h.eq_ofNat gap hn ha
    exact ⟨w, hget, hn.isDecimal_iff.mpr hw⟩
  rest gap {literal v} hliteral hlt := by
    rw [hliteral.eq_decimal]
    exact h.decode_eq gap hlt
  refused gap {literal n} hn hno := by
    refine Option.eq_none_iff_forall_ne_some.mpr ?_
    intro a ha
    obtain ⟨w, _, hw⟩ := h.eq_ofNat gap hn ha
    exact hno.ne_ofNat (width.toNat_lt w) hw
  count_or_noCount {literal n} hn := by
    obtain ⟨v, hlt, hv⟩ | hno := hn.isLiteral.count_or_noCount width.size
    · exact .inl ⟨v, hn.isDecimal_iff.mpr hv, hlt⟩
    · exact .inr hno

end

/-! ## Fields -/

/-- A field of records that is a count. -/
structure CountField (α W : Type) where
  key : String
  get : α → W
  put : W → α → α
  get_put : ∀ w a, get (put w a) = w := by intros; rfl
  put_put : ∀ w x a, put x (put w a) = put x a := by intros; rfl
  put_self : ∀ a, put (get a) a = a := by intros; rfl

namespace CountField

variable {α W : Type}

def part (c : CountField α W) : Component α W :=
  .always c.get c.put c.get_put c.put_put c.put_self

/-- How it is read. -/
def field (width : Width W) (c : CountField α W) : RecordField α :=
  ⟨c.key, some (width.ofNat 0), width.count?, c.get⟩

/-- A value is decoded from a text that has the digits of its count at a step. -/
def Shown [Document α] (width : Width W) (keys : List String) (c : CountField α W) (a : α) : Prop :=
  ∃ step, FieldStep keys c.key step ∧ ∃ gap : Gap [step],
    decode (gap.fill (Text.decimal (width.toNat (c.get a)))) = some a

end CountField

def Page.counts (α : Type) : List (CountField (Page α) UInt64) :=
  [{ key := "total", get := Page.total, put := fun w p => { p with total := w } },
    { key := "limit", get := Page.limit, put := fun w p => { p with limit := w } },
    { key := "offset", get := Page.offset, put := fun w p => { p with offset := w } },
    { key := "page", get := Page.number, put := fun w p => { p with number := w } },
    { key := "pages", get := Page.pages, put := fun w p => { p with pages := w } }]

def Movie.counts : List (CountField Movie UInt32) :=
  [{ key := "runtimeInMinutes", get := Movie.runtimeInMinutes
     put := fun w m => { m with runtimeInMinutes := w } },
    { key := "academyAwardNominations", get := Movie.academyAwardNominations
      put := fun w m => { m with academyAwardNominations := w } },
    { key := "academyAwardWins", get := Movie.academyAwardWins
      put := fun w m => { m with academyAwardWins := w } }]

/-- The items of a page. -/
def Page.docs (α : Type) : Component (Page α) (List α) :=
  .always Page.items (fun items p => { p with items }) (fun _ _ => rfl) (fun _ _ _ => rfl)
    (fun _ => rfl)

theorem Page.isField_docs (α : Type) [Document α] :
    IsField (record α) ⟨"docs", none, list? Document.ofJson, Page.items⟩ (docs α) where
  mem := List.mem_cons_self
  get? _ := rfl
  put_of_ne := by simp [record, docs, Component.always]

theorem Page.isField_counts (α : Type) [Document α] :
    ∀ c ∈ counts α, IsField (record α) (c.field .word64) c.part := by
  intro c hc
  constructor
  · have hfields : (counts α).map (CountField.field .word64) = (record α).tail := rfl
    exact List.mem_of_mem_tail (hfields ▸ List.mem_map_of_mem hc)
  · exact fun _ => rfl
  · revert c
    simp [counts, record, CountField.field, CountField.part, Component.always]

theorem Movie.isField_counts : ∀ c ∈ counts, IsField record (c.field .word32) c.part := by
  intro c hc
  constructor
  · have hfields : counts.map (CountField.field .word32) = [2, 5, 6].filterMap (record[·]?) := rfl
    have hmem := hfields ▸ List.mem_map_of_mem hc
    obtain ⟨i, _, hi⟩ := List.mem_filterMap.mp hmem
    exact List.mem_of_getElem? hi
  · exact fun _ => rfl
  · revert c
    simp [counts, record, CountField.field, CountField.part, Component.always]

/-! ## Texts with the digits of a count -/

theorem Json.Regular.spells_compact {v : Json} (h : v.Regular) :
    SpellsDocument v.compact.toList v := by
  rw [compact, String.toList_ofList]
  exact parse_eq_some_iff.mp (h.parse_write false)

theorem CountField.shown_of_mem {α W : Type} [Document α] {width : Width W} {c : CountField α W}
    (keys : List String) {a : α} {ms : Fields} (hregular : (ofMembers ms).Regular)
    (hread : Document.ofJson (ofMembers ms) = some a)
    (hmem : (c.key, ofNat (width.toNat (c.get a))) ∈ ms) : c.Shown width keys a := by
  have hwritten := hregular.spells_compact
  have hdecode : (decode (ofMembers ms).compact : Option α) = some a :=
    hregular.decode_compact.trans hread
  obtain ⟨before, after, rfl⟩ := List.append_of_mem hmem
  have hput : ofMembers (before ++ (c.key, ofNat (width.toNat (c.get a))) :: after) =
      Place.put [.member (before.map named) (after.map named) (some c.key)]
        (ofNat (width.toNat (c.get a))) := congrArg Json.object List.map_append
  rw [hput] at hwritten hdecode
  obtain ⟨gap, literal, hn, hs⟩ := exists_gap_number hwritten
  refine ⟨_, .member _ _, gap, ?_⟩
  rw [← (hn.isDecimal_iff.mpr rfl).eq_decimal, ← hs, hdecode]

theorem Page.shown_counts {α : Type} [Document α] {write : α → Json} {p : Page α}
    (hregular : ∀ a ∈ p.items, (write a).Regular)
    (hread : ∀ a ∈ p.items, Document.ofJson (write a) = some a) :
    ∀ c ∈ counts α, c.Shown .word64 keys p := by
  have hpage : Document.ofJson (p.toJson write) = some p := by
    show ofJson Document.ofJson (p.toJson write) = some p
    rw [ofJson_toJson, mapM_eq_some_self_iff.mpr hread, Option.map_some]
  intro c hc
  refine CountField.shown_of_mem keys (regular_toJson hregular) hpage ?_
  revert c
  simp [counts, Width.word64]

theorem Page.shown_quote_counts (p : Page Quote) : ∀ c ∈ counts Quote, c.Shown .word64 keys p :=
  shown_counts (fun q _ => regular_quote q) fun q _ => q.ofJson_toJson

/-- Movies can be written so that they are read back. -/
theorem Movie.exists_document : ∃ write : Movie → Fields, ∀ m : Movie, m.ScoresReadable →
    (ofMembers (write m)).Regular ∧ ofJson (ofMembers (write m)) = some m ∧
      ∀ c ∈ counts, (c.key, ofNat (c.get m).toNat) ∈ write m := by
  obtain ⟨numeral, hnumeral⟩ := Binary64.exists_numeral
  refine ⟨fun m => MovieField.all.map fun f => (f.key, m.valueBy numeral f), fun m h => ⟨?_, ?_, ?_⟩⟩
  · exact regular_toJsonBy fun x hx => (hnumeral x (h x hx)).1
  · refine (ofJson_toJsonBy numeral m).trans (mapScores?_eq_some_self_iff.mpr ?_)
    exact fun x hx => (hnumeral x (h x hx)).2
  · simp [counts, MovieField.all, MovieField.key, valueBy, value]

theorem Movie.shown_counts {body : String} {m : Movie} (h : decode body = some m) :
    ∀ c ∈ counts, c.Shown .word32 keys m := by
  obtain ⟨write, hwrite⟩ := exists_document
  obtain ⟨hregular, hread, hcounts⟩ := hwrite m (scoresReadable_of_decode h)
  exact fun c hc => CountField.shown_of_mem keys hregular hread (hcounts c hc)

theorem Page.shown_movie_counts {body : String} {p : Page Movie} (h : decode body = some p) :
    ∀ c ∈ counts Movie, c.Shown .word64 keys p := by
  obtain ⟨write, hwrite⟩ := Movie.exists_document
  have hreadable := scoresReadable_of_decode h
  exact shown_counts (fun m hm => (hwrite m (hreadable m hm)).1)
    fun m hm => (hwrite m (hreadable m hm)).2.1

/-! ## Pages and movies -/

/-- What is decoded of pages; an answer with another number in its body is not decodable. -/
structure PagesCount {α W : Type} [Document α] (width : Width W) (place : Place)
    (part : Component (Page α) W) : Prop extends DecodesCount width place part where
  page_of_noCount (gap : Gap place) {r : Response} {literal : List Char} {n : Numeral} :
    r.status = 200 → r.body = gap.fill literal → n.Spells literal → n.NoCount width.size →
    (r.page : Except Error (Page α)) = .error (.undecodable r.body)

theorem DecodesCount.pagesCount {α W : Type} [Document α] {width : Width W} {place : Place}
    {part : Component (Page α) W} (h : DecodesCount width place part) :
    PagesCount width place part where
  toDecodesCount := h
  page_of_noCount gap {r literal n} hs hbody hn hno := by
    rw [Response.page_of_status hs, hbody, h.refused gap hn hno]
    rfl

theorem Page.nodup_keys : keys.Nodup := by decide

theorem Page.readsPart_count {α : Type} [Document α] {c : CountField (Page α) UInt64}
    (hc : c ∈ counts α) {step : Around} (hstep : FieldStep keys c.key step) :
    ReadsPart Document.ofJson [step] Width.word64.count? c.part :=
  (Page.readsFields α).readsPart nodup_keys (isField_counts α c hc) hstep

theorem Movie.readsPart_count {c : CountField Movie UInt32} (hc : c ∈ counts) {step : Around}
    (hstep : FieldStep keys c.key step) :
    ReadsPart Document.ofJson [step] Width.word32.count? c.part :=
  Movie.readsFields.readsPart (by decide) (isField_counts c hc) hstep

theorem Page.readsPart_item {α : Type} [Document α] {step : Around}
    (hstep : FieldStep keys "docs" step) (before after : List Json) :
    ReadsPart (Document.ofJson (α := Page α)) [step, .item before after] Document.ofJson
      ((docs α).within (.item before.length)) :=
  ((Page.readsFields α).readsPart nodup_keys (isField_docs α) hstep).within
    (Json.readsPart_item _ before after)

/-- **Counts are decoded exactly or the whole document is refused.** These are the counters of pages,
of 64 bits, and the counts of movies, of 32 bits, alone or as items of a page. All pages of quotes, and
all movies and pages of movies that are decoded from any text, are decoded from texts with the digits
of these numbers. -/
theorem counts_decoded_or_refused :
    (∀ (α : Type) [Document α], ∀ c ∈ Page.counts α, ∀ step, FieldStep Page.keys c.key step →
      PagesCount .word64 [step] c.part) ∧
    (∀ c ∈ Movie.counts, ∀ step, FieldStep Movie.keys c.key step →
      DecodesCount .word32 [step] c.part ∧
      ∀ docs before after, FieldStep Page.keys "docs" docs →
        PagesCount .word32 [docs, .item before after, step]
          (((Page.docs Movie).within (.item before.length)).within c.part)) ∧
    (∀ (body : String) (p : Page Movie), decode body = some p →
      ∀ c ∈ Page.counts Movie, c.Shown .word64 Page.keys p) ∧
    (∀ p : Page Quote, ∀ c ∈ Page.counts Quote, c.Shown .word64 Page.keys p) ∧
    ∀ (body : String) (m : Movie), decode body = some m →
      ∀ c ∈ Movie.counts, c.Shown .word32 Movie.keys m := by
  refine ⟨?_, ?_, fun _ _ => Page.shown_movie_counts, Page.shown_quote_counts,
    fun _ _ => Movie.shown_counts⟩
  · intro α _ c hc step hstep
    exact (decodesCount_of_readsPart (Page.readsPart_count hc hstep)).pagesCount
  · intro c hc step hstep
    have hmovie := Movie.readsPart_count hc hstep
    refine ⟨decodesCount_of_readsPart hmovie, ?_⟩
    intro docs before after hdocs
    have hitem := (Page.readsPart_item hdocs before after).within hmovie
    exact (decodesCount_of_readsPart hitem).pagesCount

/-- The greatest counter of a page, one more, and a count of an item with an exponent. -/
theorem counts_decoded_or_refused_limits :
    (decode "\x7b\"docs\":[],\"pages\":18446744073709551615\x7d" : Option (Page Movie)) =
      some { items := [], pages := 18446744073709551615 } ∧
    (decode "\x7b\"docs\":[],\"pages\":18446744073709551616\x7d" : Option (Page Movie)) = none ∧
    (decode "\x7b\"docs\":[\x7b\"academyAwardWins\":1e+2\x7d]\x7d" : Option (Page Movie)) =
      none := by
  obtain ⟨hpages, hmovies, _⟩ := counts_decoded_or_refused
  have hregular (v : Nat) : (ofMembers [("docs", .array []), ("pages", ofNat v)]).Regular :=
    regular_ofMembers (by simpa [regular_ofNat] using .array (List.forall_mem_nil _))
  refine ⟨?_, ?_, ?_⟩
  · exact decode_of_spells (hregular 18446744073709551615).spells_compact
  · have hcount := hpages Movie (Page.counts Movie)[4] (List.getElem_mem _) _
      (.member [(some "docs", .array [])] [])
    obtain ⟨gap, literal, hn, hs⟩ := hcount.cut (hregular 18446744073709551616).spells_compact
    have hdecode := hcount.refused gap hn
      (.large (Text.isDecimal_decimal 18446744073709551616).toIsNumeral (Nat.le_refl _))
    rwa [← hs] at hdecode
  · obtain ⟨_, hitem⟩ := hmovies Movie.counts[2] (List.getElem_mem _) _ (.member [] [])
    have hcount := hitem _ [] [] (.member [] [])
    have hpage {n : Numeral} (hn : n.IsLiteral) : (ofMembers [("docs", .array
        [ofMembers [("academyAwardWins", .number n)]])]).Regular :=
      regular_ofMembers (List.forall_mem_singleton.mpr (.array (List.forall_mem_singleton.mpr
        (regular_ofMembers (List.forall_mem_singleton.mpr (.number hn))))))
    have hundred : (⟨false, ['1'], none, some (false, ['2'])⟩ : Numeral).IsLiteral :=
      ⟨rfl, by simp, by simp [Numeral.IsDigits]⟩
    obtain ⟨gap, literal, hn, hs⟩ := hcount.cut (hpage hundred).spells_compact
    have hdecode := hcount.refused gap hn (.exponent rfl)
    rwa [← hs] at hdecode

end OneApi
