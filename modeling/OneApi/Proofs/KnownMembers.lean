import OneApi.Proofs.DocumentReading
import OneApi.Proofs.RecordFields

/-! Decoding by known members. The fields of an item, and the items and counters of a page, are read
from the members under their keys; the order of the members, what else the object holds and the
white space of its text make no difference, not even to whether it can be read. -/

namespace OneApi

open Json

namespace Json

/-- Changes to the members of an object that records with the given keys do not see. The value under
a known key may be changed inside. -/
inductive Edits (keys : List String) (inside : String → Json → Json → Prop) :
    Members → Members → Prop
  | reorder {ms ns : Members} : ms.Perm ns → Edits keys inside ms ns
  | insert {k : String} (v : Json) (before after : Members) : k ∉ keys →
    Edits keys inside (before ++ after) (before ++ (some k, v) :: after)
  | remove {k : String} (v : Json) (before after : Members) : k ∉ keys →
    Edits keys inside (before ++ (some k, v) :: after) (before ++ after)
  | within {k : String} {v w : Json} (before after : Members) : inside k v w →
    Edits keys inside (before ++ (some k, v) :: after) (before ++ (some k, w) :: after)
  | trans {ms ns ps : Members} : Edits keys inside ms ns → Edits keys inside ns ps →
    Edits keys inside ms ps

/-- The same value, or two objects that differ by such changes. -/
inductive Alike (keys : List String) (inside : String → Json → Json → Prop) : Json → Json → Prop
  | same (v : Json) : Alike keys inside v v
  | objects {ms ns : Members} : Edits keys inside ms ns →
    Alike keys inside (.object ms) (.object ns)

/-- Two arrays that have alike items at each place. -/
inductive AlikeItems (alike : Json → Json → Prop) : Json → Json → Prop
  | arrays {vs ws : List Json} : List.Forall₂ alike vs ws → AlikeItems alike (.array vs) (.array ws)

end Json

/-! ## Records -/

def Quote.record : List (RecordField Quote) :=
  [⟨"_id", some "", text?, Quote.id⟩, ⟨"dialog", some "", text?, Quote.dialog⟩,
    ⟨"movie", some "", text?, Quote.movie⟩, ⟨"character", some "", text?, Quote.character⟩]

def Movie.record : List (RecordField Movie) :=
  [⟨"_id", some "", text?, Movie.id⟩, ⟨"name", some "", text?, Movie.name⟩,
    ⟨"runtimeInMinutes", some 0, count32?, Movie.runtimeInMinutes⟩,
    ⟨"budgetInMillions", some .zero, real?, Movie.budgetInMillions⟩,
    ⟨"boxOfficeRevenueInMillions", some .zero, real?, Movie.boxOfficeRevenueInMillions⟩,
    ⟨"academyAwardNominations", some 0, count32?, Movie.academyAwardNominations⟩,
    ⟨"academyAwardWins", some 0, count32?, Movie.academyAwardWins⟩,
    ⟨"rottenTomatoesScore", some .zero, real?, Movie.rottenTomatoesScore⟩]

/-- The items of a page must be there; a counter that is missing is zero. -/
def Page.record (α : Type) [Document α] : List (RecordField (Page α)) :=
  [⟨"docs", none, list? Document.ofJson, Page.items⟩, ⟨"total", some 0, count64?, Page.total⟩,
    ⟨"limit", some 0, count64?, Page.limit⟩, ⟨"offset", some 0, count64?, Page.offset⟩,
    ⟨"page", some 0, count64?, Page.number⟩, ⟨"pages", some 0, count64?, Page.pages⟩]

/-- Objects that a record of plain fields does not tell apart. -/
def AlikeRecords (keys : List String) : Json → Json → Prop :=
  Json.Alike keys fun _ _ _ => False

/-- Objects that a page of such records does not tell apart: its items may be alike, too. -/
def AlikePages (keys : List String) : Json → Json → Prop :=
  Json.Alike Page.keys fun k v w => k = "docs" ∧ AlikeItems (AlikeRecords keys) v w

/-- A type whose values are read from the texts of objects by the known members only. -/
structure ReadsByMembers (α : Type) [Document α] (record : List (RecordField α))
    (alike : Json → Json → Prop) : Prop where
  /-- Nothing but the text of a document is decoded. -/
  spelled {s : String} {a : α} : decode s = some a → ∃ v, SpellsDocument s.toList v
  /-- Alike objects are read alike, and so are all texts of one object. -/
  alike {s t : String} {v w : Json} : SpellsDocument s.toList v → SpellsDocument t.toList w →
    alike v w → (decode s : Option α) = decode t
  described {s : String} {ms : Members} : SpellsDocument s.toList (.object ms) →
    ∀ a : α, decode s = some a ↔ Describes record ms a
  absent {s : String} {ms : Members} {a : α} : SpellsDocument s.toList (.object ms) →
    decode s = some a → ∀ f ∈ record, (∀ m ∈ ms, m.1 ≠ some f.key) → f.missing = some (f.get a)
  repeated {s : String} {ms : Members} : SpellsDocument s.toList (.object ms) →
    ∀ f ∈ record, 1 < (ms.map Prod.fst).count (some f.key) → (decode s : Option α) = none
  null {s : String} {ms : Members} : SpellsDocument s.toList (.object ms) →
    ∀ f ∈ record, (some f.key, .null) ∈ ms → (decode s : Option α) = none

/-- So are pages of the type; their items are there, and each of them can be read. -/
structure ReadsPages (α : Type) [Document α] (keys : List String) : Prop extends
    ReadsByMembers (Page α) (Page.record α) (AlikePages keys) where
  items {s : String} {ms : Members} {p : Page α} : SpellsDocument s.toList (.object ms) →
    decode s = some p → ∃ vs, (some "docs", .array vs) ∈ ms ∧
      List.Forall₂ (fun v a => Document.ofJson v = some a) vs p.items

/-! ## Changes that are not seen -/

namespace Json

section

variable {α : Type} {f : RecordField α} {record : List (RecordField α)} {ms ns : Members} {a : α}
  {k : String} {v w : Json}

theorem RecordField.Holds.perm (h : f.Holds ms a) (hperm : ms.Perm ns) : f.Holds ns a := by
  cases h with
  | absent hno h => exact .absent (fun m hm => hno m (hperm.mem_iff.mpr hm)) h
  | present hv h => exact .present (hperm.mem_iff.mp hv) h

theorem RecordField.holds_cons_iff (hk : k ≠ f.key) :
    f.Holds ((some k, v) :: ms) a ↔ f.Holds ms a := by
  constructor
  · intro h
    cases h with
    | absent hno h => exact .absent (List.forall_mem_cons.mp hno).2 h
    | present hw h =>
      obtain heq | hw := List.mem_cons.mp hw
      · cases heq
        contradiction
      · exact .present hw h
  · intro h
    cases h with
    | absent hno h => exact .absent (List.forall_mem_cons.mpr ⟨by simpa using hk, hno⟩) h
    | present hw h => exact .present (List.mem_cons_of_mem _ hw) h

theorem RecordField.Holds.replace (h : f.Holds ((some k, v) :: ms) a)
    (hread : f.key = k → f.read v = f.read w) : f.Holds ((some k, w) :: ms) a := by
  cases h with
  | absent hno h =>
    obtain ⟨hk, hno⟩ := List.forall_mem_cons.mp hno
    exact .absent (List.forall_mem_cons.mpr ⟨hk, hno⟩) h
  | present hx h =>
    obtain heq | hx := List.mem_cons.mp hx
    · cases heq
      exact .present List.mem_cons_self (hread rfl ▸ h)
    · exact .present (List.mem_cons_of_mem _ hx) h

theorem Describes.perm (h : Describes record ms a) (hperm : ms.Perm ns) :
    Describes record ns a where
  named := fun m hm => h.named m (hperm.mem_iff.mpr hm)
  once := fun f hf => (hperm.map Prod.fst).count_eq (some f.key) ▸ h.once f hf
  holds := fun f hf => (h.holds f hf).perm hperm

theorem describes_cons_iff (hk : k ∉ record.map RecordField.key) :
    Describes record ((some k, v) :: ms) a ↔ Describes record ms a := by
  have hne (f) (hf : f ∈ record) : k ≠ f.key := by
    rintro rfl
    exact hk (List.mem_map_of_mem hf)
  have hcount (f) (hf : f ∈ record) : (((some k, v) :: ms).map Prod.fst).count (some f.key) =
      (ms.map Prod.fst).count (some f.key) := List.count_cons_of_ne (by simpa using hne f hf)
  constructor
  · rintro ⟨hnamed, honce, hholds⟩
    exact ⟨(List.forall_mem_cons.mp hnamed).2, fun f hf => hcount f hf ▸ honce f hf,
      fun f hf => (f.holds_cons_iff (hne f hf)).mp (hholds f hf)⟩
  · rintro ⟨hnamed, honce, hholds⟩
    exact ⟨List.forall_mem_cons.mpr ⟨rfl, hnamed⟩, fun f hf => (hcount f hf).symm ▸ honce f hf,
      fun f hf => (f.holds_cons_iff (hne f hf)).mpr (hholds f hf)⟩

theorem Describes.replace (h : Describes record ((some k, v) :: ms) a)
    (hread : ∀ f ∈ record, f.key = k → f.read v = f.read w) :
    Describes record ((some k, w) :: ms) a where
  named := List.forall_mem_cons.mpr ⟨rfl, (List.forall_mem_cons.mp h.named).2⟩
  once := h.once
  holds := fun f hf => (h.holds f hf).replace (hread f hf)

theorem Describes.eq_of_mem (h : Describes record ms a) (hf : f ∈ record)
    (hv : (some f.key, v) ∈ ms) (hw : (some f.key, w) ∈ ms) : v = w := by
  have hcount := h.once f hf
  obtain ⟨before, after, rfl⟩ := List.append_of_mem hv
  have hkey {ms : Members} (hw : (some f.key, w) ∈ ms) :
      0 < (ms.map Prod.fst).count (some f.key) :=
    List.count_pos_iff.mpr (List.mem_map_of_mem (f := Prod.fst) hw)
  rw [List.map_append, List.map_cons, List.count_append, List.count_cons_self] at hcount
  obtain hw | hw := List.mem_append.mp hw
  · have := hkey hw
    omega
  · obtain heq | hw := List.mem_cons.mp hw
    · cases heq
      rfl
    · have := hkey hw
      omega

/-- A change is not seen by a record if its fields read the values before and after alike. -/
theorem Edits.describes_iff {inside : String → Json → Json → Prop}
    (h : Edits (record.map RecordField.key) inside ms ns)
    (hread : ∀ k v w, inside k v w → ∀ f ∈ record, f.key = k → f.read v = f.read w) (a : α) :
    Describes record ms a ↔ Describes record ns a := by
  -- the order does not count, so the member that is changed may as well stand first
  have hmiddle (m : Option String × Json) (before after : Members) :
      Describes record (before ++ m :: after) a ↔ Describes record (m :: (before ++ after)) a :=
    ⟨fun h => h.perm List.perm_middle, fun h => h.perm List.perm_middle.symm⟩
  induction h with
  | reorder hperm => exact ⟨fun h => h.perm hperm, fun h => h.perm hperm.symm⟩
  | insert v before after hk => rw [hmiddle, describes_cons_iff hk]
  | remove v before after hk => rw [hmiddle, describes_cons_iff hk]
  | within before after hin =>
    rw [hmiddle, hmiddle]
    exact ⟨fun h => h.replace (hread _ _ _ hin),
      fun h => h.replace fun f hf hkey => (hread _ _ _ hin f hf hkey).symm⟩
  | trans _ _ hfirst hsecond => exact hfirst.trans hsecond

end

/-! ## Reading by members -/

section

variable {α : Type} [Document α] {record : List (RecordField α)}

theorem decode_of_spells {s : String} {v : Json} (h : SpellsDocument s.toList v) :
    (decode s : Option α) = Document.ofJson v := by
  rw [decode, h.parse_eq]
  rfl

theorem ReadsFields.ofJson_object (h : ReadsFields α record) (ms : Members) (a : α) :
    Document.ofJson (.object ms) = some a ↔ Describes record ms a := by
  rw [h.ofJson_eq_some_iff, ← describes_iff]

theorem ReadsFields.ofJson_eq_of_alike (h : ReadsFields α record)
    {inside : String → Json → Json → Prop}
    (hread : ∀ k v w, inside k v w → ∀ f ∈ record, f.key = k → f.read v = f.read w) {v w : Json}
    (hvw : Alike (record.map RecordField.key) inside v w) :
    (Document.ofJson v : Option α) = Document.ofJson w := by
  cases hvw with
  | same => rfl
  | objects hedits =>
    apply Option.ext
    intro a
    rw [h.ofJson_object, h.ofJson_object, hedits.describes_iff hread]

theorem ReadsFields.decode_eq_some_iff (h : ReadsFields α record) {s : String} {ms : Members}
    (hs : SpellsDocument s.toList (.object ms)) (a : α) :
    decode s = some a ↔ Describes record ms a := by
  rw [decode_of_spells hs, h.ofJson_object]

theorem ReadsFields.readsByMembers (h : ReadsFields α record)
    {inside : String → Json → Json → Prop}
    (hread : ∀ k v w, inside k v w → ∀ f ∈ record, f.key = k → f.read v = f.read w)
    (hnull : ∀ f ∈ record, f.read .null = none) :
    ReadsByMembers α record (Alike (record.map RecordField.key) inside) where
  spelled hs := by
    obtain ⟨v, hparse, _⟩ := Option.bind_eq_some_iff.mp hs
    exact ⟨v, parse_eq_some_iff.mp hparse⟩
  alike hs ht hvw := by
    rw [decode_of_spells hs, decode_of_spells ht, h.ofJson_eq_of_alike hread hvw]
  described hs := h.decode_eq_some_iff hs
  absent hs ha f hf hno := by
    cases ((h.decode_eq_some_iff hs _).mp ha).holds f hf with
    | absent _ h => exact h
    | present hv _ => exact absurd rfl (hno _ hv)
  repeated hs f hf hcount := by
    refine Option.eq_none_iff_forall_ne_some.mpr fun a ha => ?_
    exact absurd (((h.decode_eq_some_iff hs a).mp ha).once f hf) (Nat.not_le.mpr hcount)
  null hs f hf hmem := by
    refine Option.eq_none_iff_forall_ne_some.mpr fun a ha => ?_
    have hdescribes := (h.decode_eq_some_iff hs a).mp ha
    cases hdescribes.holds f hf with
    | absent hno _ => exact absurd rfl (hno _ hmem)
    | present hv hread =>
      rw [hdescribes.eq_of_mem hf hv hmem, hnull f hf] at hread
      contradiction

end

end Json

/-! ## Fields of each record -/

theorem Quote.readsFields : ReadsFields Quote record where
  ofJson_eq_some_iff v q := by
    show Quote.ofJson v = _ ↔ _
    simp only [Quote.ofJson, Option.bind_eq_bind, Option.bind_eq_some_iff, Option.pure_def,
      Option.some.injEq, record, List.forall_mem_cons]
    constructor
    · rintro ⟨fs, hfs, _, hid, _, hdialog, _, hmovie, _, hcharacter, rfl⟩
      exact ⟨fs, hfs, hid, hdialog, hmovie, hcharacter, by simp⟩
    · rintro ⟨fs, hfs, hid, hdialog, hmovie, hcharacter, _⟩
      exact ⟨fs, hfs, _, hid, _, hdialog, _, hmovie, _, hcharacter, rfl⟩

theorem Movie.readsFields : ReadsFields Movie record where
  ofJson_eq_some_iff v m := by
    show Movie.ofJson v = _ ↔ _
    simp only [Movie.ofJson, Option.bind_eq_bind, Option.bind_eq_some_iff, Option.pure_def,
      Option.some.injEq, record, List.forall_mem_cons]
    constructor
    · rintro ⟨fs, hfs, _, hid, _, hname, _, hruntime, _, hbudget, _, hrevenue, _, hnominations, _,
        hwins, _, hscore, rfl⟩
      exact ⟨fs, hfs, hid, hname, hruntime, hbudget, hrevenue, hnominations, hwins, hscore, by simp⟩
    · rintro ⟨fs, hfs, hid, hname, hruntime, hbudget, hrevenue, hnominations, hwins, hscore, _⟩
      exact ⟨fs, hfs, _, hid, _, hname, _, hruntime, _, hbudget, _, hrevenue, _, hnominations, _,
        hwins, _, hscore, rfl⟩

theorem Page.readsFields (α : Type) [Document α] : ReadsFields (Page α) (record α) where
  ofJson_eq_some_iff v p := by
    show Page.ofJson Document.ofJson v = _ ↔ _
    simp only [Page.ofJson, Option.bind_eq_bind, Option.bind_eq_some_iff, Option.pure_def,
      Option.some.injEq, record, List.forall_mem_cons]
    constructor
    · rintro ⟨fs, hfs, _, hitems, _, htotal, _, hlimit, _, hoffset, _, hnumber, _, hpages, rfl⟩
      exact ⟨fs, hfs, hitems, htotal, hlimit, hoffset, hnumber, hpages, by simp⟩
    · rintro ⟨fs, hfs, hitems, htotal, hlimit, hoffset, hnumber, hpages, _⟩
      exact ⟨fs, hfs, _, hitems, _, htotal, _, hlimit, _, hoffset, _, hnumber, _, hpages, rfl⟩

/-! ## Pages -/

theorem Json.AlikeItems.list?_eq {α : Type} {alike : Json → Json → Prop} {read : Json → Option α}
    (hread : ∀ v w, alike v w → read v = read w) {v w : Json} (h : AlikeItems alike v w) :
    list? read v = list? read w := by
  obtain ⟨hitems⟩ := h
  show List.mapM read _ = List.mapM read _
  induction hitems with
  | nil => rfl
  | cons hitem _ ih => rw [List.mapM_cons, List.mapM_cons, hread _ _ hitem, ih]

theorem Json.forall₂_of_list? {α : Type} {read : Json → Option α} {v : Json} {as : List α}
    (h : list? read v = some as) :
    ∃ vs, v = .array vs ∧ List.Forall₂ (fun v a => read v = some a) vs as := by
  cases v with
  | array vs =>
    refine ⟨vs, rfl, ?_⟩
    change List.mapM read vs = some as at h
    induction vs generalizing as with
    | nil =>
      cases h
      exact .nil
    | cons v vs ih =>
      simp only [List.mapM_cons, Option.bind_eq_bind, Option.bind_eq_some_iff, Option.pure_def,
        Option.some.injEq] at h
      obtain ⟨a, ha, as, has, rfl⟩ := h
      exact .cons ha (ih has)
  | _ => contradiction

section

variable {α : Type} [Document α] {record : List (RecordField α)}

theorem Page.readsPages (h : ReadsFields α record) :
    ReadsPages α (record.map RecordField.key) where
  toReadsByMembers := by
    have hitem (v w : Json) (hvw : AlikeRecords (record.map RecordField.key) v w) :
        (Document.ofJson v : Option α) = Document.ofJson w :=
      h.ofJson_eq_of_alike (by rintro _ _ _ ⟨⟩) hvw
    refine (Page.readsFields α).readsByMembers ?_ ?_
    · rintro k v w ⟨rfl, hvw⟩
      simp only [Page.record, List.forall_mem_cons]
      refine ⟨fun _ => hvw.list?_eq hitem, ?_⟩
      simp
    · simp only [Page.record, List.forall_mem_cons]
      exact ⟨rfl, rfl, rfl, rfl, rfl, rfl, by simp⟩
  items hs h := by
    cases (((Page.readsFields α).decode_eq_some_iff hs _).mp h).holds _ List.mem_cons_self with
    | absent _ h => contradiction
    | present hv hread =>
      obtain ⟨vs, rfl, hitems⟩ := forall₂_of_list? hread
      exact ⟨vs, hv, hitems⟩

end

/-- **Decoding depends on the known members only.** Movies, quotes and the pages of both are decoded
from the texts of documents, and by the members under their keys: a missing one has its default if
there is one, one that is repeated or null is refused, and nothing else of an object counts. -/
theorem decodes_by_known_members :
    ReadsByMembers Movie Movie.record (AlikeRecords Movie.keys) ∧
    ReadsByMembers Quote Quote.record (AlikeRecords Quote.keys) ∧
    ReadsPages Movie Movie.keys ∧ ReadsPages Quote Quote.keys := by
  refine ⟨Movie.readsFields.readsByMembers (by rintro _ _ _ ⟨⟩) ?_,
    Quote.readsFields.readsByMembers (by rintro _ _ _ ⟨⟩) ?_, Page.readsPages Movie.readsFields,
    Page.readsPages Quote.readsFields⟩
  · simp only [Movie.record, List.forall_mem_cons]
    exact ⟨rfl, rfl, rfl, rfl, rfl, rfl, rfl, rfl, by simp⟩
  · simp only [Quote.record, List.forall_mem_cons]
    exact ⟨rfl, rfl, rfl, rfl, by simp⟩

end OneApi
