import Mathlib.Data.List.Nodup
import OneApi.Command.Execution
import OneApi.Proofs.ReadDoubles
import OneApi.Proofs.WrittenDocument

/-! Documents that are read again. A record is written with all its fields under its own keys, which
differ, so each field is read from the value it was written as. Doubles are reread from their
numerals; nothing else can change, in one line, indented, or as a line of output. -/

namespace OneApi

namespace Json

/-! ## Values -/

theorem regular_ofNat (n : Nat) : (ofNat n).Regular := .number (Numeral.isLiteral_ofNat n)

theorem regular_ofMembers {members : List (String × Json)} (h : ∀ m ∈ members, m.2.Regular) :
    (ofMembers members).Regular :=
  .object (List.forall_mem_map.mpr fun _ _ => rfl) (List.forall_mem_map.mpr h)

@[simp]
theorem text?_ofText (s : String) : text? (ofText s) = some s := rfl

@[simp]
theorem name?_ofText (s : String) : name? (ofText s) = some s := rfl

theorem count?_ofNat {bound n : Nat} (h : n < bound) : count? bound (ofNat n) = some n := by
  simp [count?, ofNat, Numeral.natural?_ofNat, h]

@[simp]
theorem count32?_ofNat (n : UInt32) : count32? (ofNat n.toNat) = some n := by
  simp [count32?, count?_ofNat n.toNat_lt_size]

@[simp]
theorem count64?_ofNat (n : UInt64) : count64? (ofNat n.toNat) = some n := by
  simp [count64?, count?_ofNat n.toNat_lt_size]

theorem list?_map {α : Type} (read : Json → Option α) (write : α → Json) (items : List α) :
    list? read (.array (items.map write)) = items.mapM fun a => read (write a) :=
  List.mapM_map

/-! ## Records -/

theorem named?_map (members : Fields) :
    named? (members.map fun m => (some m.1, m.2)) = some members := by
  induction members with
  | nil => rfl
  | cons m members ih => simp [named?, ih]

variable {keys : List String} {members : Fields}

/-- All members of a written record are fields of it. -/
theorem fields?_ofMembers (hnames : members.map Prod.fst = keys) (hkeys : keys.Nodup) :
    fields? keys (ofMembers members) = some members := by
  have hknown : (members.filter fun m => keys.contains m.1) = members := by
    rw [List.filter_eq_self]
    intro m hm
    exact List.contains_iff_mem.mpr (hnames ▸ List.mem_map_of_mem hm)
  simp only [fields?, ofMembers, named?_map, Option.bind_eq_bind, Option.bind_some, hknown, hnames,
    if_pos hkeys]

@[simp]
theorem field_cons_self {α : Type} (key : String) (v : Json) (members : Fields) (missing : Option α)
    (read : Json → Option α) : field ((key, v) :: members) key missing read = read v := by
  simp [field]

@[simp]
theorem field_cons_of_ne {α : Type} {key other : String} (h : key ≠ other) (v : Json)
    (members : Fields) (missing : Option α) (read : Json → Option α) :
    field ((other, v) :: members) key missing read = field members key missing read := by
  have hne : (key == other) = false := beq_eq_false_iff_ne.mpr h
  rw [field, field, List.lookup_cons, hne]

end Json

/-! ## Types -/

theorem mapM_eq_some_self_iff {α : Type} {f : α → Option α} {items : List α} :
    items.mapM f = some items ↔ ∀ a ∈ items, f a = some a := by
  induction items with
  | nil => simp
  | cons a items ih =>
    rw [List.forall_mem_cons, ← ih, List.mapM_cons]
    cases f a <;> cases items.mapM f <;> simp

open Json

theorem Quote.ofJson_toJson (q : Quote) : ofJson q.toJson = some q := by
  have hfields : fields? keys q.toJson = _ := fields?_ofMembers rfl (by decide)
  rw [ofJson, hfields]
  simp [QuoteField.all, QuoteField.key, value]

namespace Movie

def scores (m : Movie) : List Binary64 :=
  [m.budgetInMillions, m.boxOfficeRevenueInMillions, m.rottenTomatoesScore]

/-- Replaces the scores, each by itself; nothing else of a movie changes. -/
def mapScores? (f : Binary64 → Option Binary64) (m : Movie) : Option Movie := do
  return { m with
    budgetInMillions := ← f m.budgetInMillions
    boxOfficeRevenueInMillions := ← f m.boxOfficeRevenueInMillions
    rottenTomatoesScore := ← f m.rottenTomatoesScore }

variable {f : Binary64 → Option Binary64} {m : Movie}

theorem mapScores?_of_eq {x y z : Binary64} (hx : f m.budgetInMillions = some x)
    (hy : f m.boxOfficeRevenueInMillions = some y) (hz : f m.rottenTomatoesScore = some z) :
    m.mapScores? f = some { m with
      budgetInMillions := x, boxOfficeRevenueInMillions := y, rottenTomatoesScore := z } := by
  simp [mapScores?, hx, hy, hz]

theorem mapScores?_eq_some_self_iff :
    m.mapScores? f = some m ↔ ∀ x ∈ m.scores, f x = some x := by
  obtain ⟨_, _, _, budget, revenue, _, _, tomatoes⟩ := m
  cases hbudget : f budget <;> cases hrevenue : f revenue <;> cases htomatoes : f tomatoes <;>
    simp [mapScores?, scores, hbudget, hrevenue, htomatoes]

/-- The values of a movie with numerals of one's own choice for its scores. -/
def valueBy (numeral : Binary64 → Numeral) (m : Movie) : MovieField → Json
  | .budgetInMillions => .number (numeral m.budgetInMillions)
  | .boxOfficeRevenueInMillions => .number (numeral m.boxOfficeRevenueInMillions)
  | .rottenTomatoesScore => .number (numeral m.rottenTomatoesScore)
  | f => m.value f

def toJsonBy (numeral : Binary64 → Numeral) (m : Movie) : Json :=
  .ofMembers (MovieField.all.map fun f => (f.key, m.valueBy numeral f))

theorem ofJson_toJsonBy (numeral : Binary64 → Numeral) (m : Movie) :
    ofJson (m.toJsonBy numeral) = m.mapScores? fun x => Binary64.ofNumeral (numeral x) := by
  have hfields : fields? keys (m.toJsonBy numeral) = _ := fields?_ofMembers rfl (by decide)
  rw [ofJson, hfields]
  simp [MovieField.all, MovieField.key, valueBy, value, mapScores?, real?]

end Movie

theorem Page.ofJson_toJson {α : Type} (read : Json → Option α) (write : α → Json) (p : Page α) :
    ofJson read (p.toJson write) =
      (p.items.mapM fun a => read (write a)).map fun items => { p with items } := by
  have hfields : fields? keys (p.toJson write) = _ := fields?_ofMembers rfl (by decide)
  rw [ofJson, hfields]
  simp [list?_map, Option.map_eq_bind]

theorem Growth.ofJson_toJson (g : Growth) : Document.ofJson (Written.toJson g) = some g := by
  show (name? (ofText g.name)).bind ofName? = some g
  rw [name?_ofText, Option.bind_some, ofName?_name]

theorem BackoffSettings.ofJson_toJson (b : BackoffSettings) : ofJson b.toJson = some b := by
  have hfields : fields? keys b.toJson = _ := fields?_ofMembers rfl (by decide)
  rw [ofJson, hfields]
  simp [Growth.ofJson_toJson]

/-- A missing key is written as null, and null is read as a missing key. -/
theorem Settings.keyOfJson_written (key : Option String) :
    keyOfJson ((key.map Json.ofText).getD .null) = some key := by
  cases key <;> rfl

theorem Settings.ofJson_toJson (s : Settings) : ofJson s.toJson = some s := by
  have hfields : fields? keys s.toJson = _ := fields?_ofMembers rfl (by decide)
  rw [ofJson, hfields]
  simp [keyOfJson_written, BackoffSettings.ofJson_toJson]

theorem regular_quote (q : Quote) : q.toJson.Regular := by
  refine regular_ofMembers (List.forall_mem_map.mpr fun f _ => ?_)
  cases f <;> exact .string _

theorem Movie.regular_toJsonBy {numeral : Binary64 → Numeral} {m : Movie}
    (h : ∀ x ∈ m.scores, (numeral x).IsLiteral) : (m.toJsonBy numeral).Regular := by
  simp only [scores, List.forall_mem_cons] at h
  obtain ⟨hbudget, hrevenue, htomatoes, _⟩ := h
  refine regular_ofMembers (List.forall_mem_map.mpr fun f _ => ?_)
  cases f with
  | id | name => exact .string _
  | runtimeInMinutes | academyAwardNominations | academyAwardWins => exact regular_ofNat _
  | budgetInMillions => exact .number hbudget
  | boxOfficeRevenueInMillions => exact .number hrevenue
  | rottenTomatoesScore => exact .number htomatoes

theorem Page.regular_toJson {α : Type} {write : α → Json} {p : Page α}
    (h : ∀ a ∈ p.items, (write a).Regular) : (p.toJson write).Regular := by
  have hitems : (Json.array (p.items.map write)).Regular := .array (List.forall_mem_map.mpr h)
  exact regular_ofMembers (by simpa [regular_ofNat] using hitems)

theorem BackoffSettings.regular_toJson (b : BackoffSettings) : b.toJson.Regular := by
  have hgrowth : (Written.toJson b.growth).Regular := .string _
  exact regular_ofMembers (by simpa [regular_ofNat] using hgrowth)

theorem Settings.regular_toJson (s : Settings) : s.toJson.Regular := by
  have hkey : ((s.apiKey.map Json.ofText).getD Json.null).Regular := by
    cases s.apiKey with
    | none => exact .null
    | some key => exact .string key
  have hurl : (Json.ofText s.baseUrl).Regular := .string _
  exact regular_ofMembers (by simp [regular_ofNat, hkey, hurl, s.backoff.regular_toJson])

/-- Values that are written as regular documents. What is read from these is the value with its
doubles reread, if all of them can be. -/
class Rereads (α : Type) [Document α] where
  reread : α → Option α
  regular (a : α) : (Written.toJson a).Regular
  ofJson_toJson (a : α) : Document.ofJson (Written.toJson a) = reread a

instance : Rereads Quote := ⟨some, regular_quote, Quote.ofJson_toJson⟩

instance : Rereads Movie where
  reread := Movie.mapScores? Binary64.reread
  regular m := m.regular_toJsonBy fun x _ => x.isLiteral_numeral
  ofJson_toJson := Movie.ofJson_toJsonBy (Binary64.numeral .document)

instance {α : Type} [Document α] [Rereads α] : Rereads (Page α) where
  reread p := (p.items.mapM Rereads.reread).map fun items => { p with items }
  regular _ := Page.regular_toJson fun a _ => Rereads.regular a
  ofJson_toJson p := by
    rw [← funext Rereads.ofJson_toJson]
    exact p.ofJson_toJson _ _

instance : Rereads BackoffSettings :=
  ⟨some, BackoffSettings.regular_toJson, BackoffSettings.ofJson_toJson⟩

instance : Rereads Settings := ⟨some, Settings.regular_toJson, Settings.ofJson_toJson⟩

/-- The scores of a movie read back. -/
def Movie.ScoresReadBack (m : Movie) : Prop := ∀ x ∈ m.scores, x.ReadsBack

theorem Movie.reread_eq_some_iff (m : Movie) : Rereads.reread m = some m ↔ m.ScoresReadBack :=
  mapScores?_eq_some_self_iff

theorem Page.reread_eq_some_iff {α : Type} [Document α] [Rereads α] (p : Page α) :
    Rereads.reread p = some p ↔ ∀ a ∈ p.items, Rereads.reread a = some a := by
  obtain ⟨items, total, limit, offset, number, pages⟩ := p
  simp only [Rereads.reread, Option.map_eq_some_iff, Page.mk.injEq, and_self, and_true,
    exists_eq_right]
  exact mapM_eq_some_self_iff

/-! ## Texts -/

theorem Json.Regular.decode_compact {α : Type} [Document α] {v : Json} (h : v.Regular) :
    (decode v.compact : Option α) = Document.ofJson v := by
  rw [decode, compact, String.toList_ofList, h.parse_write]
  rfl

namespace Rereads

variable {α : Type} [Document α] [Rereads α]

theorem decode_encode (a : α) : decode (encode a) = reread a :=
  (regular a).decode_compact.trans (ofJson_toJson a)

theorem decode_encodeIndented (a : α) : decode (encodeIndented a) = reread a := by
  rw [decode, encodeIndented, indented, String.toList_ofList, (regular a).parse_write]
  exact ofJson_toJson a

/-- The end of a line changes nothing. -/
theorem decode_line (format : Command.Format) (a : α) : decode (Command.line format a) = reread a := by
  have hblank : ∀ c ∈ ['\n'], isBlank c = true := List.forall_mem_singleton.mpr rfl
  obtain ⟨pretty, hline⟩ : ∃ pretty, (Command.line format a).toList =
      write pretty 0 (Written.toJson a) ++ ['\n'] := by
    cases format with
    | lines => exact ⟨false, by simp [Command.line, encode, compact]⟩
    | indented => exact ⟨true, by simp [Command.line, encodeIndented, indented]⟩
  rw [decode, hline, (regular a).parse_write_append pretty hblank]
  exact ofJson_toJson a

end Rereads

/-- Reading undoes writing for the values that a condition holds of, and for no others; and so it does
for values that were read. -/
structure Recovers (α : Type) [Document α] (kept : α → Prop) : Prop where
  compact (a : α) : decode (encode a) = some a ↔ kept a
  indented (a : α) : decode (encodeIndented a) = some a ↔ kept a
  printed (format : Command.Format) (a : α) : decode (Command.line format a) = some a ↔ kept a
  again (body : String) : (∀ a ∈ (decode body : Option α), kept a) →
    ((decode body : Option α).map encode).bind decode = (decode body : Option α)
  againIndented (body : String) : (∀ a ∈ (decode body : Option α), kept a) →
    ((decode body : Option α).map encodeIndented).bind decode = (decode body : Option α)

open Rereads in
theorem Rereads.recovers {α : Type} [Document α] [Rereads α] {kept : α → Prop}
    (h : ∀ a, reread a = some a ↔ kept a) : Recovers α kept where
  compact a := by rw [decode_encode, h]
  indented a := by rw [decode_encodeIndented, h]
  printed format a := by rw [decode_line, h]
  again body hkept := by
    cases hdecode : (decode body : Option α) with
    | none => rfl
    | some a => exact (decode_encode a).trans ((h a).mpr (hkept a hdecode))
  againIndented body hkept := by
    cases hdecode : (decode body : Option α) with
    | none => rfl
    | some a => exact (decode_encodeIndented a).trans ((h a).mpr (hkept a hdecode))

/-- **Decoding undoes encoding**, for items, pages of items, and settings; for movies as far as their
scores read back. -/
theorem decode_undoes_encode :
    Recovers Quote (fun _ => True) ∧ Recovers Movie Movie.ScoresReadBack ∧
      Recovers (Page Quote) (fun _ => True) ∧
      Recovers (Page Movie) (fun p => ∀ m ∈ p.items, m.ScoresReadBack) ∧
      Recovers BackoffSettings (fun _ => True) ∧ Recovers Settings (fun _ => True) := by
  have hquote (q : Quote) : Rereads.reread q = some q ↔ True := iff_true_intro rfl
  refine ⟨Rereads.recovers hquote, Rereads.recovers Movie.reread_eq_some_iff, ?_, ?_,
    Rereads.recovers fun _ => iff_true_intro rfl, Rereads.recovers fun _ => iff_true_intro rfl⟩
  · exact Rereads.recovers fun p => p.reread_eq_some_iff.trans (iff_true_intro fun _ _ => rfl)
  · refine Rereads.recovers fun p => p.reread_eq_some_iff.trans ?_
    exact forall₂_congr fun m _ => m.reread_eq_some_iff

/-- A movie with the scores 281.0, 2917.5 and 66.25. -/
theorem decode_undoes_encode_few_digits :
    let m : Movie :=
      { name := "The Hobbit", runtimeInMinutes := 462
        budgetInMillions := ⟨false, 4643651020470091776, by decide⟩
        boxOfficeRevenueInMillions := ⟨false, 4658634065421795328, by decide⟩
        rottenTomatoesScore := ⟨false, 4634362346238640128, by decide⟩ }
    m.ScoresReadBack ∧ decode (encode m) = some m := by
  intro m
  have hscores : m.ScoresReadBack := by
    intro x hx
    have hshort : ∀ x ∈ m.scores, (x.numeral .document).Short := by decide +kernel
    exact Binary64.readsBack_of_short (hshort x hx)
  obtain ⟨_, hmovies, _⟩ := decode_undoes_encode
  exact ⟨hscores, (hmovies.compact m).mpr hscores⟩

end OneApi
