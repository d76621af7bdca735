import Mathlib.Data.List.TakeDrop
import OneApi.Options
import OneApi.Proofs.FormDecode

/-! Reading the fragments of a query back. A fragment begins with the name of a field or of a
parameter. What follows the name of a field tells its test by its first marks, and values are
form-encoded, so the commas between them are the only ones. For fields whose names are words, and
none of the names of parameters, every fragment is read as what it was written from. -/

namespace OneApi

/-! ## The reader -/

def isWordChar (c : Char) : Bool := c.isAlphanum || c == '_'

def Comparison.read? : List Char → Option (Comparison × List Char)
  | '<' :: '=' :: s => some (atMost, s)
  | '>' :: '=' :: s => some (atLeast, s)
  | '<' :: s => some (less, s)
  | '>' :: s => some (greater, s)
  | _ => none

def Operand.readInt? : List Char → Option Int
  | '-' :: s => (Text.readDigits s).map fun n => -Int.ofNat n
  | s => (Text.readDigits s).map Int.ofNat

def Filter.readValues (s : List Char) : List String :=
  (s.splitOn ',').map fun v => String.ofList (Text.formDecode v)

/-- Reads what follows the name of a field. -/
def Test.read? : List Char → Option Test
  | [] => some present
  | '=' :: s => some (among (Filter.readValues s))
  | '!' :: '=' :: s => some (notAmong (Filter.readValues s))
  | s => do
    let (relation, bound) ← Comparison.read? s
    return compare relation (.int (← Operand.readInt? bound))

def FieldName.read? (name : List Char) : Option FieldName := (read (String.ofList name)).toOption

def Filter.read? : List Char → Option Filter
  | '!' :: name => (FieldName.read? name).map (on · .absent)
  | s => do
    let (name, rest) := s.span isWordChar
    return on (← FieldName.read? name) (← Test.read? rest)

def SortKey.read? (s : List Char) : Option SortKey :=
  let (field, direction) := s.span (· != ':')
  (Direction.ofName? (String.ofList (direction.drop 1))).map fun d => ⟨String.ofList field, d⟩

namespace Options

/-- How the value of a parameter is read, if the name is one of a parameter. -/
def Step.parameter? (name : List Char) : Option (List Char → Option Step) :=
  if name = "sort".toList then some fun v => (SortKey.read? v).map sort
  else if name = "limit".toList then some fun v => (Text.readCount32 v).map limit
  else if name = "page".toList then some fun v => (Text.readCount32 v).map page
  else if name = "offset".toList then some fun v => (Text.readCount32 v).map offset
  else none

def Step.read? (s : List Char) : Option Step :=
  match s.span isWordChar with
  | (name, '=' :: value) =>
    match parameter? name with
    | some read => read value
    | none => (Filter.read? s).map filter
  | _ => (Filter.read? s).map filter

end Options

/-! ## What can be read -/

/-- Tests by values, of which there is at least one, and by whole numbers. -/
def Test.Readable : Test → Prop
  | among vs => vs ≠ []
  | notAmong vs => vs ≠ []
  | present => True
  | absent => True
  | pattern _ => False
  | compare _ (.int _) => True
  | compare _ _ => False

/-- A word as the name of a field, which is not the name of a parameter. -/
def Filter.Readable : Filter → Prop
  | raw _ => False
  | on field test =>
    field.chars.all isWordChar = true ∧
      field.chars ∉ ["sort", "limit", "page", "offset"].map String.toList ∧ test.Readable

def SortKey.Readable (k : SortKey) : Prop := k.field.toList.all isWordChar = true

/-! ## Words -/

theorem span_word {name rest : List Char} (hn : name.all isWordChar = true)
    (hr : ∀ c ∈ rest.head?, isWordChar c = false) :
    (name ++ rest).span isWordChar = (name, rest) := by
  have hall := List.all_eq_true.mp hn
  rw [List.span_eq_takeWhile_dropWhile, List.takeWhile_append_of_pos hall,
    List.dropWhile_append_of_pos hall]
  cases rest with
  | nil => simp
  | cons c rest => simp [hr c rfl]

theorem FieldName.read?_chars (f : FieldName) : read? f.chars = some f := by
  obtain ⟨chars, hs, hn⟩ := f
  simp [read?, read, hs, hn, Except.toOption]

/-! ## Values -/

theorem Text.comma_not_mem_formEncode (s : List Char) : ',' ∉ formEncode s := by
  intro h
  rcases mem_formEncode h with h | h | h <;> revert h <;> decide

theorem Filter.readValues_values {vs : List String} (h : vs ≠ []) :
    readValues (values vs) = vs := by
  have hsplit : (values vs).splitOn ',' = vs.map fun v => Text.formEncode v.toList := by
    apply List.splitOn_intercalate
    · simp [Text.comma_not_mem_formEncode]
    · simpa using h
  simp [readValues, hsplit, Text.formDecode_formEncode, Function.comp_def]

theorem Operand.written_int (v : Int) : (int v).written =
    if 0 ≤ v then Text.decimal v.toNat else '-' :: Text.decimal (-v).toNat := by
  rw [written, Int.toString_eq_repr, Int.repr_eq_if]
  split <;> simp [Nat.repr, Text.decimal]

theorem Operand.readInt?_written (v : Int) : readInt? (int v).written = some v := by
  rw [written_int]
  split
  · rename_i hv
    have hread : readInt? (Text.decimal v.toNat) = some (Int.ofNat v.toNat) := by
      unfold readInt?
      split
      · rename_i s hs
        have : '-'.isDigit = true := Text.isDigit_of_mem_decimal (n := v.toNat) (by rw [hs]; simp)
        contradiction
      · rw [Text.readDigits_decimal, Option.map_some]
    rw [hread, Int.ofNat_eq_natCast, Int.toNat_of_nonneg hv]
  · rename_i hv
    have hneg : -Int.ofNat (-v).toNat = v := by
      rw [Int.ofNat_eq_natCast]
      omega
    rw [readInt?, Text.readDigits_decimal, Option.map_some, hneg]

theorem Comparison.read?_symbol (r : Comparison) {s : List Char} (h : s.head? ≠ some '=') :
    read? (r.symbol ++ s) = some (r, s) := by
  cases r with
  | atMost => rfl
  | atLeast => rfl
  | less =>
    cases s with
    | nil => rfl
    | cons c s =>
      have hc : c ≠ '=' := fun hc => h (congrArg some hc)
      simp [symbol, read?, hc]
  | greater =>
    cases s with
    | nil => rfl
    | cons c s =>
      have hc : c ≠ '=' := fun hc => h (congrArg some hc)
      simp [symbol, read?, hc]

/-! ## Fragments -/

theorem Operand.head?_written_int (v : Int) : (int v).written.head? ≠ some '=' := by
  have hdigit : ∀ n, (Text.decimal n).head? ≠ some '=' := by
    intro n hn
    have : '='.isDigit = true := Text.isDigit_of_mem_decimal (List.mem_of_mem_head? hn)
    contradiction
  rw [written_int]
  split
  · exact hdigit _
  · simp

/-- Whatever stands behind the name of a field cannot be a part of it, and is read back. -/
theorem Test.exists_suffix {test : Test} (h : test.Readable) (ha : test ≠ absent)
    (field : List Char) : ∃ rest, Filter.testFragment field test = field ++ rest ∧
      read? rest = some test ∧ ∀ c ∈ rest.head?, isWordChar c = false := by
  cases test with
  | among vs =>
    refine ⟨'=' :: Filter.values vs, rfl, ?_, by simp; decide⟩
    rw [read?, Filter.readValues_values h]
  | notAmong vs =>
    refine ⟨'!' :: '=' :: Filter.values vs, rfl, ?_, by simp; decide⟩
    rw [read?, Filter.readValues_values h]
  | present => exact ⟨[], (List.append_nil _).symm, rfl, by simp⟩
  | absent => exact absurd rfl ha
  | pattern text => exact h.elim
  | compare relation bound =>
    cases bound with
    | real value => exact h.elim
    | text value => exact h.elim
    | int v =>
      have hread := Comparison.read?_symbol relation (Operand.head?_written_int v)
      refine ⟨relation.symbol ++ (Operand.int v).written, List.append_assoc .., ?_, ?_⟩
      · have hlast : read? (relation.symbol ++ (Operand.int v).written) =
            (do
              let (r, b) ← Comparison.read? (relation.symbol ++ (Operand.int v).written)
              return compare r (.int (← Operand.readInt? b))) := by
          cases relation <;> rfl
        rw [hlast, hread]
        simp [Operand.readInt?_written]
      · cases relation <;> simp [Comparison.symbol] <;> decide

theorem Filter.read?_word {field : FieldName} {rest : List Char}
    (hw : field.chars.all isWordChar = true) (hr : ∀ c ∈ rest.head?, isWordChar c = false) :
    read? (field.chars ++ rest) = (Test.read? rest).map (on field) := by
  have hfirst : ∀ name, field.chars ++ rest ≠ '!' :: name := by
    intro name h
    have hmark : isWordChar '!' = false := by decide
    cases hc : field.chars with
    | nil => exact field.nonempty hc
    | cons c cs =>
      rw [hc, List.cons_append] at h
      rw [hc, (List.cons.inj h).1, List.all_cons, hmark] at hw
      contradiction
  rw [read?.eq_2 _ hfirst, span_word hw hr]
  simp only [FieldName.read?_chars, Option.bind_eq_bind, Option.bind_some]
  cases Test.read? rest <;> rfl

theorem Filter.read?_fragment {f : Filter} (h : f.Readable) : read? f.fragment = some f := by
  cases f with
  | raw text => exact h.elim
  | on field test =>
    obtain ⟨hword, _, htest⟩ := h
    by_cases ha : test = .absent
    · subst ha
      rw [fragment, testFragment, read?, FieldName.read?_chars, Option.map_some]
    · obtain ⟨rest, hfragment, hread, hhead⟩ := Test.exists_suffix htest ha field.chars
      rw [fragment, hfragment, read?_word hword hhead, hread, Option.map_some]

theorem SortKey.read?_text {k : SortKey} (h : k.Readable) : read? k.text = some k := by
  have hcolon : ∀ c ∈ k.field.toList, (c != ':') = true := fun c hc => by
    have hword := List.all_eq_true.mp h c hc
    rw [bne_iff_ne]
    rintro rfl
    revert hword
    decide
  have hspan : k.text.span (· != ':') = (k.field.toList, ':' :: k.direction.name.toList) := by
    rw [text, List.span_eq_takeWhile_dropWhile, List.takeWhile_append_of_pos hcolon,
      List.dropWhile_append_of_pos hcolon]
    simp
  unfold read?
  rw [hspan]
  simp [Direction.ofName?_name]

namespace Options

namespace Step

def assignment (name : String) (value : List Char) : List Char := name.toList ++ '=' :: value

def fragment : Step → List Char
  | filter f => f.fragment
  | sort k => assignment "sort" k.text
  | limit n => assignment "limit" (Text.decimal n.toNat)
  | page n => assignment "page" (Text.decimal n.toNat)
  | offset n => assignment "offset" (Text.decimal n.toNat)

def Readable : Step → Prop
  | filter f => f.Readable
  | sort k => k.Readable
  | _ => True

theorem readCount32_decimal (n : UInt32) : Text.readCount32 (Text.decimal n.toNat) = some n := by
  rw [Text.readCount32, Text.readBelow_decimal n.toNat_lt, Option.map_some, UInt32.ofNat_toNat]

theorem read?_assignment {name : String} {read : List Char → Option Step}
    (hn : name.toList.all isWordChar = true) (hp : parameter? name.toList = some read)
    (value : List Char) : read? (assignment name value) = read value := by
  have hspan : (name.toList ++ '=' :: value).span isWordChar = (name.toList, '=' :: value) :=
    span_word hn (by simp; decide)
  unfold read? assignment
  rw [hspan]
  simp only [hp]

theorem read?_filter {s name rest : List Char} (hs : s.span isWordChar = (name, rest))
    (hp : parameter? name = none) : read? s = (Filter.read? s).map filter := by
  unfold read?
  rw [hs]
  split
  · rename_i heq
    rw [← (Prod.mk.inj heq).1, hp]
  · rfl

theorem parameter?_eq_none {name : List Char}
    (h : name ∉ ["sort", "limit", "page", "offset"].map String.toList) : parameter? name = none := by
  simp only [List.map_cons, List.map_nil, List.mem_cons, List.not_mem_nil, or_false, not_or] at h
  obtain ⟨hsort, hlimit, hpage, hoffset⟩ := h
  rw [parameter?, if_neg hsort, if_neg hlimit, if_neg hpage, if_neg hoffset]

/-- A fragment of a filter is not taken for a parameter. -/
theorem read?_fragment_filter {f : Filter} (h : f.Readable) :
    read? f.fragment = (Filter.read? f.fragment).map filter := by
  cases f with
  | raw text => exact h.elim
  | on field test =>
    obtain ⟨hword, hname, htest⟩ := h
    by_cases ha : test = .absent
    · subst ha
      have hspan : ('!' :: field.chars).span isWordChar = ([], '!' :: field.chars) := rfl
      exact read?_filter hspan rfl
    · obtain ⟨rest, hfragment, _, hhead⟩ := Test.exists_suffix htest ha field.chars
      rw [Filter.fragment, hfragment]
      exact read?_filter (span_word hword hhead) (parameter?_eq_none hname)

theorem read?_fragment {step : Step} (h : step.Readable) : read? step.fragment = some step := by
  cases step with
  | filter f =>
    rw [fragment, read?_fragment_filter h, Filter.read?_fragment h, Option.map_some]
  | sort k =>
    rw [fragment, read?_assignment (by decide) rfl, SortKey.read?_text h, Option.map_some]
  | limit n =>
    rw [fragment, read?_assignment (by decide) rfl, readCount32_decimal, Option.map_some]
  | page n =>
    rw [fragment, read?_assignment (by decide) rfl, readCount32_decimal, Option.map_some]
  | offset n =>
    rw [fragment, read?_assignment (by decide) rfl, readCount32_decimal, Option.map_some]

end Step

end Options

end OneApi
