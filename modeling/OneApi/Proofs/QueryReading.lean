import OneApi.Proofs.FragmentReading
import OneApi.Proofs.RequestAddress

/-! Reading a query back. The fragments of a query hold no ampersand, so they can be told apart, and
each is one change to the options. Of their characters an address encodes the angle brackets only. -/

namespace OneApi

namespace Options

/-- Finds the options that a query was written from. -/
def read? (query : List Char) : Option Options :=
  if query.isEmpty then some {} else ((query.splitOn '&').mapM Step.read?).map ofSteps

structure Readable (o : Options) : Prop where
  filters : ∀ f ∈ o.filters, f.Readable
  sort : ∀ k ∈ o.sort, k.Readable

variable {o : Options}

/-- The changes that make up the options, in the order in which they are written. -/
def steps (o : Options) : List Step :=
  o.filters.map .filter ++ o.sort.toList.map .sort ++ o.limit.toList.map .limit ++
    o.page.toList.map .page ++ o.offset.toList.map .offset

theorem fragments_eq (o : Options) : o.fragments = o.steps.map Step.fragment := by
  have hparameter (name : String) (n : Option UInt32) (step : UInt32 → Step)
      (h : ∀ n, (step n).fragment = Step.assignment name (Text.decimal n.toNat)) :
      parameter name n = (n.toList.map step).map Step.fragment := by
    cases n <;> simp [parameter, h, Step.assignment]
  rw [fragments, hparameter "limit" _ .limit (fun _ => rfl), hparameter "page" _ .page (fun _ => rfl),
    hparameter "offset" _ .offset (fun _ => rfl)]
  simp only [steps, List.map_append, List.map_map]
  rfl

theorem ofSteps_steps (o : Options) : ofSteps o.steps = o := by
  have hfilters (fs : List Filter) (p : Options) :
      (fs.map Step.filter).foldl apply p = { p with filters := p.filters ++ fs } := by
    induction fs generalizing p with
    | nil => simp
    | cons f fs ih => simp [apply, withFilter, ih]
  obtain ⟨filters, sort, limit, page, offset⟩ := o
  simp only [ofSteps, steps, List.foldl_append, hfilters, List.nil_append]
  cases sort <;> cases limit <;> cases page <;> cases offset <;> rfl

theorem Readable.steps (h : o.Readable) : ∀ step ∈ o.steps, step.Readable := by
  intro step hstep
  simp only [Options.steps, List.mem_append, List.mem_map, Option.mem_toList] at hstep
  rcases hstep with (((⟨f, hf, rfl⟩ | ⟨k, hk, rfl⟩) | ⟨n, _, rfl⟩) | ⟨n, _, rfl⟩) | ⟨n, _, rfl⟩
  · exact h.filters f hf
  · exact h.sort k hk
  · trivial
  · trivial
  · trivial

end Options

/-! ## Characters of a query -/

/-- The characters of fragments: those of form-encoded texts and the marks around them. -/
def isQueryChar (c : Char) : Bool :=
  Text.isFormSafe c || ['=', '!', '<', '>', ',', ':', '+', '%'].contains c

theorem toNat_lt_of_isAlphanum {c : Char} (h : c.isAlphanum = true) : c.toNat < 128 := by
  have hbelow (n : UInt32) (hn : n.toNat < 128) (hc : c.val ≤ n) : c.toNat < 128 :=
    Nat.lt_of_le_of_lt (UInt32.le_iff_toNat_le.mp hc) hn
  have hparts : (c.isUpper || c.isLower || c.isDigit) = true := h
  rw [Bool.or_eq_true, Bool.or_eq_true] at hparts
  rcases hparts with (hupper | hlower) | hdigit
  · have hrange : c.val ≥ 'A'.val ∧ c.val ≤ 'Z'.val := of_decide_eq_true hupper
    exact hbelow 'Z'.val (by decide) hrange.2
  · have hrange : (decide (c.val ≥ 'a'.val) && decide (c.val ≤ 'z'.val)) = true := hlower
    rw [Bool.and_eq_true] at hrange
    exact hbelow 'z'.val (by decide) (of_decide_eq_true hrange.2)
  · have hrange : (decide (c.val ≥ '0'.val) && decide (c.val ≤ '9'.val)) = true := hdigit
    rw [Bool.and_eq_true] at hrange
    exact hbelow '9'.val (by decide) (of_decide_eq_true hrange.2)

theorem toNat_lt_of_isQueryChar {c : Char} (h : isQueryChar c = true) : c.toNat < 128 := by
  simp only [isQueryChar, Text.isFormSafe, Bool.or_eq_true, beq_iff_eq, List.contains_eq_mem,
    decide_eq_true_eq, List.mem_cons, List.not_mem_nil, or_false] at h
  rcases h with ((((h | rfl) | rfl) | rfl) | rfl) | h
  · exact toNat_lt_of_isAlphanum h
  · decide
  · decide
  · decide
  · decide
  · rcases h with rfl | rfl | rfl | rfl | rfl | rfl | rfl | rfl <;> decide

/-- Of the characters of a query an address encodes the angle brackets only. -/
theorem keepExcept_queryChar {c : Char} (h : isQueryChar c = true ∨ c = '&') :
    Url.keepExcept ('\'' :: Url.queryMarks) c = (c != '<' && c != '>') ∧
      Url.keepExcept Url.queryMarks c = (c != '<' && c != '>') ∧ Url.isTabOrNewline c = false := by
  have hlt : c.toNat < 128 := by
    rcases h with h | rfl
    · exact toNat_lt_of_isQueryChar h
    · decide
  revert h
  refine Text.forall_ascii hlt ?_
  decide +kernel

theorem all_isQueryChar_of_word {s : List Char} (h : s.all isWordChar = true) :
    s.all isQueryChar = true := by
  refine List.all_eq_true.mpr fun c hc => ?_
  have hword := List.all_eq_true.mp h c hc
  simp only [isWordChar, Bool.or_eq_true] at hword
  simp only [isQueryChar, Text.isFormSafe, Bool.or_eq_true]
  tauto

theorem all_isQueryChar_decimal (n : Nat) : (Text.decimal n).all isQueryChar = true := by
  refine List.all_eq_true.mpr fun c hc => ?_
  rw [isQueryChar, Text.isFormSafe_of_isDigit (Text.isDigit_of_mem_decimal hc), Bool.true_or]

theorem Filter.all_values (vs : List String) : (values vs).all isQueryChar = true := by
  apply Text.all_intercalate (by decide)
  intro l hl
  obtain ⟨v, _, rfl⟩ := List.mem_map.mp hl
  refine List.all_eq_true.mpr fun c hc => ?_
  rcases Text.mem_formEncode hc with hc | rfl | rfl
  · rw [isQueryChar, hc, Bool.true_or]
  · decide
  · decide

theorem Filter.all_fragment {f : Filter} (h : f.Readable) : f.fragment.all isQueryChar = true := by
  have hequals : isQueryChar '=' = true := by decide
  have hmark : isQueryChar '!' = true := by decide
  cases f with
  | raw text => exact h.elim
  | on field test =>
    obtain ⟨hword, _, htest⟩ := h
    have hfield := all_isQueryChar_of_word hword
    cases test with
    | among vs => simp only [fragment, testFragment, List.all_append, List.all_cons, hfield, hequals,
        all_values, Bool.and_self]
    | notAmong vs => simp only [fragment, testFragment, List.all_append, List.all_cons, hfield,
        hequals, hmark, all_values, Bool.and_self]
    | present => exact hfield
    | absent => simp only [fragment, testFragment, List.all_cons, hfield, hmark, Bool.and_self]
    | pattern text => exact htest.elim
    | compare relation bound =>
      cases bound with
      | real value => exact htest.elim
      | text value => exact htest.elim
      | int v =>
        have hsymbol : relation.symbol.all isQueryChar = true := by cases relation <;> decide
        have hbound : (Operand.int v).written.all isQueryChar = true := by
          rw [Operand.written_int]
          split
          · exact all_isQueryChar_decimal _
          · rw [List.all_cons, all_isQueryChar_decimal]
            decide
        simp only [fragment, testFragment, List.all_append, hfield, hsymbol, hbound, Bool.and_self]

theorem SortKey.all_text {k : SortKey} (h : k.Readable) : k.text.all isQueryChar = true := by
  have hdirection : k.direction.name.toList.all isQueryChar = true := by
    cases k.direction <;> decide
  rw [text, List.all_append, List.all_cons, all_isQueryChar_of_word h, hdirection]
  decide

theorem Options.Step.all_fragment {step : Step} (h : step.Readable) :
    step.fragment.all isQueryChar = true := by
  have hassignment {name : String} {value : List Char} (hn : name.toList.all isQueryChar = true)
      (hv : value.all isQueryChar = true) : (assignment name value).all isQueryChar = true := by
    rw [assignment, List.all_append, List.all_cons, hn, hv]
    decide
  cases step with
  | filter f => exact Filter.all_fragment h
  | sort k => exact hassignment (by decide) (SortKey.all_text h)
  | limit n => exact hassignment (by decide) (all_isQueryChar_decimal _)
  | page n => exact hassignment (by decide) (all_isQueryChar_decimal _)
  | offset n => exact hassignment (by decide) (all_isQueryChar_decimal _)

/-! ## Queries -/

namespace Options

variable {o p : Options}

theorem Step.mapM_read?_fragment {steps : List Step} (h : ∀ step ∈ steps, step.Readable) :
    (steps.map fragment).mapM read? = some steps := by
  induction steps with
  | nil => rfl
  | cons step steps ih =>
    obtain ⟨hstep, hsteps⟩ := List.forall_mem_cons.mp h
    rw [List.map_cons, List.mapM_cons, read?_fragment hstep, ih hsteps]
    rfl

theorem splitOn_query (h : o.Readable) (hs : o.steps ≠ []) :
    o.query.splitOn '&' = o.steps.map Step.fragment := by
  rw [query, fragments_eq]
  apply List.splitOn_intercalate
  · intro l hl hmem
    obtain ⟨step, hstep, rfl⟩ := List.mem_map.mp hl
    have hchar := List.all_eq_true.mp (Step.all_fragment (h.steps step hstep)) _ hmem
    revert hchar
    decide
  · simpa using hs

theorem read?_query (h : o.Readable) : read? o.query = some o := by
  by_cases hs : o.steps = []
  · have hquery : o.query = [] := by rw [query, fragments_eq, hs]; rfl
    rw [read?, hquery, List.isEmpty_nil, if_pos rfl, ← ofSteps_steps o, hs]
    rfl
  · have hread := Step.mapM_read?_fragment h.steps
    rw [← splitOn_query h hs] at hread
    have hquery : o.query.isEmpty = false := by
      rw [Bool.eq_false_iff, ne_eq, List.isEmpty_iff]
      intro hempty
      have hnone : (([] : List Char).splitOn '&').mapM Step.read? = none := by decide
      rw [hempty, hnone] at hread
      contradiction
    rw [read?, hquery, hread, Option.map_some, ofSteps_steps]
    rfl

theorem forall_mem_query (h : o.Readable) : ∀ c ∈ o.query, isQueryChar c = true ∨ c = '&' := by
  have hall : o.query.all (fun c => isQueryChar c || c == '&') = true := by
    rw [query, fragments_eq]
    apply Text.all_intercalate (by decide)
    intro l hl
    obtain ⟨step, hstep, rfl⟩ := List.mem_map.mp hl
    refine List.all_eq_true.mpr fun c hc => ?_
    rw [List.all_eq_true.mp (Step.all_fragment (h.steps step hstep)) c hc, Bool.true_or]
  intro c hc
  simpa using List.all_eq_true.mp hall c hc

end Options

/-- Both angle brackets percent-encoded, and nothing else. -/
def escapeBrackets (s : List Char) : List Char :=
  s.flatMap fun c => if c = '<' then ['%', '3', 'C'] else if c = '>' then ['%', '3', 'E'] else [c]

theorem Url.encode_query {o : Options} (h : o.Readable) {marks : List Char}
    (hm : marks = queryMarks ∨ marks = '\'' :: queryMarks) :
    encode marks (dropTabs o.query) = escapeBrackets o.query := by
  have hchars := Options.forall_mem_query h
  have htabs : dropTabs o.query = o.query := by
    refine List.filter_eq_self.mpr fun c hc => ?_
    rw [(keepExcept_queryChar (hchars c hc)).2.2]
    rfl
  rw [htabs, encode, Text.percentEncode, escapeBrackets]
  refine List.flatMap_congr fun c hc => ?_
  have hkeep : keepExcept marks c = (c != '<' && c != '>') := by
    obtain ⟨hspecial, hother, _⟩ := keepExcept_queryChar (hchars c hc)
    rcases hm with rfl | rfl
    · exact hother
    · exact hspecial
  by_cases hless : c = '<'
  · subst hless
    rw [hkeep]
    decide
  · by_cases hgreater : c = '>'
    · subst hgreater
      rw [hkeep]
      decide
    · simp [hkeep, hless, hgreater]

namespace Options

variable {σ : Type} {text key : String} {transport : Transport σ} {c : Connection σ} {o p : Options}

/-- **Queries can be read back.** The reader finds the options that a query was written from: the
filters in order with their values, the sort key and the window. So different options are written
differently. The address of a request holds the query with its angle brackets encoded, and nothing
else of it is changed. -/
theorem query_read_back [Url.DomainNames] (ho : o.Readable) (hp : p.Readable)
    (hc : Connection.connect text key transport = .ok c) (path : String) (segments : List String) :
    read? o.query = some o ∧ (o.query = p.query ↔ o = p) ∧
    (c.address path segments o).query =
      if o.query = [] then none else some (escapeBrackets o.query) := by
  refine ⟨read?_query ho, ⟨fun h => ?_, congrArg query⟩, ?_⟩
  · have hsame : some o = some p := by rw [← read?_query ho, ← read?_query hp, h]
    exact Option.some.inj hsame
  · obtain ⟨guarded, segs, hpath⟩ := Connection.path_of_connect hc
    obtain ⟨names, _, hendpoint⟩ := Url.endpoint_eq hpath path.toList (segments.map String.toList)
    rw [Connection.address, hendpoint]
    simp only [Url.withQuery, List.isEmpty_iff]
    split
    · rfl
    · rw [Url.encode_query ho]
      split
      · exact .inr rfl
      · exact .inl rfl

/-- Every kind of test, with values that hold the marks of queries. -/
theorem query_read_back_marks :
    let base : Url := ⟨"http".toList, some ⟨[], [], .name "host.test".toList, none⟩,
      .hierarchical false ["v2".toList], none, none⟩
    let c : Connection Script := ⟨base, "key", Script.transport⟩
    let name := FieldName.ofMovieField .name
    let o : Options :=
      { filters := [.on name (.among ["a&limit=1", "\u00e9,+%"]), .on name (.notAmong [""]),
          .on name .present, .on name .absent, .on name (.compare .atMost (.int (-3)))]
        sort := some ⟨"limit", .descending⟩, limit := some 0, page := some 7 }
    read? o.query = some o ∧ (o.query = query {} ↔ o = {}) ∧
      (c.address "/movie" [] o).query = some (escapeBrackets o.query) := by
  let names := Url.DomainNames.ascii
  intro base c name o
  have ho : o.Readable := by
    refine ⟨?_, ?_⟩
    · have hname {test : Test} (h : test.Readable) : (Filter.on name test).Readable :=
        ⟨by decide, by decide, h⟩
      simp only [o, List.forall_mem_cons]
      exact ⟨hname (by simp [Test.Readable]), hname (by simp [Test.Readable]), hname trivial,
        hname trivial, hname trivial, by simp⟩
    · rintro k ⟨⟩
      have hword : "limit".toList.all isWordChar = true := by decide
      exact hword
  have hp : Readable {} := ⟨by simp, by simp⟩
  have hparse : Url.parse "http://host.test/v2".toList = .ok base := by decide +kernel
  have hc : Connection.connect "http://host.test/v2" "key" Script.transport = .ok c := by
    rw [Connection.connect, hparse]
  obtain ⟨hread, hsame, hquery⟩ := query_read_back ho hp hc "/movie" []
  have hne : o.query ≠ [] := fun h => by
    have hempty : o = {} := hsame.mp h
    simp [o] at hempty
  rw [if_neg hne] at hquery
  exact ⟨hread, hsame, hquery⟩

end Options

end OneApi
