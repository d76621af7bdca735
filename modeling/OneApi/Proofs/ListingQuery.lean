import OneApi.Command.Execution
import OneApi.Proofs.EncodedForm
import OneApi.Proofs.ItemAddress
import OneApi.Proofs.RequestAddress

/-! What the service is asked for by a listing on the command line. The values of switches reach it
as the pairs of one query, in a fixed order. The pattern for dialogs and the sort key are put into
the query as they are, so they arrive unchanged exactly when they are verbatim; everything else
always does. -/

namespace OneApi

/-! ## Pairs in addresses -/

namespace Url

/-- The pairs that a server reads from the query in the text of an address. -/
def askedPairs (text : List Char) : List (String × String) :=
  Text.formPairs (((text.dropWhile (· != '?')).drop 1).takeWhile (· != '#'))

theorem keepsForm_query {marks : List Char} (hm : marks = queryMarks ∨ marks = '\'' :: queryMarks) :
    Text.KeepsForm (keepExcept marks) := by
  have hhex (c : Char) (hc : Text.isHex c = true) :
      keepExcept queryMarks c = true ∧ keepExcept ('\'' :: queryMarks) c = true := by
    have hlt : c.toNat < 128 := of_decide_eq_true (Text.isAscii_of_isHex hc)
    revert hc
    refine Text.forall_ascii hlt ?_
    decide +kernel
  rcases hm with rfl | rfl
  · exact ⟨by decide, by decide, by decide, by decide, fun c hc => (hhex c hc).1⟩
  · exact ⟨by decide, by decide, by decide, by decide, fun c hc => (hhex c hc).2⟩

theorem formPairs_withQuery (u : Url) (query : List Char) :
    Text.formPairs ((u.withQuery query).query.getD []) = Text.formPairs (dropTabs query) := by
  simp only [withQuery]
  split
  · rename_i hempty
    rw [List.isEmpty_iff.mp hempty]
    rfl
  · rw [Option.getD_some, encode]
    apply Text.formPairs_percentEncode (keepsForm_query _)
    split
    · exact .inr rfl
    · exact .inl rfl

theorem askedPairs_front {front : List Char} (hf : Bare front) {query : Option (List Char)}
    (hq : '#' ∉ marked '?' query) :
    askedPairs (front ++ marked '?' query) = Text.formPairs (query.getD []) := by
  rw [askedPairs, List.dropWhile_append_of_pos hf.ne_question]
  cases query with
  | none => rfl
  | some q =>
    have hhash := Text.bne_of_not_mem fun hc : '#' ∈ q => hq (List.mem_cons_of_mem _ hc)
    have hdrop : ((marked '?' (some q)).dropWhile (· != '?')).drop 1 = q := by simp [marked]
    rw [hdrop, Text.takeWhile_eq_self hhash, Option.getD_some]

end Url

open Url

/-- What a server reads from a request depends on the query only. -/
theorem Connection.askedPairs_address [DomainNames] {σ : Type} {text key : String}
    {transport : Transport σ} {c : Connection σ} (hc : connect text key transport = .ok c)
    (path : String) (segments : List String) (o : Options) :
    askedPairs (c.address path segments o).text = Text.formPairs (dropTabs o.query) := by
  obtain ⟨guarded, segs, hp⟩ := path_of_connect hc
  have hbare := bare_of_parse (connect_ok hc).1
  obtain ⟨names, hnames, hendpoint⟩ := endpoint_eq hp path.toList (segments.map String.toList)
  have hfront : Bare (c.base.origin ++ (Url.Path.hierarchical guarded names).written) :=
    bare_front (u := { c.base with path := .hierarchical guarded names }) hbare rfl hnames
  rw [address, hendpoint o.query, ← formPairs_withQuery c.base,
    ← askedPairs_front hfront (hash_not_mem_withQuery c.base o.query)]
  exact congrArg askedPairs (List.append_nil _)

namespace Command

open Text

/-! ## Listings -/

/-- A parameter for a number, if one is given. -/
def numberPair (name : String) (n : Option UInt32) : List (String × String) :=
  n.toList.map fun n => (name, toString n.toNat)

namespace Task

/-- What a listing is given, as pairs of a name and a text. -/
def arguments : Task → List (String × String)
  | movies sort limit page _ =>
    (sort.toList.map fun k => ("sort", String.ofList k.text)) ++
      numberPair "limit" limit ++ numberPair "page" page
  | quotes dialog inMovie limit _ =>
    (dialog.toList.map fun r => ("dialog", r)) ++ (inMovie.toList.map fun m => ("movie", m)) ++
      numberPair "limit" limit
  | _ => []

/-- The text that a listing puts into its query as it is. -/
def raw? : Task → Option (List Char)
  | movies sort _ _ _ => sort.map SortKey.text
  | quotes dialog _ _ _ => dialog.map String.toList
  | _ => none

/-- Lists one page. -/
def isPage : Task → Bool
  | movies _ _ _ all => !all
  | quotes _ _ _ all => !all
  | _ => false

end Task

theorem parameter_whole {name : String} (hn : IsKey name.toList) (n : Option UInt32) :
    ∀ part ∈ Options.parameter name n, Whole part := by
  cases n with
  | none => simp [Options.parameter]
  | some n => simpa [Options.parameter] using Verbatim.whole hn (verbatim_decimal n.toNat)

theorem formPair_parameter {name : String} (hn : IsKey name.toList) (n : Option UInt32) :
    (Options.parameter name n).map formPair = numberPair name n := by
  cases n with
  | none => rfl
  | some n =>
    have hread := hn.formPair_eq (decimal n.toNat)
    rw [(verbatim_decimal n.toNat).formDecode_eq, String.ofList_toList] at hread
    have htext : toString n.toNat = String.ofList (decimal n.toNat) := rfl
    simp only [Options.parameter, List.map_cons, List.map_nil, hread, numberPair,
      Option.toList_some, htext]

/-- The movie that quotes are asked for, as a fragment. -/
def movieParts (inMovie : Option String) : List (List Char) :=
  inMovie.toList.map fun m => "movie".toList ++ '=' :: formEncode m.toList

theorem movieParts_whole (inMovie : Option String) : ∀ part ∈ movieParts inMovie, Whole part := by
  cases inMovie with
  | none => simp [movieParts]
  | some m =>
    have hn : IsKey "movie".toList := by decide
    simpa [movieParts] using whole_formEncode hn m.toList

theorem formPair_movieParts (inMovie : Option String) :
    (movieParts inMovie).map formPair = inMovie.toList.map fun m => ("movie", m) := by
  cases inMovie with
  | none => rfl
  | some m =>
    have hn : IsKey "movie".toList := by decide
    have hread := hn.formPair_eq (formEncode m.toList)
    rw [formDecode_formEncode, String.ofList_toList, String.ofList_toList] at hread
    simpa [movieParts] using hread

theorem fragments_quotes (dialog inMovie : Option String) (limit : Option UInt32) :
    Options.fragments { filters := quoteFilters dialog inMovie, limit } =
      ((dialog.map String.toList).toList.map fun r => "dialog".toList ++ '=' :: r) ++
        (movieParts inMovie ++ Options.parameter "limit" limit) := by
  have hdialog (r : String) : (Filter.on (.ofQuoteField .dialog) (.pattern r)).fragment =
      "dialog".toList ++ '=' :: r.toList := rfl
  have hmovie (m : String) : (Filter.equals (.ofQuoteField .movie) m).fragment =
      "movie".toList ++ '=' :: formEncode m.toList := by
    have hvalues : Filter.values [m] = formEncode m.toList := by simp [Filter.values]
    rw [← hvalues]
    rfl
  cases dialog <;> cases inMovie <;>
    simp [Options.fragments, quoteFilters, movieParts, Options.parameter, hdialog, hmovie]

theorem fragments_movies (sort : Option SortKey) (limit page : Option UInt32) :
    Options.fragments { sort, limit, page } =
      ((sort.map SortKey.text).toList.map fun r => "sort".toList ++ '=' :: r) ++
        (Options.parameter "limit" limit ++ Options.parameter "page" page) := by
  cases sort <;> simp [Options.fragments, Options.parameter]

theorem list_requests {α : Type} [Document α] {c : Connection Script}
    (hc : c.transport = Script.transport) (format : Format) (doing : Circumstance) (path : String)
    (o : Options) (s : Script) :
    (list format doing (⟨path, c⟩ : Collection Script α) o false s).2.requests =
      s.requests ++ [c.request path [] o] := by
  have hpage := Connection.page_requests (α := α) hc path [] o s
  unfold list Collection.list
  rw [if_neg (by decide)]
  rw [← hpage]
  split <;> simp_all

namespace Task

theorem query_movies_iff (sort : Option SortKey) (limit page : Option UInt32) :
    formPairs (dropTabs (Options.query { sort, limit, page })) =
        (movies sort limit page false).arguments ↔
      ∀ raw ∈ (movies sort limit page false).raw?, Verbatim raw := by
  have hsort : IsKey "sort".toList := by decide
  have hlimit : IsKey "limit".toList := by decide
  have hpage : IsKey "page".toList := by decide
  have hiff := formPairs_raw?_iff (sort.map SortKey.text) hsort
    (List.forall_mem_append.mpr ⟨parameter_whole hlimit limit, parameter_whole hpage page⟩)
  rw [List.map_append, formPair_parameter hlimit, formPair_parameter hpage] at hiff
  have harguments : (movies sort limit page false).arguments =
      ((sort.map SortKey.text).toList.map fun r => (String.ofList "sort".toList, String.ofList r)) ++
        (numberPair "limit" limit ++ numberPair "page" page) := by
    cases sort <;> simp [arguments]
  rw [Options.query, fragments_movies, harguments]
  exact hiff

theorem query_quotes_iff (dialog inMovie : Option String) (limit : Option UInt32) :
    formPairs (dropTabs (Options.query { filters := quoteFilters dialog inMovie, limit })) =
        (quotes dialog inMovie limit false).arguments ↔
      ∀ raw ∈ (quotes dialog inMovie limit false).raw?, Verbatim raw := by
  have hdialog : IsKey "dialog".toList := by decide
  have hlimit : IsKey "limit".toList := by decide
  have hiff := formPairs_raw?_iff (dialog.map String.toList) hdialog
    (List.forall_mem_append.mpr ⟨movieParts_whole inMovie, parameter_whole hlimit limit⟩)
  rw [List.map_append, formPair_movieParts, formPair_parameter hlimit] at hiff
  have harguments : (quotes dialog inMovie limit false).arguments =
      ((dialog.map String.toList).toList.map fun r =>
          (String.ofList "dialog".toList, String.ofList r)) ++
        ((inMovie.toList.map fun m => ("movie", m)) ++ numberPair "limit" limit) := by
    cases dialog <;> simp [arguments]
  rw [Options.query, fragments_quotes, harguments]
  exact hiff

/-- **What a listing of one page asks for.** It sends one request, and the service reads from its
query what the listing was given and nothing else, exactly when the text that goes into the query
as it is holds no ampersand, plus sign, tab, line end or escape. -/
theorem asks_for_arguments [DomainNames] {text key : String} {c : Connection Script}
    (hc : Connection.connect text key Script.transport = .ok c) {task : Task}
    (hpage : task.isPage = true) (format : Format) (s : Script) :
    ∃ q, (task.run (.ofConnection c) format s).2.requests = s.requests ++ [q] ∧
      (askedPairs q.url.toList = task.arguments ↔ ∀ raw ∈ task.raw?, Verbatim raw) := by
  have htransport := (Connection.connect_ok hc).2.2
  have hpairs (path : String) (o : Options) :
      askedPairs (c.request path [] o).url.toList = formPairs (dropTabs o.query) := by
    rw [← Connection.askedPairs_address hc path [] o]
    exact congrArg askedPairs String.toList_ofList
  cases task with
  | movies sort limit page all =>
    have hall : all = false := by simpa [isPage] using hpage
    subst hall
    refine ⟨_, list_requests htransport format .listingMovies Service.moviePath _ s, ?_⟩
    rw [hpairs]
    exact query_movies_iff sort limit page
  | quotes dialog inMovie limit all =>
    have hall : all = false := by simpa [isPage] using hpage
    subst hall
    refine ⟨_, list_requests htransport format .listingQuotes Service.quotePath _ s, ?_⟩
    rw [hpairs]
    exact query_quotes_iff dialog inMovie limit
  | movie id withQuotes => contradiction
  | quote id => contradiction

/-- A pattern without such marks, and a movie with an ampersand. -/
theorem asks_for_arguments_pattern :
    let task := quotes (some "/ring 100%/i") (some "a&b") (some 5) false
    ∃ q, (task.run (.ofConnection (.service "key")) .lines { answers := [] }).2.requests = [q] ∧
      askedPairs q.url.toList = [("dialog", "/ring 100%/i"), ("movie", "a&b"), ("limit", "5")] := by
  let names := DomainNames.ascii
  intro task
  have hpage : task.isPage = true := rfl
  obtain ⟨q, hq, hpairs⟩ :=
    asks_for_arguments (Connection.connect_service "key") hpage .lines { answers := [] }
  have hraw : ∀ raw ∈ task.raw?, Verbatim raw := by
    rintro raw ⟨⟩
    decide
  exact ⟨q, hq, hpairs.mpr hraw⟩

/-- A plus sign in a pattern is read as a space. -/
theorem plus_in_pattern_is_lost :
    let task := quotes (some "/rings+/i") none none false
    let q : Request := ⟨"https://the-one-api.dev/v2/quote?dialog=/rings+/i", "key"⟩
    (task.run (.ofConnection (.service "key")) .lines { answers := [] }).2.requests = [q] ∧
      askedPairs q.url.toList = [("dialog", "/rings /i")] ∧
      askedPairs q.url.toList ≠ task.arguments := by
  decide +kernel

end Task

end Command

end OneApi
