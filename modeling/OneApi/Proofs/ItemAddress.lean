import OneApi.Proofs.PathSegments
import OneApi.Proofs.Requests

/-! Where the calls that take an id go. An id is checked as it stands, but what is appended to a path
is the id without tabs and newlines. So an accepted id names something below its collection unless
only a dot segment is left of it: such an id leads to the collection or out of it. -/

namespace OneApi

namespace Url

/-- A segment that names something below the path before it. -/
def IsName (s : Segment) : Prop := s ≠ [] ∧ Clean s

/-- The raw segment is a dot segment once tabs and newlines are dropped. -/
def IsHiddenDot (raw : List Char) : Prop := dropTabs raw = ['.'] ∨ dropTabs raw = ['.', '.']

instance (raw : List Char) : Decidable (IsHiddenDot raw) := inferInstanceAs (Decidable (_ ∨ _))

/-- The segment that an id becomes in an address of the web. -/
def idSegment (raw : List Char) : Segment := encode ('\\' :: segmentMarks) (dropTabs raw)

theorem idSegment_clean {raw : List Char} (h : ¬ IsHiddenDot raw) : Clean (idSegment raw) := by
  have hpercent : '%' ∈ '\\' :: segmentMarks := by decide
  refine ⟨encoded_encode (by decide) ?_, ?_, ?_⟩
  · intro c _ hk
    constructor <;> rintro rfl <;> revert hk <;> decide
  · exact Bool.eq_false_iff.mpr fun hd => h (.inl (eq_of_isDot_encode hpercent hd))
  · exact Bool.eq_false_iff.mpr fun hd => h (.inr (eq_of_isDoubleDot_encode hpercent hd))

theorem idSegment_isName {raw : List Char} (h : ¬ IsHiddenDot raw) (hne : dropTabs raw ≠ []) :
    IsName (idSegment raw) := by
  have hpercent : keepExcept ('\\' :: segmentMarks) '%' = false := by decide
  exact ⟨fun he => hne (Text.percentEncode_injective hpercent he), idSegment_clean h⟩

/-! ## Paths -/

variable {base : Url} {p : UInt16} {segs : List Segment} {name : Segment}

theorem eq_of_isTabOrNewline {c : Char} (h : isTabOrNewline c = true) :
    c = '\t' ∨ c = '\n' ∨ c = '\r' := by
  simpa only [isTabOrNewline, Bool.or_eq_true, beq_iff_eq, or_assoc] using h

theorem dropTabs_text (h : ∀ t ∈ segs, Encoded t) : dropTabs (Path.text segs) = Path.text segs := by
  rw [dropTabs, List.filter_eq_self]
  intro c hc
  obtain ⟨t, ht, hct⟩ := List.mem_flatMap.mp hc
  rcases List.mem_cons.mp hct with rfl | hct
  · decide
  · have hk := (h t ht c hct).1
    cases htab : isTabOrNewline c with
    | false => rfl
    | true =>
      rcases eq_of_isTabOrNewline htab with rfl | rfl | rfl <;> revert hk <;> decide

/-- A collection is put behind the path of the base without its final slashes. -/
theorem withPath_web (hk : base.kind = .web p) (hp : base.path = .hierarchical false segs)
    (hs : ∀ t ∈ segs, Clean t) (hn : Clean name) :
    base.withPath ('/' :: name) =
      { base with path := .hierarchical false (segs.rdropWhile List.isEmpty ++ [name]) } := by
  have hall : ∀ t ∈ segs.rdropWhile List.isEmpty ++ [name], Clean t :=
    List.forall_mem_append.mpr ⟨fun t ht => hs t ((List.rdropWhile_prefix _ segs).subset ht),
      List.forall_mem_singleton.mpr hn⟩
  have hjoined : joinedPath segs ('/' :: name) =
      Path.text (segs.rdropWhile List.isEmpty ++ [name]) := by
    rw [joinedPath, Path.dropEnd_text fun t ht => (hs t ht).encoded, Path.text_append,
      List.dropWhile_cons_of_pos rfl, hn.encoded.dropWhile_eq]
    simp [Path.text]
  unfold withPath
  rw [hp]
  simp only [hjoined, hk]
  rw [dropTabs_text fun t ht => (hall t ht).encoded, Path.segments_text rfl (by simp) hall]
  rfl

theorem endpoint_web (hk : base.kind = .web p) (hp : base.path = .hierarchical false segs)
    (hs : ∀ t ∈ segs, Clean t) (hn : Clean name) (ids : List (List Char)) (query : List Char) :
    base.endpoint ('/' :: name) ids query =
      { base with
        path := .hierarchical false
          (Path.append base.kind (segs.rdropWhile List.isEmpty ++ [name]) ids)
        query := (base.withQuery query).query
        fragment := none } := by
  unfold endpoint
  rw [withPath_web hk hp hs hn]
  rfl

theorem text_endpoint (base : Url) (segs : List Segment) (query : Option (List Char)) :
    Url.text { base with path := .hierarchical false segs, query := query, fragment := none } =
      base.origin ++ Path.text segs ++ marked '?' query :=
  List.append_nil _

/-! ## Appended ids -/

namespace Path

theorem append_cons (segs : List Segment) (hn : name ≠ []) (raw : List Char)
    (more : List (List Char)) :
    append (.web p) (segs ++ [name]) (raw :: more) =
      more.foldl (push (.web p)) (push (.web p) (segs ++ [name]) raw) := by
  simp [append, popEmpty_append segs hn]

theorem push_id (segs : List Segment) (hn : name ≠ []) {raw : List Char}
    (hraw : raw ≠ ['.'] ∧ raw ≠ ['.', '.']) :
    push (.web p) (segs ++ [name]) raw = place true (segs ++ [name]) (idSegment raw) := by
  refine push_web p (by simp) ?_ hraw
  intro h
  have hlast := congrArg List.getLast? h
  rw [List.getLast?_concat] at hlast
  exact hn (Option.some.inj hlast)

theorem push_name (segs : List Segment) (hn : name ≠ []) {raw : List Char}
    (hraw : ¬ IsHiddenDot raw) (hdot : raw ≠ ['.'] ∧ raw ≠ ['.', '.']) :
    push (.web p) (segs ++ [name]) raw = segs ++ [name, idSegment raw] := by
  rw [push_id segs hn hdot, place_of_clean true _ (idSegment_clean hraw), List.append_assoc]
  rfl

/-- A hidden dot leads to the collection, with an empty name. -/
theorem push_hiddenDot (segs : List Segment) (hn : name ≠ []) {raw : List Char}
    (h : dropTabs raw = ['.']) (hraw : raw ≠ ['.'] ∧ raw ≠ ['.', '.']) :
    push (.web p) (segs ++ [name]) raw = segs ++ [name, []] := by
  have hseg : idSegment raw = ['.'] := by
    rw [idSegment, h]
    decide
  rw [push_id segs hn hraw, hseg]
  simp [place, settle, isDot, isDoubleDot]

/-- A hidden double dot leads out of the collection. -/
theorem push_hiddenDoubleDot (segs : List Segment) (hn : name ≠ []) (hd : beginsWithDrive name = false)
    {raw : List Char} (h : dropTabs raw = ['.', '.']) (hraw : raw ≠ ['.'] ∧ raw ≠ ['.', '.']) :
    push (.web p) (segs ++ [name]) raw = segs ++ [[]] := by
  have hseg : idSegment raw = ['.', '.'] := by
    rw [idSegment, h]
    decide
  have hdouble : isDoubleDot ['.', '.'] = true := by decide
  rw [push_id segs hn hraw, hseg, place, if_pos hdouble]
  simp [settle, up, hd]

end Path

end Url

/-! ## Requests -/

open Url

/-- The request for what has these names behind the path of the base. -/
def Connection.below {σ : Type} (c : Connection σ) (names : List Segment) (o : Options) : Request :=
  ⟨String.ofList (c.base.origin ++ Text.dropEnd (· == '/') c.base.path.written ++
    Path.text names ++ marked '?' (c.base.withQuery o.query).query), c.key⟩

theorem Connection.text_eq_of_below {σ : Type} {c : Connection σ} {names more : List Segment}
    {o : Options} (h : c.below names o = c.below more o) : Path.text names = Path.text more := by
  have hurl := String.ofList_injective (Request.mk.inj h).1
  exact List.append_cancel_left (List.append_cancel_right hurl)

/-- A connection whose base is an address of the web with clean segments. -/
structure Connection.OnWeb {σ : Type} (c : Connection σ) (p : UInt16) (segs : List Segment) :
    Prop where
  kind : c.base.kind = .web p
  path : c.base.path = .hierarchical false segs
  clean : ∀ t ∈ segs, Clean t

namespace Connection.OnWeb

variable {σ : Type} {c : Connection σ} {p : UInt16} {segs : List Segment}

theorem request_eq (h : c.OnWeb p segs) {path : String} {name : Segment}
    (hpath : path.toList = '/' :: name) (hn : Clean name) {ids : List String}
    {names : List Segment}
    (happend : Path.append (.web p) (segs.rdropWhile List.isEmpty ++ [name])
      (ids.map String.toList) = segs.rdropWhile List.isEmpty ++ names) (o : Options) :
    c.request path ids o = c.below names o := by
  have hencoded : ∀ t ∈ segs, Encoded t := fun t ht => (h.clean t ht).encoded
  unfold request address below
  rw [hpath, endpoint_web h.kind h.path h.clean hn, h.kind, happend, h.path]
  simp only [toString, text_endpoint, Url.Path.written, Bool.false_eq_true, if_false,
    List.nil_append, Path.text_append, Path.dropEnd_text hencoded, List.append_assoc]

end Connection.OnWeb

theorem Connection.onWeb_of_connect [DomainNames] {σ : Type} {text key : String} {transport : Transport σ}
    {c : Connection σ} (h : connect text key transport = .ok c)
    (hweb : c.base.scheme = "http".toList ∨ c.base.scheme = "https".toList) :
    ∃ p segs, c.OnWeb p segs := by
  obtain ⟨p, hk⟩ : ∃ p, c.base.kind = .web p := by
    unfold kind
    rcases hweb with hs | hs <;> rw [hs]
    · exact ⟨80, rfl⟩
    · exact ⟨443, rfl⟩
  obtain ⟨segs, hp, hclean⟩ := path_of_parse (connect_ok h).1 hk
  exact ⟨p, segs, hk, hp, hclean⟩

/-- An accepted id is no dot segment as it stands, and something is left of it without tabs. -/
theorem checkId_ok {id : String} (h : checkId id = .ok ()) :
    (id.toList ≠ ['.'] ∧ id.toList ≠ ['.', '.']) ∧ dropTabs id.toList ≠ [] := by
  unfold checkId at h
  split at h
  · cases h
  · rename_i hbad
    simp only [Bool.or_eq_true, decide_eq_true_eq, not_or] at hbad
    refine ⟨⟨fun he => hbad.1.2 (String.toList_inj.mp he), fun he => hbad.2 (String.toList_inj.mp he)⟩,
      fun hnil => hbad.1.1 (List.all_eq_true.mpr fun c hc => ?_)⟩
    have htab : isTabOrNewline c = true := by
      simpa using List.filter_eq_nil_iff.mp hnil c hc
    rcases eq_of_isTabOrNewline htab with rfl | rfl | rfl <;> decide

/-- The calls with an id ask for one name below the collection, and for the quotes below it. -/
structure Connection.AsksFor (c : Connection Script) (id : String) (name : Segment) : Prop where
  movie : ∀ s, ((Client.ofConnection c).movies.get id s).2.requests =
    s.requests ++ [c.below ["movie".toList, name] {}]
  quote : ∀ s, ((Client.ofConnection c).quotes.get id s).2.requests =
    s.requests ++ [c.below ["quote".toList, name] {}]
  quotesOf : ∀ o s, ((Client.ofConnection c).quotesOf id o s).2.requests =
    s.requests ++ [c.below ["movie".toList, name, "quote".toList] o]
  allQuotesOf : ∀ o s, ∃ n, (((Client.ofConnection c).allQuotesOf id o).drain s).2.requests =
    s.requests ++ (List.range' 1 n).map
      fun i => c.below ["movie".toList, name, "quote".toList] (o.forPage (.ofNat i))

namespace Connection.OnWeb

variable {c : Connection Script} {p : UInt16} {segs : List Segment} {id : String}

theorem clean_movie : Clean "movie".toList := ⟨by decide, by decide, by decide⟩

theorem clean_quote : Clean "quote".toList := ⟨by decide, by decide, by decide⟩

theorem get_requests {α : Type} [Document α] (h : c.OnWeb p segs)
    (hc : c.transport = Script.transport) (hid : checkId id = .ok ()) {path : String}
    {name : Segment} (hpath : path.toList = '/' :: name) (hn : Clean name) (hne : name ≠ [])
    {names : List Segment}
    (hpush : Path.push (.web p) (segs.rdropWhile List.isEmpty ++ [name]) id.toList =
      segs.rdropWhile List.isEmpty ++ names) (s : Script) :
    ((Collection.mk path c : Collection Script α).get id s).2.requests =
      s.requests ++ [c.below names {}] := by
  have happend : Path.append (.web p) (segs.rdropWhile List.isEmpty ++ [name])
      ([id].map String.toList) = segs.rdropWhile List.isEmpty ++ names := by
    rw [List.map_singleton, Path.append_cons _ hne, hpush]
    rfl
  rw [Collection.get_requests hc hid, ← h.request_eq hpath hn happend]

theorem asksFor (h : c.OnWeb p segs) (hc : c.transport = Script.transport)
    (hid : checkId id = .ok ()) (hdot : ¬ IsHiddenDot id.toList) :
    c.AsksFor id (idSegment id.toList) := by
  obtain ⟨hraw, hleft⟩ := checkId_ok hid
  have hname {name : Segment} (hne : name ≠ []) :=
    Path.push_name (p := p) (segs.rdropWhile List.isEmpty) hne hdot hraw
  have hquotes (o : Options) : c.request Service.moviePath [id, "quote"] o =
      c.below ["movie".toList, idSegment id.toList, "quote".toList] o := by
    refine h.request_eq (by decide) clean_movie ?_ o
    -- something is left of the id, so `quote` does not take its place
    have hid' : idSegment id.toList ≠ [] := (idSegment_isName hdot hleft).1
    have hquote : idSegment "quote".toList = "quote".toList := by decide
    rw [List.map_cons, Path.append_cons _ (by decide), hname (by decide), List.map_singleton,
      List.foldl_cons, List.foldl_nil,
      show ∀ l : List Segment, l ++ ["movie".toList, idSegment id.toList] =
        (l ++ ["movie".toList]) ++ [idSegment id.toList] by simp,
      Path.push_name _ hid' (by decide) (by decide), hquote]
    simp
  refine ⟨h.get_requests hc hid rfl clean_movie (by decide) (hname (by decide)),
    h.get_requests hc hid rfl clean_quote (by decide) (hname (by decide)), fun o s => ?_, fun o s => ?_⟩
  · rw [Client.quotesOf_of_accepted hid, Connection.page_requests hc, hquotes]
  · simpa only [hquotes] using Client.allQuotesOf_requests hc hid o s

theorem dot_requests (h : c.OnWeb p segs) (hc : c.transport = Script.transport)
    (hid : checkId id = .ok ()) (hdot : dropTabs id.toList = ['.']) (s : Script) :
    ((Client.ofConnection c).movies.get id s).2.requests =
      s.requests ++ [c.below ["movie".toList, []] {}] :=
  h.get_requests hc hid rfl clean_movie (by decide)
    (Path.push_hiddenDot _ (by decide) hdot (checkId_ok hid).1) s

theorem doubleDot_requests (h : c.OnWeb p segs) (hc : c.transport = Script.transport)
    (hid : checkId id = .ok ()) (hdot : dropTabs id.toList = ['.', '.']) (s : Script) :
    ((Client.ofConnection c).movies.get id s).2.requests = s.requests ++ [c.below [[]] {}] :=
  h.get_requests hc hid rfl clean_movie (by decide)
    (Path.push_hiddenDoubleDot _ (by decide) (by decide) hdot (checkId_ok hid).1) s

/-- An id that hides a dot segment has no name to ask for. -/
theorem not_asksFor (h : c.OnWeb p segs) (hc : c.transport = Script.transport)
    (hid : checkId id = .ok ()) (hdot : IsHiddenDot id.toList) {name : Segment}
    (hname : IsName name) : ¬ c.AsksFor id name := by
  intro hasks
  have hmovie := hasks.movie { answers := [] }
  rcases hdot with hdot | hdot
  · rw [h.dot_requests hc hid hdot] at hmovie
    have htext := text_eq_of_below (List.singleton_inj.mp (List.append_cancel_left hmovie))
    simp only [Path.text, List.flatMap_cons, List.flatMap_nil, List.append_nil, List.append_cancel_left_eq,
      List.cons.injEq, true_and] at htext
    exact hname.1 htext.symm
  · rw [h.doubleDot_requests hc hid hdot] at hmovie
    have htext := text_eq_of_below (List.singleton_inj.mp (List.append_cancel_left hmovie))
    simp [Path.text] at htext

end Connection.OnWeb

/-- **Where an accepted id leads.** The calls with an accepted id ask for one name below its
collection, and for nothing else, exactly when the id hides no dot segment behind tabs and
newlines. Otherwise they ask for the collection, or for what it stands in. -/
theorem accepted_id_requests [DomainNames] {text key : String} {c : Connection Script}
    (hc : Connection.connect text key Script.transport = .ok c)
    (hweb : c.base.scheme = "http".toList ∨ c.base.scheme = "https".toList)
    {id : String} (hid : checkId id = .ok ()) :
    ((∃ name, IsName name ∧ c.AsksFor id name) ↔ ¬ IsHiddenDot id.toList) ∧
    (dropTabs id.toList = ['.'] → ∀ s, ((Client.ofConnection c).movies.get id s).2.requests =
      s.requests ++ [c.below ["movie".toList, []] {}]) ∧
    (dropTabs id.toList = ['.', '.'] → ∀ s, ((Client.ofConnection c).movies.get id s).2.requests =
      s.requests ++ [c.below [[]] {}]) := by
  obtain ⟨p, segs, h⟩ := Connection.onWeb_of_connect hc hweb
  have htransport := (Connection.connect_ok hc).2.2
  refine ⟨⟨?_, fun hdot => ?_⟩, h.dot_requests htransport hid, h.doubleDot_requests htransport hid⟩
  · rintro ⟨name, hname, hasks⟩ hdot
    exact h.not_asksFor htransport hid hdot hname hasks
  · exact ⟨_, idSegment_isName hdot (checkId_ok hid).2, h.asksFor htransport hid hdot⟩

def Connection.service (key : String) : Connection Script := ⟨Service.url, key, Script.transport⟩

theorem Connection.connect_service [DomainNames] (key : String) :
    connect Service.baseUrl key Script.transport = .ok (service key) := by
  rw [connect, Service.parse_baseUrl]
  rfl

theorem accepted_id_requests_slash :
    letI := DomainNames.ascii
    Connection.connect Service.baseUrl "key" Script.transport = .ok (.service "key") ∧
      checkId "../quote\t" = .ok () ∧
      ∃ name, IsName name ∧ (Connection.service "key").AsksFor "../quote\t" name := by
  let names := DomainNames.ascii
  have hid : checkId "../quote\t" = .ok () := by decide
  refine ⟨Connection.connect_service "key", hid, ?_⟩
  exact (accepted_id_requests (Connection.connect_service "key") (.inr rfl) hid).1.mpr (by decide)

/-- A dot before a tab is accepted as an id and asks for the whole collection. -/
theorem dot_tab_leaves_collection :
    letI := DomainNames.ascii
    Connection.connect Service.baseUrl "key" Script.transport = .ok (.service "key") ∧
      checkId ".\t" = .ok () ∧
      ¬ (∃ name, IsName name ∧ (Connection.service "key").AsksFor ".\t" name) ∧
      ((Client.ofConnection (.service "key")).movies.get ".\t" { answers := [] }).2.requests =
        [⟨"https://the-one-api.dev/v2/movie/", "key"⟩] := by
  let names := DomainNames.ascii
  have hconnect := Connection.connect_service "key"
  have hid : checkId ".\t" = .ok () := by decide
  obtain ⟨p, segs, h⟩ := Connection.onWeb_of_connect hconnect (.inr rfl)
  refine ⟨hconnect, hid, ?_, ?_⟩
  · rintro ⟨name, hname, hasks⟩
    exact h.not_asksFor rfl hid (by decide) hname hasks
  · rw [h.dot_requests rfl hid (by decide)]
    decide +kernel

end OneApi
