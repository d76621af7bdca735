import OneApi.Proofs.NotedRequests
import OneApi.Proofs.Requests
import OneApi.Proofs.RetriedSession

/-! Calls with an id. All of them check the id first: an id that is refused is refused by every call,
in the same words and before anything is sent. An id that is accepted costs one request for an item
or a page, and its answer alone decides. A movie with its quotes costs a second one only when there
is a movie. Requests are counted where they enter the transport, so what a layer below sends again
is one request here. -/

namespace OneApi

variable {σ α β : Type}

/-! ## Answers -/

section Answers

variable [Document α] {answer : Answer} {page : Page α}

theorem Response.page_of_status {r : Response} (hs : r.status = 200) :
    r.page = (decode r.body).elim (.error (.undecodable r.body)) (Except.ok (α := Page α)) := by
  have houtcome : r.outcome = .ok r.body := if_pos hs
  unfold Response.page
  rw [houtcome]
  dsimp only
  cases decode (α := Page α) r.body <;> rfl

theorem Response.page_eq_ok_iff {r : Response} :
    r.page = .ok page ↔ r.status = 200 ∧ decode r.body = some page := by
  by_cases hs : r.status = 200
  · rw [page_of_status hs]
    cases decode (α := Page α) r.body <;> simp [hs]
  · obtain ⟨e, he, _⟩ := page_of_status_ne (α := α) hs
    simp [he, hs]

theorem Response.page_eq_notFound_iff {r : Response} {fault : AbsenceFault} :
    (r.page : Except Error (Page α)) = .error (.notFound fault) ↔
      r.status = 404 ∧ fault = .resource := by
  constructor
  · intro hfault
    have hs : r.status = 404 := by
      by_cases hok : r.status = 200
      · rw [page_of_status hok] at hfault
        cases hbody : decode (α := Page α) r.body <;> rw [hbody] at hfault <;> cases hfault
      · obtain ⟨e, he, hstatus⟩ := page_of_status_ne (α := α) hok
        obtain rfl : e = .notFound fault := Except.error.inj (he.symm.trans hfault)
        exact (Option.some.inj hstatus).symm
    refine ⟨hs, ?_⟩
    simp only [Response.page, Response.outcome, hs] at hfault
    cases hfault
    rfl
  · rintro ⟨hs, rfl⟩
    simp [Response.page, Response.outcome, hs]

theorem Answer.page_eq_ok_iff :
    answer.page = .ok page ↔ ∃ r, answer = .ok r ∧ r.status = 200 ∧ decode r.body = some page := by
  cases answer with
  | error e => simp [Answer.page]
  | ok r => simp [Answer.page, Response.page_eq_ok_iff]

/-- What a call for one item makes of the answer to its request. -/
structure LooksUp (answer : Answer) (result : Except Error α) : Prop where
  found : ∀ x, result = .ok x ↔ ∃ (r : Response) (page : Page α) (rest : List α),
    answer = .ok r ∧ r.status = 200 ∧ decode r.body = some page ∧ page.items = x :: rest
  /-- A transport may fail with an error of this kind by itself. -/
  missing : (∀ fault, answer ≠ .error (.notFound fault)) →
    ((∃ fault, result = .error (.notFound fault)) ↔ ∃ r : Response, answer = .ok r ∧
      (r.status = 404 ∨
        r.status = 200 ∧ ∃ page : Page α, decode r.body = some page ∧ page.items = []))
  failed : ∀ e, (answer.page : Except Error (Page α)) = .error e → result = .error e

namespace LooksUp

theorem of_error {e : Error} (h : (answer.page : Except Error (Page α)) = .error e) :
    LooksUp answer (.error e : Except Error α) := by
  have hnone {r : Response} {page : Page α} (hr : answer = .ok r) (hs : r.status = 200)
      (hbody : decode r.body = some page) : False :=
    nomatch h.symm.trans (Answer.page_eq_ok_iff.mpr ⟨r, hr, hs, hbody⟩)
  refine ⟨?_, ?_, ?_⟩
  · intro x
    refine ⟨nofun, ?_⟩
    rintro ⟨r, page, rest, hr, hs, hbody, _⟩
    exact (hnone hr hs hbody).elim
  · intro hown
    constructor
    · rintro ⟨fault, hfault⟩
      cases hfault
      cases answer with
      | error f =>
        obtain rfl : f = .notFound fault := Except.error.inj h
        exact absurd rfl (hown fault)
      | ok r => exact ⟨r, rfl, .inl (Response.page_eq_notFound_iff.mp h).1⟩
    · rintro ⟨r, rfl, hs | ⟨hs, page, hbody, _⟩⟩
      · have hpage := Response.page_eq_notFound_iff (α := α).mpr ⟨hs, rfl⟩
        obtain rfl : e = .notFound .resource := Except.error.inj (h.symm.trans hpage)
        exact ⟨.resource, rfl⟩
      · exact (hnone rfl hs hbody).elim
  · rintro f hf
    rw [h] at hf
    cases hf
    rfl

theorem of_item (h : answer.page = .ok page) {x : α} {rest : List α} (hi : page.items = x :: rest) :
    LooksUp answer (.ok x) := by
  obtain ⟨r, rfl, hs, hbody⟩ := Answer.page_eq_ok_iff.mp h
  refine ⟨?_, ?_, fun e he => nomatch h.symm.trans he⟩
  · intro y
    constructor
    · rintro hy
      cases hy
      exact ⟨r, page, rest, rfl, hs, hbody, hi⟩
    · rintro ⟨r', page', rest', hr, _, hbody', hi'⟩
      cases hr
      cases hbody.symm.trans hbody'
      cases hi.symm.trans hi'
      rfl
  · intro _
    refine ⟨nofun, ?_⟩
    rintro ⟨r', hr, hs' | ⟨_, page', hbody', hi'⟩⟩
    · cases hr
      exact absurd (hs.symm.trans hs') (by decide)
    · cases hr
      cases hbody.symm.trans hbody'
      exact nomatch hi.symm.trans hi'

theorem of_no_items (h : answer.page = .ok page) (hi : page.items = []) (absence : AbsenceFault) :
    LooksUp answer (.error (.notFound absence) : Except Error α) := by
  obtain ⟨r, rfl, hs, hbody⟩ := Answer.page_eq_ok_iff.mp h
  refine ⟨?_, ?_, fun e he => nomatch h.symm.trans he⟩
  · intro y
    refine ⟨nofun, ?_⟩
    rintro ⟨r', page', rest', hr, _, hbody', hi'⟩
    cases hr
    cases hbody.symm.trans hbody'
    exact nomatch hi.symm.trans hi'
  · intro _
    exact ⟨fun _ => ⟨r, rfl, .inr ⟨hs, page, hbody, hi⟩⟩, fun _ => ⟨absence, rfl⟩⟩

end LooksUp

end Answers

/-! ## Requests -/

/-- The connection with a note of every request. -/
def Connection.noted (c : Connection σ) : Connection (σ × List Request) :=
  { base := c.base, key := c.key, transport := c.transport.noted }

/-- Whatever the state is, one request is made, and this is how the result stands to its answer. -/
def Connection.Sends (c : Connection σ) (request : Request) (P : Answer → β → Prop)
    (f : StateM (σ × List Request) β) : Prop :=
  ∀ s, P (c.transport request s.1).1 (f s).1 ∧
    (f s).2 = ((c.transport request s.1).2, s.2 ++ [request])

/-- The first call on a walk gives the first item of the first page, or the failure to get it. -/
def Opens [Document α] (answer : Answer) (item : Option (Except Error α)) : Prop :=
  match answer.page (α := α) with
  | .error e => item = some (.error e)
  | .ok page => item = page.items.head?.map .ok

theorem Listing.next_eq {l : Listing σ α} {item : Option (Except Error α)} {d : Cursor α} {s t : σ}
    (h : l.cursor.next l.fetch s = ((item, d), t)) : l.next s = ((item, { l with cursor := d }), t) := by
  rw [Listing.next, h]

namespace Connection

variable [Document α]

theorem sends_page (c : Connection σ) (path : String) (segments : List String) (o : Options) :
    c.Sends (c.request path segments o) (fun answer result => result = answer.page)
      (c.noted.page (α := α) path segments o) := by
  intro s
  rw [page_eq]
  exact ⟨rfl, rfl⟩

theorem sends_get (c : Connection σ) (path : String) {id : String} (hid : checkId id = .ok ()) :
    c.Sends (c.request path [id] {}) LooksUp (Collection.get (α := α) ⟨path, c.noted⟩ id) := by
  intro s
  obtain ⟨hresult, hstate⟩ := sends_page (α := α) c path [id] {} s
  rw [Collection.get_of_accepted hid]
  unfold goOn firstItem
  dsimp only
  generalize c.noted.page (α := α) path [id] {} s = call at hresult hstate
  obtain ⟨result, t⟩ := call
  obtain rfl : result = Answer.page _ := hresult
  cases hpage : (c.transport (c.request path [id] {}) s.1).1.page (α := α) with
  | error e => exact ⟨.of_error hpage, hstate⟩
  | ok page =>
    dsimp only
    cases hi : page.items with
    | nil => exact ⟨.of_no_items hpage hi _, hstate⟩
    | cons x rest => exact ⟨.of_item hpage hi, hstate⟩

/-- The first call on a walk asks for the first page. -/
theorem sends_next (c : Connection σ) (path : String) (segments : List String) (o : Options) :
    c.Sends (c.request path segments (o.forPage 1)) (fun answer step => Opens answer step.1)
      (Listing.start (c.noted.page (α := α) path segments) o).next := by
  intro s
  obtain ⟨hresult, hstate⟩ := sends_page (α := α) c path segments (o.forPage 1) s
  rcases hcall : c.noted.page (α := α) path segments (o.forPage 1) s with ⟨result, t⟩
  rw [hcall] at hresult hstate
  obtain rfl : result = Answer.page _ := hresult
  unfold Opens
  dsimp only
  generalize (c.transport (c.request path segments (o.forPage 1)) s.1).1.page (α := α) = result
    at hcall ⊢
  cases result with
  | error e =>
    rw [Listing.next_eq (Cursor.next_of_error rfl rfl hcall)]
    exact ⟨rfl, hstate⟩
  | ok page =>
    rw [Listing.next_eq (Cursor.next_of_fetched rfl rfl hcall)]
    exact ⟨rfl, hstate⟩

end Connection

/-! ## Clients -/

namespace Client

/-- Every call with this id fails with this error, before anything is sent. -/
structure Refuses (client : Client σ) (id : String) (e : Error) : Prop where
  movie : ∀ s, client.movies.get id s = (.error e, s)
  quote : ∀ s, client.quotes.get id s = (.error e, s)
  quotes : ∀ o s, client.quotesOf id o s = (.error e, s)
  movieWithQuotes : ∀ s, client.movieWithQuotes id s = (.error e, s)
  /-- A walk fails once, without a page, and then it is over. -/
  walk : ∀ o n s, ∃ d : Cursor Quote, d.Finished ∧ d.pagesFetched = 0 ∧
    Cursor.nexts (client.allQuotesOf id o).fetch (n + 1) (client.allQuotesOf id o).cursor s =
      ((some (.error e) :: List.replicate n none, d), s)

theorem refuses_of_refused {id : String} {e : Error} (hid : checkId id = .error e)
    (client : Client σ) : client.Refuses id e := by
  have hget {α : Type} [Document α] (c : Collection σ α) (s : σ) : c.get id s = (.error e, s) := by
    unfold Collection.get
    rw [hid]
  have hquotes (o : Options) (s : σ) : client.quotesOf id o s = (.error e, s) := by
    unfold quotesOf
    rw [hid]
  refine ⟨hget client.movies, hget client.quotes, hquotes, ?_, ?_⟩
  · intro s
    rw [movieWithQuotes_eq]
    unfold goOn
    rw [hget]
  · intro o n s
    have hnext : (Cursor.start o).next (client.quotesOf id) s =
        ((some (.error e), { Cursor.start o with nextPage := none }), s) :=
      Cursor.next_of_error rfl rfl (hquotes _ s)
    have hfin : ({ Cursor.start o with nextPage := none } : Cursor Quote).Finished := ⟨rfl, rfl⟩
    refine ⟨_, hfin, rfl, ?_⟩
    unfold allQuotesOf Listing.start
    simp only [Cursor.nexts, hnext, hfin.nexts_eq]

/-- What the calls of a client with this id send, and what they make of the answers. -/
structure Accepts (c : Connection σ) (id : String) (client : Client (σ × List Request)) : Prop where
  movie : c.Sends (c.request Service.moviePath [id] {}) LooksUp (client.movies.get id)
  quote : c.Sends (c.request Service.quotePath [id] {}) LooksUp (client.quotes.get id)
  quotes : ∀ o, c.Sends (c.request Service.moviePath [id, "quote"] o)
    (fun answer result => result = answer.page) (client.quotesOf id o)
  walk : ∀ o, c.Sends (c.request Service.moviePath [id, "quote"] (o.forPage 1))
    (fun answer step => Opens answer step.1) (client.allQuotesOf id o).next
  withoutMovie : ∀ s e t, client.movies.get id s = (.error e, t) →
    client.movieWithQuotes id s = (.error e, t) ∧
    t.2 = s.2 ++ [c.request Service.moviePath [id] {}]
  withMovie : ∀ s movie t, client.movies.get id s = (.ok movie, t) → ∃ result u,
    client.quotesOf id {} t = (result, u) ∧
    client.movieWithQuotes id s = (result.map (MovieWithQuotes.mk movie), u) ∧
    u.2 = s.2 ++ [c.request Service.moviePath [id] {}, c.request Service.moviePath [id, "quote"] {}]

theorem accepts_of_accepted {id : String} (hid : checkId id = .ok ()) (c : Connection σ) :
    Accepts c id (ofConnection c.noted) := by
  have hmovie : c.Sends (c.request Service.moviePath [id] {}) LooksUp
      ((ofConnection c.noted).movies.get id) := c.sends_get Service.moviePath hid
  have hquotes (o : Options) : c.Sends (c.request Service.moviePath [id, "quote"] o)
      (fun answer result => result = answer.page) ((ofConnection c.noted).quotesOf id o) := by
    rw [quotesOf_of_accepted hid]
    exact c.sends_page Service.moviePath [id, "quote"] o
  refine ⟨hmovie, c.sends_get Service.quotePath hid, hquotes, ?_, ?_, ?_⟩
  · intro o
    unfold allQuotesOf
    rw [quotesOf_of_accepted hid]
    exact c.sends_next Service.moviePath [id, "quote"] o
  · intro s e t hget
    have hsent := (hmovie s).2
    rw [hget] at hsent
    rw [movieWithQuotes_eq]
    unfold goOn
    rw [hget]
    exact ⟨rfl, congrArg Prod.snd hsent⟩
  · intro s movie t hget
    have hsent := (hmovie s).2
    rw [hget] at hsent
    obtain ⟨_, hsent'⟩ := hquotes {} t
    rcases hcall : (ofConnection c.noted).quotesOf id {} t with ⟨result, u⟩
    rw [hcall] at hsent'
    refine ⟨result, u, rfl, ?_, ?_⟩
    · rw [movieWithQuotes_eq]
      unfold goOn
      rw [hget]
      dsimp only
      rw [hcall]
      cases result <;> rfl
    · have ht : t.2 = s.2 ++ [c.request Service.moviePath [id] {}] := congrArg Prod.snd hsent
      have hu : u.2 = t.2 ++ [c.request Service.moviePath [id, "quote"] {}] :=
        congrArg Prod.snd hsent'
      rw [hu, ht, List.append_assoc, List.singleton_append]

/-- **What a call with an id costs.** An id that the check refuses is refused by all calls alike, as
not found and without a request. For any other id a call for an item makes one request and gives
the first item of the page in its answer; a movie with its quotes is the movie and then, if there
is one, the first page of its quotes. -/
theorem calls_with_id (c : Connection σ) (id : String) :
    match checkId id with
    | .error e => e = .notFound (.invalidId id) ∧ (ofConnection c.noted).Refuses id e
    | .ok () => Accepts c id (ofConnection c.noted) := by
  cases hid : checkId id with
  | error e =>
    refine ⟨?_, refuses_of_refused hid _⟩
    unfold checkId at hid
    split at hid
    · exact (Except.error.inj hid).symm
    · cases hid
  | ok _ => exact accepts_of_accepted hid c

/-- A step inside a path is refused; an id that the server does not know is asked for once. -/
theorem calls_with_id_script :
    let base : Url := ⟨"https".toList, none, .hierarchical false [], none, none⟩
    let c : Connection Script := .plain base "key"
    let script : Script := { answers := [.ok ⟨404, "", []⟩, .ok ⟨200, "", []⟩] }
    let asked := (ofConnection c.noted).movieWithQuotes "5cd9" (script, [])
    (ofConnection c.noted).Refuses ".." (.notFound (.invalidId "..")) ∧
      Accepts c "5cd9" (ofConnection c.noted) ∧
      asked.2.2 = [c.request Service.moviePath ["5cd9"] {}] ∧
      ∃ fault, asked.1 = .error (.notFound fault) := by
  intro base c script asked
  have hrefused := calls_with_id c ".."
  rw [show checkId ".." = .error (.notFound (.invalidId "..")) by decide] at hrefused
  have haccepted := calls_with_id c "5cd9"
  rw [show checkId "5cd9" = .ok () by decide] at haccepted
  exact ⟨hrefused.2, haccepted, rfl, .resource, rfl⟩

end Client

end OneApi
