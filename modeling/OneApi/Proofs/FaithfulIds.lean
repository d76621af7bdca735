import OneApi.Proofs.AppendedSegments
import OneApi.Proofs.IdCalls

/-! Ids in addresses. An id that is accepted and holds no tabs or newlines is spelled by one segment
of the address it is asked for at, whatever the base address is. So ids can be told apart by the
addresses they are asked for at. -/

namespace OneApi

open Url

variable {σ β : Type}

/-- An accepted id that reaches an address as it stands. -/
def Addressable (id : String) : Prop :=
  checkId id = .ok () ∧ ∀ c ∈ id.toList, isTabOrNewline c = false

theorem Addressable.isPlainName {id : String} (h : Addressable id) : IsPlainName id.toList := by
  obtain ⟨hdots, hleft⟩ := checkId_ok h.1
  have hkept : dropTabs id.toList = id.toList := by
    rw [dropTabs, List.filter_eq_self]
    intro c hc
    rw [h.2 c hc]
    rfl
  exact ⟨hkept ▸ hleft, hdots.1, hdots.2, hkept⟩

/-- Whatever the state is, this one request is made. -/
def Notes (f : StateM (σ × List Request) β) (request : Request) : Prop :=
  ∀ s, (f s).2.2 = s.2 ++ [request]

namespace Connection

def queryPart (c : Connection σ) (o : Options) : List Char :=
  marked '?' (c.base.withQuery o.query).query

/-- The request for an address. -/
def sent (c : Connection σ) (address : List Char) : Request := ⟨String.ofList address, c.key⟩

theorem Sends.notes {c : Connection σ} {request : Request} {P : Answer → β → Prop}
    {f : StateM (σ × List Request) β} (h : c.Sends request P f) : Notes f request :=
  fun s => congrArg Prod.snd (h s).2

/-- The requests of the calls with an id that ask for one page. -/
def idRequests (c : Connection σ) (id : String) (o : Options) : List Request :=
  [c.request Service.moviePath [id] {}, c.request Service.quotePath [id] {},
    c.request Service.moviePath [id, "quote"] o]

/-- The calls with an id ask for the segment that spells it, below their collections. -/
structure SpellsId (c : Connection σ) (front : List Char) (id : String) (s : Segment) : Prop where
  spells : Spells c.base.kind s id.toList
  movie : Notes ((Client.ofConnection c.noted).movies.get id)
    (c.sent (front ++ "/movie".toList ++ '/' :: s))
  quote : Notes ((Client.ofConnection c.noted).quotes.get id)
    (c.sent (front ++ "/quote".toList ++ '/' :: s))
  quotes : ∀ o, Notes ((Client.ofConnection c.noted).quotesOf id o)
    (c.sent (front ++ "/movie".toList ++ '/' :: s ++ "/quote".toList ++ c.queryPart o))

variable {c : Connection σ} {front : List Char}

theorem request_of_fronts (h : c.base.Fronts front) {path : String} {name : Segment}
    (hpath : path.toList = '/' :: name) (hname : IsCollection name) {ids : List String}
    (hids : ∀ raw ∈ ids.map String.toList, IsPlainName raw) (o : Options) :
    c.request path ids o = c.sent (front ++ '/' :: name ++
      Path.text ((ids.map String.toList).map (segmentOf c.base.kind)) ++ c.queryPart o) := by
  unfold request address sent queryPart
  rw [hpath, ← h name hname _ hids]
  rfl

theorem isCollection_movie : IsCollection "movie".toList :=
  ⟨OnWeb.clean_movie, by decide, by decide⟩

theorem isCollection_quote : IsCollection "quote".toList :=
  ⟨OnWeb.clean_quote, by decide, by decide⟩

theorem segmentOf_quote (k : Kind) : segmentOf k "quote".toList = "quote".toList := by
  unfold segmentOf marksOf
  split <;> decide

theorem queryPart_empty (c : Connection σ) : c.queryPart {} = [] := rfl

theorem collection_request (h : c.base.Fronts front) {path : String} {name : Segment}
    (hpath : path.toList = '/' :: name) (hname : IsCollection name) :
    c.request path [] {} = c.sent (front ++ '/' :: name) := by
  rw [request_of_fronts h hpath hname (by simp), queryPart_empty]
  simp [Path.text]

theorem item_request (h : c.base.Fronts front) {path : String} {name : Segment}
    (hpath : path.toList = '/' :: name) (hname : IsCollection name) {id : String}
    (hid : Addressable id) : c.request path [id] {} =
      c.sent (front ++ '/' :: name ++ '/' :: segmentOf c.base.kind id.toList) := by
  rw [request_of_fronts h hpath hname (by simpa using hid.isPlainName), queryPart_empty]
  simp [Path.text]

theorem quotes_request (h : c.base.Fronts front) {id : String} (hid : Addressable id)
    (o : Options) : c.request Service.moviePath [id, "quote"] o =
      c.sent (front ++ "/movie".toList ++ '/' :: segmentOf c.base.kind id.toList ++
        "/quote".toList ++ c.queryPart o) := by
  have hquote : IsPlainName "quote".toList := by constructor <;> decide
  have hids : ∀ raw ∈ [id, "quote"].map String.toList, IsPlainName raw :=
    List.forall_mem_cons.mpr ⟨hid.isPlainName, List.forall_mem_singleton.mpr hquote⟩
  rw [request_of_fronts h rfl isCollection_movie hids, List.map_cons, List.map_cons, List.map_cons,
    List.map_cons, segmentOf_quote]
  congr 1
  simp only [Path.text, List.map_nil, List.flatMap_cons, List.flatMap_nil, List.append_nil,
    List.append_assoc]
  rfl

theorem spellsId_of_fronts (h : c.base.Fronts front) {id : String} (hid : Addressable id) :
    c.SpellsId front id (segmentOf c.base.kind id.toList) := by
  refine ⟨spells_segmentOf _ hid.isPlainName, ?_, ?_, ?_⟩
  · have hsent := (c.sends_get (α := Movie) Service.moviePath hid.1).notes
    rw [item_request h rfl isCollection_movie hid] at hsent
    exact hsent
  · have hsent := (c.sends_get (α := Quote) Service.quotePath hid.1).notes
    rw [item_request h rfl isCollection_quote hid] at hsent
    exact hsent
  · intro o
    have hsent := (c.sends_page (α := Quote) Service.moviePath [id, "quote"] o).notes
    rw [quotes_request h hid o, ← Client.quotesOf_of_accepted hid.1] at hsent
    exact hsent

/-- In all requests of an id its segment begins at the same place, and ends at a slash or with the
address. -/
theorem exists_of_mem_idRequests (h : c.base.Fronts front) {id : String} (hid : Addressable id)
    {o : Options} {request : Request} (hr : request ∈ c.idRequests id o) :
    ∃ collection rest, collection.length = 6 ∧ (∀ x ∈ rest.head?, x = '/') ∧
      request = c.sent (front ++ (collection ++
        '/' :: (segmentOf c.base.kind id.toList ++ rest))) := by
  simp only [idRequests, List.mem_cons, List.not_mem_nil, or_false] at hr
  rcases hr with rfl | rfl | rfl
  · refine ⟨"/movie".toList, [], rfl, by simp, ?_⟩
    rw [item_request h rfl isCollection_movie hid, List.append_nil, ← List.append_assoc]
    rfl
  · refine ⟨"/quote".toList, [], rfl, by simp, ?_⟩
    rw [item_request h rfl isCollection_quote hid, List.append_nil, ← List.append_assoc]
    rfl
  · refine ⟨"/movie".toList, "/quote".toList ++ c.queryPart o, rfl, by simp, ?_⟩
    rw [quotes_request h hid o]
    congr 1
    simp only [List.append_assoc, List.cons_append]

theorem takeWhile_segment {s rest : List Char} (hs : ∀ x ∈ s, x ≠ '/')
    (hrest : ∀ x ∈ rest.head?, x = '/') : (s ++ rest).takeWhile (· != '/') = s := by
  rw [List.takeWhile_append_of_pos (by simpa using hs)]
  cases rest with
  | nil => simp
  | cons x t => simp [hrest x rfl]

/-- A request tells the id. -/
theorem eq_of_mem_idRequests (h : c.base.Fronts front) {id other : String} (hid : Addressable id)
    (hother : Addressable other) {o p : Options} {request : Request}
    (hr : request ∈ c.idRequests id o) (hq : request ∈ c.idRequests other p) : id = other := by
  obtain ⟨collection, rest, hlength, hrest, rfl⟩ := exists_of_mem_idRequests h hid hr
  obtain ⟨collection', rest', hlength', hrest', he⟩ := exists_of_mem_idRequests h hother hq
  have hfree {raw : List Char} (hraw : IsPlainName raw) :
      ∀ x ∈ segmentOf c.base.kind raw, x ≠ '/' := by
    intro x hx hslash
    have hwhole := ((spells_segmentOf c.base.kind hraw).whole x hx).1
    simp [hslash, Kind.isSlash] at hwhole
  have htext := List.append_cancel_left (String.ofList_injective (Request.mk.inj he).1)
  have htail := (List.append_inj htext (hlength.trans hlength'.symm)).2
  have hsegments := congrArg (List.takeWhile (· != '/')) (List.cons.inj htail).2
  rw [takeWhile_segment (hfree hid.isPlainName) hrest,
    takeWhile_segment (hfree hother.isPlainName) hrest'] at hsegments
  exact String.toList_inj.mp (segmentOf_injective _ hsegments)

end Connection

/-- **Ids are spelled in addresses.** For every base address that is accepted, whatever its scheme is,
the path of a request can be extended, so that no segment is left out. An accepted id without
tabs and newlines is spelled by one segment, and the calls with it ask for what is at this
segment below the collection, or for the quotes below that. So no two ids share an address. -/
theorem ids_are_spelled [DomainNames] {text key : String} {t : Transport σ} {c : Connection σ}
    (hc : Connection.connect text key t = .ok c) :
    (∀ (path : String) (ids : List String) (o : Options), ∃ u,
      ((c.base.withPath path.toList).withQuery o.query).appendSegments? (ids.map String.toList) =
        some u ∧ c.address path ids o = u) ∧
    (∃ front,
      Notes ((Client.ofConnection c.noted).movies.list {}) (c.sent (front ++ "/movie".toList)) ∧
      Notes ((Client.ofConnection c.noted).quotes.list {}) (c.sent (front ++ "/quote".toList)) ∧
      ∀ id, Addressable id → ∃ s, c.SpellsId front id s) ∧
    ∀ id other (o p : Options), Addressable id → Addressable other →
      ∀ request ∈ c.idRequests id o, request ∈ c.idRequests other p → id = other := by
  obtain ⟨guarded, segs, hp⟩ := Connection.path_of_connect hc
  obtain ⟨front, hfront⟩ := exists_fronts hp
  refine ⟨?_, ⟨front, ?_, ?_, ?_⟩, ?_⟩
  · intro path ids o
    have hsome : ∃ u, ((c.base.withPath path.toList).withQuery o.query).appendSegments?
        (ids.map String.toList) = some u := by
      unfold withPath
      rw [hp]
      exact ⟨_, rfl⟩
    obtain ⟨u, hu⟩ := hsome
    refine ⟨u, hu, ?_⟩
    show (((c.base.withPath path.toList).withQuery o.query).appendSegments? _).getD _ = u
    rw [hu]
    rfl
  · have hsent := (c.sends_page (α := Movie) Service.moviePath [] {}).notes
    rw [Connection.collection_request hfront rfl Connection.isCollection_movie] at hsent
    exact hsent
  · have hsent := (c.sends_page (α := Quote) Service.quotePath [] {}).notes
    rw [Connection.collection_request hfront rfl Connection.isCollection_quote] at hsent
    exact hsent
  · exact fun id hid => ⟨_, Connection.spellsId_of_fronts hfront hid⟩
  · exact fun id other o p hid hother request => Connection.eq_of_mem_idRequests hfront hid hother

/-- An id of delimiters and one that looks like an encoded dot are spelled, and told apart. -/
theorem ids_are_spelled_delimiters :
    letI := DomainNames.ascii
    let c := Connection.service "key"
    Connection.connect Service.baseUrl "key" Script.transport = .ok c ∧
      Addressable "../%2e?#" ∧ Addressable "%2e" ∧
      (∃ front s, c.SpellsId front "../%2e?#" s) ∧
      ∀ request ∈ c.idRequests "../%2e?#" {}, request ∉ c.idRequests "%2e" {} := by
  let names := DomainNames.ascii
  intro c
  have hconnect := Connection.connect_service "key"
  have hid : Addressable "../%2e?#" := ⟨by decide, by simp [isTabOrNewline]⟩
  have hother : Addressable "%2e" := ⟨by decide, by simp [isTabOrNewline]⟩
  obtain ⟨_, ⟨front, _, _, hspelled⟩, hapart⟩ := ids_are_spelled hconnect
  refine ⟨hconnect, hid, hother, ⟨front, hspelled _ hid⟩, ?_⟩
  intro request hr hq
  exact absurd (hapart _ _ _ _ hid hother request hr hq) (by decide)

end OneApi
