import OneApi.Proofs.BareParts
import OneApi.Proofs.Requests

/-! The parts of a request's address. Whatever is asked for, scheme and authority are those of the
base and no part before the query holds a question mark or a hash. So the query of a request begins
at the first question mark of its address, reaches its end, and changes nothing before it. -/

namespace OneApi.Url

/-- The path of an endpoint depends on nothing but the path of the base. -/
theorem endpoint_eq {base : Url} {guarded : Bool} {segs : List Segment}
    (hp : base.path = .hierarchical guarded segs) (path : List Char) (ids : List (List Char)) :
    ∃ names, BarePath names ∧ ∀ query, base.endpoint path ids query =
      { base with
        path := .hierarchical guarded names
        query := (base.withQuery query).query
        fragment := none } := by
  let joined := Path.segments base.kind (dropTabs (joinedPath segs path))
  have hjoined : BarePath (Path.finishSpelled base.kind joined) :=
    Path.bare_finishSpelled (Path.bare_segments _ _)
  have hwith : base.withPath path =
      { base with path := .hierarchical guarded (Path.finishSpelled base.kind joined) } := by
    unfold withPath
    rw [hp]
  refine ⟨Path.append base.kind _ ids, Path.bare_append ids hjoined, fun query => ?_⟩
  unfold endpoint
  rw [hwith]
  rfl

/-- Everything before the query. -/
def front (u : Url) : List Char := u.origin ++ u.path.written

theorem bare_front {u : Url} (ho : Bare u.origin) {guarded : Bool} {names : List Segment}
    (hp : u.path = .hierarchical guarded names) (hn : BarePath names) : Bare u.front := by
  have hslash : isPathChar '/' = true := by decide
  have htext : Bare (Path.text names) := by
    intro c hc
    obtain ⟨t, ht, hct⟩ := List.mem_flatMap.mp hc
    rcases List.mem_cons.mp hct with rfl | hct
    · exact hslash
    · exact hn t ht c hct
  unfold front
  rw [hp]
  refine Url.bare_append.mpr ⟨ho, Url.bare_append.mpr ⟨?_, htext⟩⟩
  split
  · exact bare_cons.mpr ⟨hslash, bare_cons.mpr ⟨by decide, bare_nil⟩⟩
  · exact bare_nil

/-- The query and the fragment of the base are lost. -/
theorem endpoint_with (base : Url) (query fragment : Option (List Char)) (path : List Char)
    (ids : List (List Char)) (asked : List Char) :
    endpoint { base with query, fragment } path ids asked = base.endpoint path ids asked := by
  have hquery : Url.withQuery (withPath { base with query, fragment } path) asked =
      (base.withPath path).withQuery asked := by
    obtain ⟨scheme, authority, basePath, _, _⟩ := base
    cases basePath <;> rfl
  unfold endpoint
  rw [hquery]

theorem hash_not_mem_encode {marks : List Char} (hm : '#' ∈ marks) (s : List Char) :
    '#' ∉ encode marks s := by
  intro h
  rcases Text.mem_percentEncode h with ⟨hk, _⟩ | h | ⟨n, hn, h⟩
  · simp [keepExcept, hm] at hk
  · revert h
    decide
  · have hdigit : ∀ n < 16, '#' ≠ Text.hexDigit n := by decide
    exact hdigit n hn h

theorem hash_not_mem_withQuery (u : Url) (query : List Char) :
    '#' ∉ marked '?' (u.withQuery query).query := by
  unfold withQuery
  dsimp only
  split
  · simp [marked]
  · rw [marked, List.mem_cons, not_or]
    refine ⟨by decide, hash_not_mem_encode ?_ _⟩
    split <;> decide

theorem takeWhile_front {s : List Char} (hs : Bare s) (query : Option (List Char)) :
    (s ++ marked '?' query).takeWhile (· != '?') = s := by
  rw [List.takeWhile_append_of_pos hs.ne_question]
  cases query <;> simp [marked]

/-- An address that shares scheme and authority with a base and whose text is cut by its first
question mark: the path is before it, the query behind it, and there is no fragment. -/
structure Asks (base : Url) (query : List Char) (u : Url) : Prop where
  scheme : u.scheme = base.scheme
  authority : u.authority = base.authority
  front : u.text.takeWhile (· != '?') = base.origin ++ u.path.written
  query : u.query.isSome = true ↔ query ≠ []
  fragment : u.fragment = none
  hash : '#' ∉ u.text

theorem asks_endpoint {base : Url} (hb : Bare base.origin) {guarded : Bool} {segs : List Segment}
    (hp : base.path = .hierarchical guarded segs) (path : List Char) (ids : List (List Char))
    (query : List Char) : Asks base query (base.endpoint path ids query) := by
  obtain ⟨names, hnames, hendpoint⟩ := endpoint_eq hp path ids
  rw [hendpoint query]
  have hfront : Bare (base.origin ++ (Url.Path.hierarchical guarded names).written) :=
    bare_front (u := { base with path := .hierarchical guarded names }) hb rfl hnames
  have htext : Url.text { base with
      path := .hierarchical guarded names, query := (base.withQuery query).query, fragment := none } =
      base.origin ++ (Url.Path.hierarchical guarded names).written ++
        marked '?' (base.withQuery query).query := List.append_nil _
  refine ⟨rfl, rfl, ?_, ?_, rfl, ?_⟩
  · rw [htext, takeWhile_front hfront]
  · cases query <;> simp [withQuery]
  · rw [htext, List.mem_append, not_or]
    exact ⟨fun h => by simpa [isPathChar] using hfront _ h, hash_not_mem_withQuery base query⟩

end OneApi.Url

namespace OneApi.Connection

open Url

variable {σ : Type} {text key : String} {transport : Transport σ} {c : Connection σ}

/-- **Queries stay behind the question mark.** For every base address that is accepted and every path
and segments, the options of a request decide on nothing before the first question mark of its
address; scheme and authority are those of the base, nothing is left of the query and the fragment
of the base, and there is a query exactly when the options are written as some text. -/
theorem query_behind_mark [DomainNames] (hc : connect text key transport = .ok c) (path : String)
    (segments : List String) (o p : Options) :
    Asks c.base o.query (c.address path segments o) ∧
    (c.address path segments o).text.takeWhile (· != '?') =
      (c.address path segments p).text.takeWhile (· != '?') ∧
    ∀ query fragment, address { c with base := { c.base with query, fragment } } path segments o =
      c.address path segments o := by
  obtain ⟨guarded, segs, hp⟩ := path_of_connect hc
  have hbare := bare_of_parse (connect_ok hc).1
  have hasks (o : Options) : Asks c.base o.query (c.address path segments o) :=
    asks_endpoint hbare hp path.toList (segments.map String.toList) o.query
  obtain ⟨names, _, hendpoint⟩ := endpoint_eq hp path.toList (segments.map String.toList)
  refine ⟨hasks o, ?_, fun query fragment => endpoint_with c.base query fragment _ _ _⟩
  rw [(hasks o).front, (hasks p).front]
  simp only [address, hendpoint]

/-- The base has a user, a port, a query and a fragment; the options are a fragment of marks. -/
theorem query_behind_mark_raw :
    letI := DomainNames.ascii
    let base : Url := ⟨"http".toList, some ⟨"me".toList, "pw".toList, .name "host.test".toList, some 81⟩,
      .hierarchical false ["v2".toList], some "a=b".toList, some "top".toList⟩
    let c : Connection Script := ⟨base, "key", Script.transport⟩
    let o : Options := { filters := [.raw "#/../?"], sort := some ⟨"\u00e9\t#", .ascending⟩ }
    connect "http://me:pw@host.test:81/v2?a=b#top" "key" Script.transport = .ok c ∧
      Asks base o.query (c.address "?/#/movie" ["a/?#"] o) ∧
      (c.address "?/#/movie" ["a/?#"] o).text.takeWhile (· != '?') =
        (c.address "?/#/movie" ["a/?#"] {}).text.takeWhile (· != '?') := by
  let names := DomainNames.ascii
  intro base c o
  have hparse : Url.parse "http://me:pw@host.test:81/v2?a=b#top".toList = .ok base := by
    decide +kernel
  have hconnect : connect "http://me:pw@host.test:81/v2?a=b#top" "key" Script.transport = .ok c := by
    rw [connect, hparse]
  have h := query_behind_mark hconnect "?/#/movie" ["a/?#"] o {}
  exact ⟨hconnect, h.1, h.2.1⟩

end OneApi.Connection
