import OneApi.Proofs.Building
import OneApi.Proofs.Walk

/-! What calls leave in the record of a script. A page is one request, an accepted id is one request,
and a walk asks for the pages `1, 2, …` one after the other. -/

namespace OneApi

open Cursor

variable {α : Type}

namespace Connection

variable [Document α] {c : Connection Script}

theorem page_requests (hc : c.transport = Script.transport) (path : String)
    (segments : List String) (o : Options) (s : Script) :
    (c.page path segments o s : Except Error (Page α) × Script).2.requests =
      s.requests ++ [c.request path segments o] := by
  have hsent (q : Request) : (c.transport q s).2.requests = s.requests ++ [q] := by
    rw [hc]
    unfold Script.transport
    split <;> rfl
  unfold page
  rw [← hsent]
  split <;> simp_all

theorem requests_of_fetches (hc : c.transport = Script.transport) {path : String}
    {segments : List String} {o : Options} {n : Nat} {s t : Script} {pages : List (Page α)}
    {failure : Option Error} (h : Fetches (c.page path segments) o n s pages failure t) :
    t.requests = s.requests ++ (List.range' n (fetchCount pages failure)).map
      fun i => c.request path segments (o.forPage (.ofNat i)) := by
  have hone {n : Nat} {s t : Script} {answer : Except Error (Page α)}
      (hf : c.page path segments (o.forPage (.ofNat n)) s = (answer, t)) :
      t.requests = s.requests ++ [c.request path segments (o.forPage (.ofNat n))] := by
    have := page_requests (α := α) hc path segments (o.forPage (.ofNat n)) s
    rwa [hf] at this
  induction h with
  | failed hf => exact hone hf
  | last hf _ => exact hone hf
  | @more n s t u page pages failure hf _ _ ih =>
    rw [ih, hone hf, fetchCount_cons, List.range'_succ, List.map_cons, List.append_assoc,
      List.singleton_append]

end Connection

theorem Listing.drain_of_fetches {σ : Type} {fetch : Fetch σ α} {o : Options} {s t : σ}
    {pages : List (Page α)} {failure : Option Error} (h : Fetches fetch o 1 s pages failure t) :
    (start fetch o).drain s =
      ((yields pages failure, ⟨fetch, (Cursor.start o).ended pages.length⟩), t) := by
  unfold drain
  rw [show (start fetch o).cursor.drain (start fetch o).fetch s = _ from h.start_gives.drain_eq]
  rfl

theorem Collection.get_requests [Document α] {c : Collection Script α}
    (hc : c.connection.transport = Script.transport) {id : String} (hid : checkId id = .ok ())
    (s : Script) :
    (c.get id s).2.requests = s.requests ++ [c.connection.request c.path [id] {}] := by
  have hsent := Connection.page_requests (α := α) hc c.path [id] {} s
  unfold get
  rw [hid]
  dsimp only
  split
  · rename_i h
    rw [← hsent, h]
  · rename_i h
    rw [← hsent, h]
    split <;> rfl

namespace Client

theorem quotesOf_of_accepted {σ : Type} {id : String} (h : checkId id = .ok ())
    (c : Connection σ) :
    (ofConnection c).quotesOf id = c.page Service.moviePath [id, "quote"] := by
  funext o s
  simp [quotesOf, h, ofConnection]

theorem allQuotesOf_requests {c : Connection Script} (hc : c.transport = Script.transport)
    {id : String} (hid : checkId id = .ok ()) (o : Options) (s : Script) :
    ∃ n, (((ofConnection c).allQuotesOf id o).drain s).2.requests =
      s.requests ++ (List.range' 1 n).map
        fun i => c.request Service.moviePath [id, "quote"] (o.forPage (.ofNat i)) := by
  unfold allQuotesOf
  rw [quotesOf_of_accepted hid]
  obtain ⟨pages, failure, t, hfetches, _⟩ :=
    exists_fetches (c.page (α := Quote) Service.moviePath [id, "quote"]) o 1 (by decide) s
  rw [Listing.drain_of_fetches hfetches]
  exact ⟨_, Connection.requests_of_fetches hc hfetches⟩

end Client

end OneApi
