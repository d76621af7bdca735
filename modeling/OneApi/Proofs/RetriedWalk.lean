import OneApi.Proofs.Requests
import OneApi.Proofs.RetryTrace

/-! Walks through a retrying layer. A server delivers each page of a collection after some refusals,
no more than the layer has retries. A walk then yields what it would without any refusal: the items
of all pages in order. Only the record of the script differs, by one request and one pause for each
refusal. -/

namespace OneApi

open Retry Cursor

/-- A page as a server delivers it: the refusals before it, the answer, and the page it holds. -/
structure Delivery (α : Type) where
  refusals : List Response
  answer : Response
  page : Page α

namespace Delivery

variable {α : Type}

def answers (d : Delivery α) : List Answer := d.refusals.map .ok ++ [.ok d.answer]

def undisturbed (d : Delivery α) : Delivery α := { d with refusals := [] }

/-- Page `k` of `n`, delivered within a budget. -/
structure Serves [Document α] (budget : UInt32) (n k : Nat) (d : Delivery α) : Prop where
  refused : ∀ r ∈ d.refusals, r.status = 429 ∧ ¬ Spent r.window
  within : d.refusals.length ≤ budget.toNat
  status : d.answer.status = 200
  decoded : decode d.answer.body = some d.page
  number : d.page.number.toNat = k
  pages : d.page.pages.toNat = n
  filled : n ≠ 1 → d.page.items ≠ []

/-- The pages of a collection, delivered in order. -/
def ServesAll [Document α] (budget : UInt32) (served : List (Delivery α)) : Prop :=
  served ≠ [] ∧ served.length < 2 ^ 32 ∧
    ∀ k (h : k < served.length), Serves budget served.length (k + 1) served[k]

/-- What a delivery leaves in the record of a script. -/
def requests (d : Delivery α) (request : Request) : List Request :=
  List.replicate (d.refusals.length + 1) request

def waits (d : Delivery α) : List UInt32 := (List.range d.refusals.length).map UInt32.ofNat

variable [Document α] {budget : UInt32} {n k : Nat} {d : Delivery α}

theorem Serves.undisturbed (h : Serves budget n k d) : Serves budget n k d.undisturbed :=
  { h with refused := by simp [Delivery.undisturbed], within := Nat.zero_le _ }

theorem ServesAll.undisturbed {served : List (Delivery α)} (h : ServesAll budget served) :
    ServesAll budget (served.map Delivery.undisturbed) := by
  obtain ⟨hne, hlt, hall⟩ := h
  refine ⟨by simpa using hne, by simpa using hlt, fun k hk => ?_⟩
  simp only [List.length_map, List.getElem_map] at hk ⊢
  exact (hall k hk).undisturbed

/-- The layer outlasts the refusals and hands the answer on. -/
theorem Serves.isLeast (h : Serves budget n k d) {s : Script} {rest : List Answer}
    (hs : s.answers = d.answers ++ rest) :
    IsLeast {i | Stops budget s.answer i} d.refusals.length ∧
      s.answer d.refusals.length = .ok d.answer := by
  have hanswer : s.answer d.refusals.length = .ok d.answer := by
    simp [Script.answer, hs, answers, List.getD_eq_getElem?_getD]
  refine ⟨⟨.inr ?_, fun i hi => ?_⟩, hanswer⟩
  · rw [hanswer]
    exact .inl (by simp [h.status])
  · by_contra hlt
    have hi' : i < d.refusals.length := by omega
    have hrefusal : s.answer i = .ok d.refusals[i] := by
      simp [Script.answer, hs, answers, List.getD_eq_getElem?_getD, hi',
        List.getElem?_append_left]
    have hr := h.refused _ (List.getElem_mem hi')
    rcases hi with hb | hf
    · have := h.within
      omega
    · rw [hrefusal] at hf
      exact hf.elim (fun hne => hne hr.1) hr.2

theorem Serves.layer_eq {policy : RetryPolicy} (h : Serves policy.maxRetries n k d)
    (request : Request) (rest : List Answer) (sent : List Request) (waited : List UInt32) :
    layer policy Script.pause Script.transport request ⟨d.answers ++ rest, sent, waited⟩ =
      (.ok d.answer, ⟨rest, sent ++ d.requests request, waited ++ d.waits⟩) := by
  obtain ⟨hleast, hanswer⟩ := h.isLeast (s := ⟨d.answers ++ rest, sent, waited⟩) rfl
  have hlen : d.answers.length = d.refusals.length + 1 := by simp [answers]
  rw [layer_script hleast, hanswer]
  simp [verdict, h.status, Script.after, requests, waits, ← hlen]

theorem Serves.page_eq (h : Serves budget n k d) : d.answer.page = .ok d.page := by
  simp [Response.page, Response.outcome, h.status, h.decoded]

/-- A delivered page is the last exactly when its number says so. -/
theorem Serves.goesOn_iff (h : Serves budget n k d) (hn : n < 2 ^ 32) (hpos : 0 < k) :
    GoesOn k d.page ↔ k < n := by
  unfold GoesOn
  rw [UInt64.lt_iff_toNat_lt, h.number, h.pages]
  constructor
  · exact fun hg => hg.2.1
  · exact fun hlt => ⟨h.filled (by omega), hlt, by omega⟩

end Delivery

/-! ## Pages through the layer -/

open Delivery

namespace Connection

variable {α : Type} [Document α]

/-- A connection whose transport answers a script through a retrying layer. -/
def retried (policy : RetryPolicy) (base : Url) (key : String) : Connection Script :=
  ⟨base, key, layer policy Script.pause Script.transport⟩

theorem retried_transport (policy : RetryPolicy) (base : Url) (key : String) :
    (retried policy base key).transport = layer policy Script.pause Script.transport := rfl

/-- What a walk leaves in the record of a script whose deliveries begin with page `k`. -/
def walkRequests (c : Connection Script) (path : String) (segments : List String) (o : Options)
    (k : Nat) (served : List (Delivery α)) : List Request :=
  (served.zipIdx k).flatMap fun (d, i) => d.requests (c.request path segments (o.forPage (.ofNat i)))

theorem retried_page {policy : RetryPolicy} {n k : Nat} {d : Delivery α}
    (h : Serves policy.maxRetries n k d) (base : Url) (key path : String) (segments : List String)
    (o : Options) (rest : List Answer) (sent : List Request) (waited : List UInt32) :
    (retried policy base key).page path segments o ⟨d.answers ++ rest, sent, waited⟩ =
      (.ok d.page,
        ⟨rest, sent ++ d.requests ((retried policy base key).request path segments o),
          waited ++ d.waits⟩) := by
  unfold page
  rw [retried_transport, h.layer_eq]
  simp only [h.page_eq]

theorem retried_fetches {policy : RetryPolicy} {n : Nat} (hn : n < 2 ^ 32) (base : Url)
    (key path : String) (segments : List String) (o : Options) (rest : List Answer)
    (served : List (Delivery α)) (k : Nat) (hpos : 0 < k) (hne : served ≠ [])
    (hlen : k + served.length = n + 1)
    (hall : ∀ i (h : i < served.length), Serves policy.maxRetries n (k + i) served[i])
    (sent : List Request) (waited : List UInt32) :
    Fetches ((retried policy base key).page path segments) o k
      ⟨served.flatMap Delivery.answers ++ rest, sent, waited⟩ (served.map Delivery.page) none
      ⟨rest, sent ++ (retried policy base key).walkRequests path segments o k served,
        waited ++ served.flatMap Delivery.waits⟩ := by
  induction served generalizing k sent waited with
  | nil => exact absurd rfl hne
  | cons d served ih =>
    have hd : Serves policy.maxRetries n k d := hall 0 (by simp)
    simp only [List.length_cons] at hlen
    have hgoes := hd.goesOn_iff hn hpos
    have hpage := retried_page hd base key path segments (o.forPage (.ofNat k))
      (served.flatMap Delivery.answers ++ rest) sent waited
    rw [List.flatMap_cons, List.append_assoc]
    cases served with
    | nil =>
      refine .last (by simpa [walkRequests] using hpage) ?_
      simp only [List.length_nil] at hlen
      exact fun hg => by have := hgoes.mp hg; omega
    | cons d' served =>
      simp only [List.length_cons] at hlen
      refine .more hpage (hgoes.mpr (by omega)) ?_
      have hrest := ih (k + 1) (by omega) (by simp) (by simp only [List.length_cons]; omega)
        (fun i hi => by
          have := hall (i + 1) (by simpa using hi)
          rwa [show k + (i + 1) = k + 1 + i by omega] at this)
        (sent ++ d.requests ((retried policy base key).request path segments (o.forPage (.ofNat k))))
        (waited ++ d.waits)
      simpa [walkRequests, List.append_assoc] using hrest

end Connection

/-! ## Whole walks -/

namespace Listing

variable {α : Type} [Document α]

/-- A walk gets through deliveries: it yields the items of every page, ends after the last, asks
for each page once more than it is refused, and leaves the other answers alone. Without the
refusals it yields the same and ends in the same state. -/
structure GetsThrough (c : Connection Script) (path : String) (segments : List String)
    (o : Options) (served : List (Delivery α)) (l : Listing Script α) : Prop where
  drain_eq : ∀ rest sent waited,
    l.drain ⟨served.flatMap Delivery.answers ++ rest, sent, waited⟩ =
      ((served.flatMap fun d => d.page.items.map .ok,
          { l with cursor := (Cursor.start o).ended served.length }),
        ⟨rest, sent ++ c.walkRequests path segments o 1 served,
          waited ++ served.flatMap Delivery.waits⟩)
  undisturbed : ∀ rest sent waited,
    (l.drain ⟨(served.map Delivery.undisturbed).flatMap Delivery.answers ++ rest, sent, waited⟩).1 =
      (l.drain ⟨served.flatMap Delivery.answers ++ rest, sent, waited⟩).1

theorem drain_retried {policy : RetryPolicy} {served : List (Delivery α)}
    (h : ServesAll policy.maxRetries served) (base : Url) (key path : String)
    (segments : List String) (o : Options) (rest : List Answer) (sent : List Request)
    (waited : List UInt32) :
    (start ((Connection.retried policy base key).page path segments) o).drain
        ⟨served.flatMap Delivery.answers ++ rest, sent, waited⟩ =
      ((served.flatMap fun d => d.page.items.map .ok,
          ⟨(Connection.retried policy base key).page path segments,
            (Cursor.start o).ended served.length⟩),
        ⟨rest, sent ++ (Connection.retried policy base key).walkRequests path segments o 1 served,
          waited ++ served.flatMap Delivery.waits⟩) := by
  obtain ⟨hne, hlt, hall⟩ := h
  have hfetches := Connection.retried_fetches hlt base key path segments o rest served 1 (by omega)
    hne (by omega) (fun i hi => by simpa only [Nat.add_comm] using hall i hi) sent waited
  rw [drain_of_fetches hfetches]
  simp [yields, List.flatMap_map]

theorem getsThrough_retried {policy : RetryPolicy} {served : List (Delivery α)}
    (h : ServesAll policy.maxRetries served) (base : Url) (key path : String)
    (segments : List String) (o : Options) :
    GetsThrough (Connection.retried policy base key) path segments o served
      (start ((Connection.retried policy base key).page path segments) o) where
  drain_eq := drain_retried h base key path segments o
  undisturbed rest sent waited := by
    rw [drain_retried h, drain_retried h.undisturbed]
    simp [List.flatMap_map, Delivery.undisturbed]

end Listing

/-- **Walks through a retrying layer are complete and undisturbed.** Whatever the refusals before
each page, as long as the budget outlasts them, a walk over a collection and a walk over the quotes
of a movie get through all deliveries. A single request for a page is the one that is repeated. -/
theorem walks_retried (policy : RetryPolicy) (base : Url) (key : String) (o : Options) :
    (∀ {α : Type} [Document α] (path : String) (served : List (Delivery α)),
      ServesAll policy.maxRetries served →
      Listing.GetsThrough (Connection.retried policy base key) path [] o served
        (Collection.listAll ⟨path, Connection.retried policy base key⟩ o)) ∧
    (∀ (id : String) (served : List (Delivery Quote)), checkId id = .ok () →
      ServesAll policy.maxRetries served →
      Listing.GetsThrough (Connection.retried policy base key) Service.moviePath [id, "quote"] o
        served ((Client.ofConnection (Connection.retried policy base key)).allQuotesOf id o)) ∧
    ∀ {α : Type} [Document α] (path : String) (n : UInt32) (s : Script),
      ((Collection.mk path ⟨base, key, Script.transport⟩).list (o.forPage n) s :
          Except Error (Page α) × Script).2.requests =
        s.requests ++ [(Connection.retried policy base key).request path [] (o.forPage n)] := by
  refine ⟨fun path served h => Listing.getsThrough_retried h base key path [] o, ?_, ?_⟩
  · intro id served hid h
    unfold Client.allQuotesOf
    rw [Client.quotesOf_of_accepted hid]
    exact Listing.getsThrough_retried h base key Service.moviePath [id, "quote"] o
  · intro α _ path n s
    exact Connection.page_requests rfl path [] (o.forPage n) s

/-- A page of two quotes after two refusals, the second with a window that is not spent. -/
def Delivery.opening : Delivery Quote :=
  let page : Page Quote :=
    { items := [{ dialog := "Fly" }, { dialog := "you fools" }], number := 1, pages := 2 }
  { refusals := [⟨429, "", []⟩,
      ⟨429, "", [("x-ratelimit-limit", "100".toList.flatMap String.utf8EncodeChar),
        ("x-ratelimit-remaining", "7".toList.flatMap String.utf8EncodeChar)]⟩]
    answer := ⟨200, encode page, []⟩
    page := page }

/-- The last page after one refusal. -/
def Delivery.closing : Delivery Quote :=
  let page : Page Quote := { items := [{ dialog := "My precious" }], number := 2, pages := 2 }
  { refusals := [⟨429, "", []⟩], answer := ⟨200, encode page, []⟩, page := page }

/-- An encoded document is read back without a detour through its text as a string. -/
theorem decode_encode_eq_parse {α β : Type} [Written α] [Document β] (a : α) :
    (decode (encode a) : Option β) =
      (Json.parse ((Written.toJson a).write false 0)).bind Document.ofJson := by
  simp [decode, encode, Json.compact]

theorem Delivery.servesAll_two : ServesAll 2 [opening, closing] := by
  have hopening : Serves 2 2 1 opening := by
    refine ⟨by decide +kernel, by decide, rfl, ?_, rfl, rfl, by simp [opening]⟩
    unfold opening
    rw [decode_encode_eq_parse]
    decide +kernel
  have hclosing : Serves 2 2 2 closing := by
    refine ⟨by decide +kernel, by decide, rfl, ?_, rfl, rfl, by simp [closing]⟩
    unfold closing
    rw [decode_encode_eq_parse]
    decide +kernel
  refine ⟨by simp, by decide, fun k hk => ?_⟩
  match k, hk with
  | 0, _ => exact hopening
  | 1, _ => exact hclosing

theorem walks_retried_two_pages :
    let c := Connection.retried (.constant 2 .zero)
      ⟨"https".toList, none, .hierarchical false ["v2".toList], none, none⟩ "key"
    let o : Options := { limit := some 2, page := some 7 }
    ServesAll 2 [opening, closing] ∧ checkId "5cd9" = .ok () ∧
      Listing.GetsThrough c "/quote" [] o [opening, closing] (Collection.listAll ⟨"/quote", c⟩ o) ∧
      Listing.GetsThrough c Service.moviePath ["5cd9", "quote"] o [opening, closing]
        ((Client.ofConnection c).allQuotesOf "5cd9" o) := by
  have hid : checkId "5cd9" = .ok () := by decide
  intro c o
  exact ⟨servesAll_two, hid, (walks_retried _ _ _ o).1 "/quote" _ servesAll_two,
    (walks_retried _ _ _ o).2.1 "5cd9" _ hid servesAll_two⟩

end OneApi
