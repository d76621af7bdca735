import OneApi.Connection
import OneApi.Cursor
import OneApi.Document

/-! Collections of a service. A collection is asked for a page, for one item by its id, or for a
walk over all its items. The status of an answer decides whether its body is read; ids that would
address something else are refused before anything is sent. -/

namespace OneApi

/-- The body of a successful answer, or what the status says went wrong. -/
def Response.outcome (r : Response) : Except Error String :=
  if r.status = 200 then .ok r.body
  else if r.status = 401 then .error (.authentication .rejected)
  else if r.status = 404 then .error (.notFound .resource)
  else if r.status = 429 then .error (.rateLimited .refused r.window)
  else .error (.api r.status r.body)

def Response.page {α : Type} [Document α] (r : Response) : Except Error (Page α) :=
  match r.outcome with
  | .error e => .error e
  | .ok body =>
    match decode body with
    | none => .error (.undecodable body)
    | some page => .ok page

/-- An id must not be blank, nor a step inside a path. -/
def checkId (id : String) : Except Error Unit :=
  if Text.isBlank id.toList || id = "." || id = ".." then .error (.notFound (.invalidId id))
  else .ok ()

namespace Connection

variable {σ α : Type} [Document α]

def request (c : Connection σ) (path : String) (segments : List String) (o : Options) : Request :=
  ⟨toString (c.address path segments o), c.key⟩

/-- Asks for one page. -/
def page (c : Connection σ) (path : String) (segments : List String) : Fetch σ α := fun o s =>
  match c.transport (c.request path segments o) s with
  | (.error e, t) => (.error e, t)
  | (.ok r, t) => (r.page, t)

end Connection

/-- A walk over the items of all pages. -/
structure Listing (σ α : Type) where
  fetch : Fetch σ α
  cursor : Cursor α

namespace Listing

variable {σ α : Type}

def start (fetch : Fetch σ α) (o : Options) : Listing σ α := ⟨fetch, .start o⟩

def next (l : Listing σ α) : StateM σ (Option (Except Error α) × Listing σ α) := fun s =>
  match l.cursor.next l.fetch s with
  | ((item, c), t) => ((item, { l with cursor := c }), t)

def drain (l : Listing σ α) : StateM σ (List (Except Error α) × Listing σ α) := fun s =>
  match l.cursor.drain l.fetch s with
  | ((items, c), t) => ((items, { l with cursor := c }), t)

end Listing

structure Collection (σ α : Type) where
  path : String
  connection : Connection σ

namespace Collection

variable {σ α : Type} [Document α]

def list (c : Collection σ α) : Fetch σ α := c.connection.page c.path []

/-- What an answer without items means. -/
def absent (c : Collection σ α) (id : String) : Error :=
  .notFound (.item (String.ofList (Text.dropEnd (· == '/') c.path.toList)) id)

/-- The first item of the page at an id. -/
def get (c : Collection σ α) (id : String) : StateM σ (Except Error α) := fun s =>
  match checkId id with
  | .error e => (.error e, s)
  | .ok () =>
    match c.connection.page c.path [id] {} s with
    | (.error e, t) => (.error e, t)
    | (.ok (page : Page α), t) =>
      match page.items with
      | [] => (.error (c.absent id), t)
      | item :: _ => (.ok item, t)

def listAll (c : Collection σ α) (o : Options) : Listing σ α := .start c.list o

end Collection

end OneApi
