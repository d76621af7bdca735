import OneApi.Client

/-! A session: calls on one client, one after the other. Walks are opened under names and stand still
between the calls that step them, so several can be under way at once. Opening a walk under a name
that is taken replaces the one before. -/

namespace OneApi

/-- What a walk goes through. -/
inductive Source where
  | movies
  | quotes
  | quotesOf (movie : String)
  deriving DecidableEq

inductive Call where
  | movies (o : Options)
  | quotes (o : Options)
  | movie (id : String)
  | quote (id : String)
  | quotesOf (movie : String) (o : Options)
  | movieWithQuotes (id : String)
  | start (name : String) (source : Source) (o : Options)
  /-- One step of a walk. -/
  | next (name : String)
  /-- All that is left of a walk. -/
  | drain (name : String)
  | drop (name : String)
  deriving DecidableEq

inductive Reply where
  | movies (r : Except Error (Page Movie))
  | quotes (r : Except Error (Page Quote))
  | movie (r : Except Error Movie)
  | quote (r : Except Error Quote)
  | movieWithQuotes (r : Except Error MovieWithQuotes)
  | movieItems (items : List (Except Error Movie))
  | quoteItems (items : List (Except Error Quote))
  | nothing

/-- A walk that is under way. -/
inductive Walk where
  | movies (cursor : Cursor Movie)
  | quotes (cursor : Cursor Quote)
  | quotesOf (movie : String) (cursor : Cursor Quote)

structure Session (σ : Type) where
  walks : List (String × Walk) := []
  state : σ

variable {σ α : Type}

/-- The next item of a walk as a list, or all that are left. -/
def Cursor.pull (fetch : Fetch σ α) (all : Bool) (c : Cursor α) :
    StateM σ (List (Except Error α) × Cursor α) := fun s =>
  if all then c.drain fetch s
  else
    match c.next fetch s with
    | ((item, d), t) => ((item.toList, d), t)

namespace Walk

def start (o : Options) : Source → Walk
  | .movies => movies (.start o)
  | .quotes => quotes (.start o)
  | .quotesOf movie => quotesOf movie (.start o)

def pull (client : Client σ) (all : Bool) : Walk → StateM σ (Reply × Walk)
  | movies c => fun s =>
    match c.pull client.movies.list all s with
    | ((items, d), t) => ((.movieItems items, movies d), t)
  | quotes c => fun s =>
    match c.pull client.quotes.list all s with
    | ((items, d), t) => ((.quoteItems items, quotes d), t)
  | quotesOf movie c => fun s =>
    match c.pull (client.quotesOf movie) all s with
    | ((items, d), t) => ((.quoteItems items, quotesOf movie d), t)

end Walk

namespace Session

/-- A call that leaves the walks alone. -/
def ask (act : StateM σ α) (reply : α → Reply) : StateM (Session σ) Reply := fun s =>
  match act s.state with
  | (r, t) => (reply r, { s with state := t })

def pull (client : Client σ) (all : Bool) (name : String) : StateM (Session σ) Reply := fun s =>
  match s.walks.lookup name with
  | none => (.nothing, s)
  | some walk =>
    match walk.pull client all s.state with
    | ((reply, left), t) => (reply, { walks := (name, left) :: s.walks, state := t })

end Session

namespace Client

def call (c : Client σ) : Call → StateM (Session σ) Reply
  | .movies o => Session.ask (c.movies.list o) .movies
  | .quotes o => Session.ask (c.quotes.list o) .quotes
  | .movie id => Session.ask (c.movies.get id) .movie
  | .quote id => Session.ask (c.quotes.get id) .quote
  | .quotesOf movie o => Session.ask (c.quotesOf movie o) .quotes
  | .movieWithQuotes id => Session.ask (c.movieWithQuotes id) .movieWithQuotes
  | .start name source o => fun s => (.nothing, { s with walks := (name, .start o source) :: s.walks })
  | .next name => Session.pull c false name
  | .drain name => Session.pull c true name
  | .drop name => fun s => (.nothing, { s with walks := s.walks.filter fun w => w.1 != name })

/-- Makes calls one after the other. -/
def calls (c : Client σ) : List Call → StateM (Session σ) (List Reply)
  | [] => fun s => ([], s)
  | call :: rest => fun s =>
    match c.call call s with
    | (reply, t) =>
      match c.calls rest t with
      | (replies, u) => (reply :: replies, u)

end Client

end OneApi
