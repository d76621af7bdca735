import OneApi.Collection
import OneApi.Retry

/-! The client of the service: its movies, its quotes, and the quotes of a movie. A builder
gathers what a client needs; the key is checked first, then the network, then the base address.
Where no transport is given the network is used, behind a layer that retries if any retries are
allowed. -/

namespace OneApi

namespace Service

def library : String := "lotr-sdk"

def version : String := "0.1.0"

def baseUrl : String := "https://the-one-api.dev/v2"

def moviePath : String := "/movie"

def quotePath : String := "/quote"

def timeout : Span := .ofSeconds 10

def maxRetries : UInt32 := 3

end Service

structure Client (σ : Type) where
  movies : Collection σ Movie
  quotes : Collection σ Quote

namespace Client

variable {σ : Type}

def ofConnection (c : Connection σ) : Client σ := ⟨⟨Service.moviePath, c⟩, ⟨Service.quotePath, c⟩⟩

/-- One page of the quotes of a movie. -/
def quotesOf (c : Client σ) (movie : String) : Fetch σ Quote := fun o s =>
  match checkId movie with
  | .error e => (.error e, s)
  | .ok () => c.movies.connection.page Service.moviePath [movie, "quote"] o s

def allQuotesOf (c : Client σ) (movie : String) (o : Options) : Listing σ Quote :=
  .start (c.quotesOf movie) o

/-- A movie, and the first page of its quotes if there is one. -/
def movieWithQuotes (c : Client σ) (id : String) : StateM σ (Except Error MovieWithQuotes) :=
  fun s =>
    match c.movies.get id s with
    | (.error e, t) => (.error e, t)
    | (.ok movie, t) =>
      match c.quotesOf id {} t with
      | (.error e, u) => (.error e, u)
      | (.ok quotes, u) => (.ok ⟨movie, quotes⟩, u)

end Client

/-- How requests go out. -/
structure Network where
  timeout : Span := Service.timeout
  userAgent : String := s!"{Service.library}/{Service.version}"
  deriving DecidableEq

namespace Network

/-- A header can hold no controls, apart from the tab. -/
def isHeaderChar (c : Char) : Bool := (' ' ≤ c && c != '\x7f') || c == '\t'

def unbuildable : Error := .transport "builder error" "builder error"

def check (n : Network) : Except Error Unit :=
  if n.userAgent.toList.all isHeaderChar then .ok () else .error unbuildable

end Network

structure Builder (σ : Type) where
  apiKey : Option String := none
  baseUrl : String := Service.baseUrl
  timeout : Span := Service.timeout
  maxRetries : UInt32 := Service.maxRetries
  delay : UInt32 → Span := RetryPolicy.standard.delay
  userAgent : Option String := none
  transport : Option (Transport σ) := none

namespace Builder

variable {σ : Type}

/-- The key without the spaces around it. -/
def key (b : Builder σ) : Except Error String :=
  match b.apiKey with
  | none => .error (.missingField "api_key")
  | some k => if Text.isBlank k.toList then .error (.config .blankKey) else .ok (Text.trim k)

def network (b : Builder σ) : Network :=
  match b.userAgent with
  | none => { timeout := b.timeout }
  | some agent => { timeout := b.timeout, userAgent := agent }

/-- The transport of a client; `send` gives the one of a network. -/
def stack (b : Builder σ) (send : Network → Transport σ)
    (pause : UInt32 → Span → StateM σ Unit) : Except Error (Transport σ) :=
  match b.transport with
  | some t => .ok t
  | none =>
    match b.network.check with
    | .error e => .error e
    | .ok () =>
      if b.maxRetries = 0 then .ok (send b.network)
      else .ok (Retry.layer ⟨b.maxRetries, b.delay⟩ pause (send b.network))

def build [Url.DomainNames] (b : Builder σ) (send : Network → Transport σ)
    (pause : UInt32 → Span → StateM σ Unit) : Except Error (Client σ) := do
  let key ← b.key
  let transport ← b.stack send pause
  return .ofConnection (← Connection.connect b.baseUrl key transport)

end Builder

end OneApi
