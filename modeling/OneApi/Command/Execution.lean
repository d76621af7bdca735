import OneApi.Command.Arguments
import OneApi.SettingsFile

/-! Carrying out a command line. Settings come from a file, the environment and the switches, the
later ones going first. Each item is written as a document of its own; what was written before a
failure stays written. -/

namespace OneApi.Command

inductive Circumstance where
  | loading (path : String)
  | overriding
  | building
  | listingMovies
  | listingQuotes
  | fetchingMovie (id : String)
  | fetchingMovieWithQuotes (id : String)
  | fetchingQuote (id : String)
  deriving DecidableEq

namespace Circumstance

def message : Circumstance → String
  | loading path => s!"Failed to load settings from {path}"
  | overriding => "Invalid environment override"
  | building => "Failed to create client"
  | listingMovies => "Failed to list movies"
  | listingQuotes => "Failed to list quotes"
  | fetchingMovie id => s!"Failed to fetch movie {id}"
  | fetchingMovieWithQuotes id => s!"Failed to fetch movie {id} with quotes"
  | fetchingQuote id => s!"Failed to fetch quote {id}"

end Circumstance

/-- An error, and what was being done when it came up. -/
structure Failure where
  circumstance : Circumstance
  cause : Error
  deriving DecidableEq

def during {α : Type} (c : Circumstance) : Except Error α → Except Failure α
  | .ok a => .ok a
  | .error e => .error ⟨c, e⟩

abbrev Output := String × Option Failure

def line {α : Type} [Written α] (format : Format) (a : α) : String :=
  (match format with
    | .lines => encode a
    | .indented => encodeIndented a) ++ "\n"

/-- Writes results one after the other up to the first failure. -/
def emitAll {α : Type} [Written α] (format : Format) (c : Circumstance) :
    List (Except Error α) → Output
  | [] => ("", none)
  | .error e :: _ => ("", some ⟨c, e⟩)
  | .ok a :: rest => (line format a ++ (emitAll format c rest).1, (emitAll format c rest).2)

theorem emitAll_ok {α : Type} [Written α] (format : Format) (c : Circumstance) (items : List α) :
    emitAll format c (items.map .ok) = (String.join (items.map (line format)), none) := by
  induction items with
  | nil => rfl
  | cons a items ih => simp [emitAll, ih]

theorem emitAll_ok_append_error {α : Type} [Written α] (format : Format) (c : Circumstance)
    (items : List α) (e : Error) (rest : List (Except Error α)) :
    emitAll format c (items.map .ok ++ .error e :: rest) =
      (String.join (items.map (line format)), some ⟨c, e⟩) := by
  induction items with
  | nil => rfl
  | cons a items ih => simp [emitAll, ih]

variable {σ : Type}

/-- One page written item by item, or all pages when asked to. -/
def list {α : Type} [Document α] (format : Format) (c : Circumstance) (source : Collection σ α)
    (o : Options) (all : Bool) : StateM σ Output := fun s =>
  if all then
    match (source.listAll o).drain s with
    | ((items, _), t) => (emitAll format c items, t)
  else
    match source.list o s with
    | (.error e, t) => (("", some ⟨c, e⟩), t)
    | (.ok page, t) => (emitAll format c (page.items.map .ok), t)

def quoteFilters (dialog movie : Option String) : List Filter :=
  (dialog.toList.map fun r => .on (.ofQuoteField .dialog) (.pattern r)) ++
    movie.toList.map fun m => .equals (.ofQuoteField .movie) m

/-- One result, written alone. -/
def single {α : Type} [Written α] (format : Format) (c : Circumstance)
    (act : StateM σ (Except Error α)) : StateM σ Output := fun s =>
  match act s with
  | (r, t) => (emitAll format c [r], t)

def Task.run (client : Client σ) (format : Format) : Task → StateM σ Output
  | .movies sort limit page all =>
    list format .listingMovies client.movies { sort, limit, page } all
  | .quotes dialog inMovie limit all =>
    list format .listingQuotes client.quotes { filters := quoteFilters dialog inMovie, limit } all
  | .movie id true => single format (.fetchingMovieWithQuotes id) (client.movieWithQuotes id)
  | .movie id false => single format (.fetchingMovie id) (client.movies.get id)
  | .quote id => single format (.fetchingQuote id) (client.quotes.get id)

namespace Invocation

/-- The settings of the file that is named, if one is; `file` is nothing for one that cannot be
read. -/
def fileSettings (i : Invocation) (file : String → Option ByteArray) : Except Failure Settings :=
  match i.config with
  | none => .ok {}
  | some path =>
    during (.loading path)
      (match file path with
        | none => .error .io
        | some content => Settings.ofFile content)

/-- Switches replace the key and the base address. -/
def override (i : Invocation) (s : Settings) : Settings :=
  { s with apiKey := i.apiKey <|> s.apiKey, baseUrl := i.baseUrl.getD s.baseUrl }

def settings (i : Invocation) (file : String → Option ByteArray)
    (lookup : Variable → Option String) : Except Failure Settings := do
  let s ← i.fileSettings file
  match s.overridden lookup with
  | (_, some e) => throw ⟨.overriding, e⟩
  | (t, none) => return i.override t

/-- The client that the settings describe, on a transport of its own. -/
def client [Url.DomainNames] (s : Settings) (transport : Transport σ) : Except Failure (Client σ) :=
  during .building do
    let b : Builder σ ← s.builder
    { b with transport := some transport }.build (fun _ => transport) fun _ _ t => ((), t)

/-- Nothing is sent before the settings and the client are in order. -/
def run [Url.DomainNames] (i : Invocation) (file : String → Option ByteArray)
    (lookup : Variable → Option String) (transport : Transport σ) : StateM σ Output := fun s =>
  match i.settings file lookup with
  | .error f => (("", some f), s)
  | .ok settings =>
    match client settings transport with
    | .error f => (("", some f), s)
    | .ok c => i.task.run c i.format s

end Invocation

end OneApi.Command
