import OneApi.Client
import OneApi.Text.Quoted

/-! Descriptions of builders, clients and walks for logs. The key is never part of one. -/

namespace OneApi

/-- The name of a record with its fields; `more` says that there are others. -/
def described (name : String) (fields : List (String × String)) (more : Bool) : String :=
  let shown := fields.map (fun f => f.1 ++ ": " ++ f.2) ++ if more then [".."] else []
  name ++ " \x7b " ++ ", ".intercalate shown ++ " \x7d"

def describedOption {α : Type} (write : α → String) : Option α → String
  | none => "None"
  | some a => "Some(" ++ write a ++ ")"

def redacted : String := Text.quoted "<redacted>"

def describedList (items : List String) : String := "[" ++ ", ".intercalate items ++ "]"

def describedCount (n : UInt32) : String := toString n.toNat

def Direction.description : Direction → String
  | ascending => "Asc"
  | descending => "Desc"

def SortKey.description (k : SortKey) : String :=
  "(" ++ Text.quoted k.field ++ ", " ++ k.direction.description ++ ")"

def Filter.description (f : Filter) : String :=
  "FilterExpression(" ++ Text.quoted (String.ofList f.fragment) ++ ")"

def Options.description (o : Options) : String :=
  described "RequestOptions"
    [("filters", describedList (o.filters.map Filter.description)),
      ("sort", describedOption SortKey.description o.sort),
      ("limit", describedOption describedCount o.limit),
      ("page", describedOption describedCount o.page),
      ("offset", describedOption describedCount o.offset)] false

def Cursor.description {α : Type} (c : Cursor α) : String :=
  described "AutoPaginator"
    [("options", c.options.description), ("buffered", toString c.buffered.length),
      ("next_page", describedOption describedCount c.nextPage),
      ("pages_fetched", describedCount c.pagesFetched)] true

variable {σ : Type}

def Connection.description (c : Connection σ) : String :=
  described "Connection"
    [("base_url", Text.quoted (toString c.base)), ("api_key", redacted)] true

def Collection.description {α : Type} (c : Collection σ α) : String :=
  described "ResourceClient"
    [("path", Text.quoted c.path), ("connection", c.connection.description)] false

def Client.description (c : Client σ) : String :=
  described "OneApiClient"
    [("movies", described "MovieResource" [("client", c.movies.description)] false),
      ("quotes", described "QuoteResource" [("client", c.quotes.description)] false)] false

def Builder.description (b : Builder σ) : String :=
  described "OneApiClientBuilder"
    [("api_key", describedOption (fun _ => redacted) b.apiKey),
      ("base_url", Text.quoted b.baseUrl), ("timeout", String.ofList b.timeout.text),
      ("max_retries", describedCount b.maxRetries),
      ("custom_transport", if b.transport.isSome then "true" else "false")] true

end OneApi
