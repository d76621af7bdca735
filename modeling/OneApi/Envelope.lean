import OneApi.Json.Record
import OneApi.Movie
import OneApi.Page
import OneApi.Quote

/-! Pages as the service sends them: the items under `docs`, which must be there, and counters
that are zero when they are missing. -/

namespace OneApi

namespace Page

variable {α : Type}

def keys : List String := ["docs", "total", "limit", "offset", "page", "pages"]

open Json in
def ofJson (item : Json → Option α) (v : Json) : Option (Page α) := do
  let fields ← fields? keys v
  let count (key : String) := field fields key (some 0) count64?
  return { items := ← field fields "docs" none (list? item), total := ← count "total"
           limit := ← count "limit", offset := ← count "offset", number := ← count "page"
           pages := ← count "pages" }

open Json in
def toJson (item : α → Json) (p : Page α) : Json :=
  .ofMembers [("docs", .array (p.items.map item)), ("total", ofNat p.total.toNat),
    ("limit", ofNat p.limit.toNat), ("offset", ofNat p.offset.toNat),
    ("page", ofNat p.number.toNat), ("pages", ofNat p.pages.toNat)]

end Page

structure MovieWithQuotes where
  movie : Movie
  quotes : Page Quote

def MovieWithQuotes.toJson (m : MovieWithQuotes) : Json :=
  .ofMembers [("movie", m.movie.toJson), ("quotes", m.quotes.toJson Quote.toJson)]

end OneApi
