import OneApi.Field
import OneApi.Json.Record

/-! Quotes: lines of dialog with the movie and the character they belong to, and how they stand in
documents. -/

namespace OneApi

structure Quote where
  id : String := ""
  dialog : String := ""
  movie : String := ""
  character : String := ""
  deriving DecidableEq

namespace Quote

def keys : List String := QuoteField.all.map QuoteField.key

open Json in
def ofJson (v : Json) : Option Quote := do
  let fields ← fields? keys v
  let text (f : QuoteField) := field fields f.key (some "") text?
  return { id := ← text .id, dialog := ← text .dialog, movie := ← text .movie
           character := ← text .character }

def value (q : Quote) : QuoteField → Json
  | .id => .ofText q.id
  | .dialog => .ofText q.dialog
  | .movie => .ofText q.movie
  | .character => .ofText q.character

def toJson (q : Quote) : Json := .ofMembers (QuoteField.all.map fun f => (f.key, q.value f))

end Quote

end OneApi
