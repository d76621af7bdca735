import OneApi.Field
import OneApi.Json.Record

/-! Movies, and how they stand in documents. -/

namespace OneApi

structure Movie where
  id : String := ""
  name : String := ""
  runtimeInMinutes : UInt32 := 0
  budgetInMillions : Binary64 := .zero
  boxOfficeRevenueInMillions : Binary64 := .zero
  academyAwardNominations : UInt32 := 0
  academyAwardWins : UInt32 := 0
  rottenTomatoesScore : Binary64 := .zero
  deriving DecidableEq

namespace Movie

def keys : List String := MovieField.all.map MovieField.key

open Json in
def ofJson (v : Json) : Option Movie := do
  let fields ← fields? keys v
  let text (f : MovieField) := field fields f.key (some "") text?
  let count (f : MovieField) := field fields f.key (some 0) count32?
  let real (f : MovieField) := field fields f.key (some .zero) real?
  return { id := ← text .id, name := ← text .name
           runtimeInMinutes := ← count .runtimeInMinutes
           budgetInMillions := ← real .budgetInMillions
           boxOfficeRevenueInMillions := ← real .boxOfficeRevenueInMillions
           academyAwardNominations := ← count .academyAwardNominations
           academyAwardWins := ← count .academyAwardWins
           rottenTomatoesScore := ← real .rottenTomatoesScore }

open Json in
def value (m : Movie) : MovieField → Json
  | .id => ofText m.id
  | .name => ofText m.name
  | .runtimeInMinutes => ofNat m.runtimeInMinutes.toNat
  | .budgetInMillions => ofReal m.budgetInMillions
  | .boxOfficeRevenueInMillions => ofReal m.boxOfficeRevenueInMillions
  | .academyAwardNominations => ofNat m.academyAwardNominations.toNat
  | .academyAwardWins => ofNat m.academyAwardWins.toNat
  | .rottenTomatoesScore => ofReal m.rottenTomatoesScore

def toJson (m : Movie) : Json := .ofMembers (MovieField.all.map fun f => (f.key, m.value f))

end Movie

end OneApi
