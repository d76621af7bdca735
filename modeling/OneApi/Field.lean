/-! The fields that documents can be filtered and sorted by, under the names the service uses. -/

namespace OneApi

inductive MovieField where
  | id
  | name
  | runtimeInMinutes
  | budgetInMillions
  | boxOfficeRevenueInMillions
  | academyAwardNominations
  | academyAwardWins
  | rottenTomatoesScore
  deriving DecidableEq

namespace MovieField

def all : List MovieField :=
  [id, name, runtimeInMinutes, budgetInMillions, boxOfficeRevenueInMillions,
    academyAwardNominations, academyAwardWins, rottenTomatoesScore]

def key : MovieField → String
  | id => "_id"
  | name => "name"
  | runtimeInMinutes => "runtimeInMinutes"
  | budgetInMillions => "budgetInMillions"
  | boxOfficeRevenueInMillions => "boxOfficeRevenueInMillions"
  | academyAwardNominations => "academyAwardNominations"
  | academyAwardWins => "academyAwardWins"
  | rottenTomatoesScore => "rottenTomatoesScore"

end MovieField

inductive QuoteField where
  | id
  | dialog
  | movie
  | character
  deriving DecidableEq

namespace QuoteField

def all : List QuoteField := [id, dialog, movie, character]

def key : QuoteField → String
  | id => "_id"
  | dialog => "dialog"
  | movie => "movie"
  | character => "character"

end QuoteField

end OneApi
