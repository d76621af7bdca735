import OneApi.Text.Digits

/-! Dates of the Gregorian calendar from counts of days and seconds since the start of 1970, and
their text in universal time. Days are counted from a first of March, so that a leap day ends its
year. -/

namespace OneApi.Calendar

structure Date where
  year : Nat
  month : Nat
  day : Nat
  deriving DecidableEq

/-- The days from March 1 of year 0 to January 1 of 1970. -/
def epochDay : Nat := 719468

def ofEpochDay (n : Nat) : Date :=
  let days := n + epochDay
  let era := days / 146097
  let dayOfEra := days % 146097
  let yearOfEra := (dayOfEra - dayOfEra / 1460 + dayOfEra / 36524 - dayOfEra / 146096) / 365
  let dayOfYear := dayOfEra - (365 * yearOfEra + yearOfEra / 4 - yearOfEra / 100)
  let fromMarch := (5 * dayOfYear + 2) / 153
  let month := if fromMarch < 10 then fromMarch + 3 else fromMarch - 9
  { year := era * 400 + yearOfEra + (if month ≤ 2 then 1 else 0)
    month := month
    day := dayOfYear - (153 * fromMarch + 2) / 5 + 1 }

def padded (width n : Nat) : List Char :=
  let digits := Text.decimal n
  List.replicate (width - digits.length) '0' ++ digits

/-- Years beyond four digits carry a plus sign. -/
def yearText (year : Nat) : List Char :=
  if year ≤ 9999 then padded 4 year else '+' :: Text.decimal year

def timestamp (seconds : Nat) : String :=
  let date := ofEpochDay (seconds / 86400)
  let time := seconds % 86400
  String.ofList <|
    yearText date.year ++ '-' :: padded 2 date.month ++ '-' :: padded 2 date.day ++
      'T' :: padded 2 (time / 3600) ++ ':' :: padded 2 (time / 60 % 60) ++
      ':' :: padded 2 (time % 60) ++ "+00:00".toList

/-- The last second of the last year that has dates. -/
def lastSecond : Nat := 8210266876799

def timestamp? (seconds : Nat) : Option String :=
  if seconds ≤ lastSecond then some (timestamp seconds) else none

end OneApi.Calendar
