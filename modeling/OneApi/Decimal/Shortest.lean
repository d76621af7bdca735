import OneApi.Decimal.Binary64

/-! The shortest decimal that reads back. For one digit, two digits and so on the two decimals of
that many digits around a double are tried; the first that rounds to the double is its text, of
two the nearer. On an exact tie between two the format decides. -/

namespace OneApi

/-- Which of two equally near decimals is taken. -/
inductive Tie where
  | even
  | up
  deriving DecidableEq

namespace Binary64

/-- The power of ten of the first digit of a positive number of units. -/
def leadingPower (units : Nat) : Int :=
  ((Text.decimal (units * Nat.pow 10 400 / unitsPerOne)).length : Int) - 401

/-- The decimal of the given power of ten that rounds to the rank, if one of the two neighbours
does. -/
def onGrid (tie : Tie) (rank : Nat) (power : Int) : Option Nat :=
  let num := unitsOfRank rank * Nat.pow 10 (-power).toNat
  let den := unitsPerOne * Nat.pow 10 power.toNat
  let low := num / den
  let twice := 2 * (num % den)
  let lowHits := rankOfDecimal low power == rank
  let highHits := rankOfDecimal (low + 1) power == rank
  let preferHigh := den < twice || (twice == den && (tie == .up || low % 2 == 1))
  if lowHits && highHits then some (if preferHigh then low + 1 else low)
  else if lowHits then some low
  else if highHits then some (low + 1)
  else none

/-- Every digit of a double: its value times a negative power of ten. -/
def exactDecimal (rank : Nat) : Nat × Int := (unitsOfRank rank * Nat.pow 5 1074, -1074)

/-- The decimal that a double is written by, and the power of ten of its last digit. -/
def nearestDecimal (tie : Tie) (rank : Nat) : Nat × Int :=
  let first := leadingPower (unitsOfRank rank)
  let found := (List.range 17).findSome? fun (more : Nat) =>
    let power := first - more
    (onGrid tie rank power).map fun d => (d, power)
  found.getD (exactDecimal rank)

def dropZeros : List Char → List Char := Text.dropEnd (· == '0')

/-- The digits, without zeros at the end, and the power of ten of the first of them. -/
def shortest (tie : Tie) (rank : Nat) : List Char × Int :=
  let nearest := nearestDecimal tie rank
  let digits := Text.decimal nearest.1
  (dropZeros digits, nearest.2 + (digits.length : Int) - 1)

end Binary64

end OneApi
