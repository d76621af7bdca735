import OneApi.Decimal.Binary64

/-! How doubles are read from numerals. As many digits as fit 64 bits are taken as one word; the word
is rounded, and then multiplied or divided by a rounded power of ten. So what is read can be a
neighbour of the double that is nearest to the numeral. -/

namespace OneApi

namespace Numeral

/-- Appends digits to a word while it fits 64 bits; with the word come the digits left over. -/
def gather (word : Nat) : List Char → Nat × List Char
  | [] => (word, [])
  | c :: rest =>
    let next := 10 * word + (c.toNat - '0'.toNat)
    if next < UInt64.size then gather next rest else (word, c :: rest)

/-- The digits that are taken, and the power of ten of the last of them before the exponent. Digits
of the whole part that are left over count as zeros; those of the fraction are dropped. -/
def significand (n : Numeral) : Nat × Int :=
  let fraction := n.fraction.getD []
  let (whole, zeros) := gather 0 n.whole
  let (word, dropped) := gather whole fraction
  (word, (zeros.length : Int) - (fraction.length - dropped.length))

end Numeral

namespace Binary64

def product (a b : Nat) : Nat := rankOfUnits (unitsOfRank a * unitsOfRank b) unitsPerOne

def quotient (a b : Nat) : Nat := rankOfUnits (unitsOfRank a * unitsPerOne) (unitsOfRank b)

/-- The greatest power of ten in the table. -/
def topPower : Nat := 308

def powerOfTen (k : Nat) : Nat := rankOfDecimal 1 k

/-- Multiplies a magnitude by a power of ten. Powers below the table take several divisions; above
it only zero is left. -/
def scale (rank : Nat) (power : Int) : Option Nat :=
  if power.natAbs ≤ topPower then
    some ((if 0 ≤ power then product else quotient) rank (powerOfTen power.natAbs))
  else if rank = 0 then some 0
  else if 0 ≤ power then none
  else scale (quotient rank (powerOfTen topPower)) (power + topPower)
termination_by (-power).toNat
decreasing_by simp only [topPower] at *; omega

/-- The magnitude of a numeral. An exponent of more than 31 bits is not used as a number. -/
def rankOfNumeral (n : Numeral) : Option Nat :=
  let (word, power) := n.significand
  match n.exponent with
  | none => scale (rankOfDecimal word 0) power
  | some (minus, ds) =>
    let exponent := Nat.ofDigitChars 10 ds 0
    if exponent < Nat.pow 2 31 then
      scale (rankOfDecimal word 0) (if minus then power - exponent else power + exponent)
    else if word = 0 || minus then some 0
    else none

/-- The double that is read, or nothing if it is not finite. -/
def ofNumeral (n : Numeral) : Option Binary64 :=
  (rankOfNumeral n).bind fun rank =>
    if h : rank < 0x7ff0000000000000 then some ⟨n.negative, rank, h⟩ else none

end Binary64

end OneApi
