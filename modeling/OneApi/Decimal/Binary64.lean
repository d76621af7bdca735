import OneApi.Decimal.Numeral

/-! Finite doubles by rank. The rank of a magnitude is the number of smaller magnitudes, so ranks
order the doubles and neighbours have neighbouring ranks; every magnitude is a whole number of
units of which 2 ^ 1074 make one. A decimal rounds to the nearest double, a half to the even rank. -/

namespace OneApi

structure Binary64 where
  negative : Bool
  rank : Nat
  rank_lt : rank < 0x7ff0000000000000
  deriving DecidableEq

namespace Binary64

def zero : Binary64 := ⟨false, 0, by decide⟩

instance : Inhabited Binary64 := ⟨zero⟩

def unitsPerOne : Nat := Nat.pow 2 1074

/-- The number of magnitudes between two powers of two. -/
def binadeSize : Nat := Nat.pow 2 52

def unitsOfRank (rank : Nat) : Nat :=
  let binade := rank / binadeSize
  let fraction := rank % binadeSize
  if binade = 0 then fraction else (binadeSize + fraction) * Nat.pow 2 (binade - 1)

/-- The whole number nearest to `a / b`, a half going to the even neighbour. -/
def nearestEven (a b : Nat) : Nat :=
  let q := a / b
  let r := a % b
  if b < 2 * r || (2 * r == b && q % 2 == 1) then q + 1 else q

/-- The rank of the double nearest to `a / b` units. -/
def rankOfUnits (a b : Nat) : Nat :=
  let shift := (a / b).log2 - 52
  shift * binadeSize + nearestEven a (b * Nat.pow 2 shift)

def rankOfDecimal (coefficient : Nat) (power : Int) : Nat :=
  rankOfUnits (coefficient * Nat.pow 10 power.toNat * unitsPerOne) (Nat.pow 10 (-power).toNat)

theorem nearestEven_mul (a b : Nat) (h : 0 < b) : nearestEven (a * b) b = a := by
  have : ¬ b < 0 := by omega
  have h0 : ¬ 0 = b := by omega
  simp [nearestEven, Nat.mul_div_cancel a h, h0]

end Binary64

/-- A double with the infinities and the one value that is no number. -/
inductive Extended where
  | finite (value : Binary64)
  | infinite (negative : Bool)
  | notANumber
  deriving DecidableEq

end OneApi
