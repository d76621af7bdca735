import OneApi.Text.Digits

/-! Written decimal numbers. A numeral keeps the digits as they were written; its value is a whole
coefficient times a power of ten. -/

namespace OneApi

structure Numeral where
  negative : Bool
  whole : List Char
  fraction : Option (List Char)
  /-- Whether the exponent is negative, and its digits. -/
  exponent : Option (Bool × List Char)
  deriving DecidableEq

/-- The number `coefficient * 10 ^ power`, with a sign that a zero keeps. -/
structure Decimal where
  negative : Bool
  coefficient : Nat
  power : Int
  deriving DecidableEq

namespace Numeral

def value (n : Numeral) : Decimal where
  negative := n.negative
  coefficient := Nat.ofDigitChars 10 (n.whole ++ n.fraction.getD []) 0
  power :=
    (match n.exponent with
      | none => 0
      | some (false, ds) => (Nat.ofDigitChars 10 ds 0 : Int)
      | some (true, ds) => -(Nat.ofDigitChars 10 ds 0 : Int)) - ((n.fraction.getD []).length : Int)

/-- The sign of the exponent is always written. -/
def text (n : Numeral) : List Char :=
  (if n.negative then ['-'] else []) ++ n.whole ++
    (match n.fraction with
      | none => []
      | some ds => '.' :: ds) ++
    (match n.exponent with
      | none => []
      | some (minus, ds) => 'e' :: (if minus then '-' else '+') :: ds)

def ofNat (n : Nat) : Numeral := ⟨false, Text.decimal n, none, none⟩

/-- Digits alone, with no sign, point or exponent. -/
def natural? (n : Numeral) : Option Nat :=
  if !n.negative && n.fraction.isNone && n.exponent.isNone then Text.readDigits n.whole else none

/-- Reads an exponent to the end of the text; the empty text has none. -/
def readExponent : List Char → Option (Option (Bool × List Char))
  | [] => some none
  | c :: rest =>
    if c != 'e' && c != 'E' then none
    else
      let (minus, ds) := match rest with
        | '-' :: r => (true, r)
        | '+' :: r => (false, r)
        | r => (false, r)
      if !ds.isEmpty && ds.all Char.isDigit then some (some (minus, ds)) else none

theorem natural?_ofNat (n : Nat) : (ofNat n).natural? = some n := by
  simp [natural?, ofNat, Text.readDigits_decimal]

end Numeral

end OneApi
