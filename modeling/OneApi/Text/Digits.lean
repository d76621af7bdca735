import OneApi.Text.Blank

/-! Decimal numerals. A written count is an optional plus sign and at least one ASCII digit; it is
read only when its value stays below the given bound, so nothing ever wraps. -/

namespace OneApi.Text

def decimal (n : Nat) : List Char := Nat.toDigits 10 n

def readDigits (s : List Char) : Option Nat :=
  if !s.isEmpty && s.all Char.isDigit then some (Nat.ofDigitChars 10 s 0) else none

def dropPlus : List Char → List Char
  | '+' :: s => s
  | s => s

def readBelow (bound : Nat) (s : List Char) : Option Nat :=
  (readDigits (dropPlus s)).filter (· < bound)

def readCount32 (s : List Char) : Option UInt32 := (readBelow UInt32.size s).map UInt32.ofNat

def readCount64 (s : List Char) : Option UInt64 := (readBelow UInt64.size s).map UInt64.ofNat

theorem isDigit_of_mem_decimal {n : Nat} {c : Char} (h : c ∈ decimal n) : c.isDigit = true :=
  Nat.isDigit_of_mem_toDigits (by decide) (by decide) h

theorem readDigits_decimal (n : Nat) : readDigits (decimal n) = some n := by
  have hne : (decimal n).isEmpty = false := by simp [decimal]
  have hall : (decimal n).all Char.isDigit = true :=
    List.all_eq_true.mpr fun c hc => isDigit_of_mem_decimal hc
  rw [readDigits, hne, hall]
  simp [decimal, Nat.ofDigitChars_toDigits]

theorem readBelow_decimal {bound n : Nat} (h : n < bound) : readBelow bound (decimal n) = some n := by
  have hp : dropPlus (decimal n) = decimal n := by
    unfold dropPlus
    split
    · rename_i s hs
      have : '+'.isDigit = true := isDigit_of_mem_decimal (n := n) (by rw [hs]; simp)
      contradiction
    · rfl
  simp [readBelow, hp, readDigits_decimal, h]

theorem lt_of_readBelow {bound n : Nat} {s : List Char} (h : readBelow bound s = some n) :
    n < bound := by
  obtain ⟨_, h⟩ := Option.filter_eq_some_iff.mp h
  simpa using h

end OneApi.Text
