/-! Percent-encoding of texts as UTF-8. A set of ASCII characters is kept; every other character is
written byte by byte as a percent sign and two upper-case hexadecimal digits. Decoding reads such
triples wherever they stand and leaves the rest as it is. -/

namespace OneApi.Text

def hexDigit (n : Nat) : Char :=
  if n < 10 then Char.ofNat (48 + n) else Char.ofNat (55 + n)

def hexValue (c : Char) : Option Nat :=
  if c.isDigit then some (c.toNat - 48)
  else if 'a' ≤ c && c ≤ 'f' then some (c.toNat - 87)
  else if 'A' ≤ c && c ≤ 'F' then some (c.toNat - 55)
  else none

def escapeByte (b : UInt8) : List Char :=
  ['%', hexDigit (b.toNat / 16), hexDigit (b.toNat % 16)]

def escapeChar (c : Char) : List Char := (String.utf8EncodeChar c).flatMap escapeByte

def percentEncode (keep : Char → Bool) (s : List Char) : List Char :=
  s.flatMap fun c => if keep c then [c] else escapeChar c

def percentDecode : List Char → List UInt8
  | '%' :: a :: b :: s =>
    match hexValue a, hexValue b with
    | some x, some y => UInt8.ofNat (16 * x + y) :: percentDecode s
    | _, _ => 37 :: percentDecode (a :: b :: s)
  | c :: s => String.utf8EncodeChar c ++ percentDecode s
  | [] => []

/-- The letters, digits and marks that the form encoding writes as they are. -/
def isFormSafe (c : Char) : Bool := c.isAlphanum || c == '*' || c == '-' || c == '.' || c == '_'

/-- The form encoding: a space becomes a plus sign. -/
def formEncode (s : List Char) : List Char :=
  s.flatMap fun c => if c == ' ' then ['+'] else if isFormSafe c then [c] else escapeChar c

theorem percentEncode_append (keep : Char → Bool) (s t : List Char) :
    percentEncode keep (s ++ t) = percentEncode keep s ++ percentEncode keep t := by
  simp [percentEncode]

theorem percentEncode_of_all {keep : Char → Bool} {s : List Char} (h : s.all keep = true) :
    percentEncode keep s = s := by
  induction s with
  | nil => rfl
  | cons c s ih =>
    simp only [List.all_cons, Bool.and_eq_true] at h
    simpa [percentEncode, h.1] using ih h.2

end OneApi.Text
