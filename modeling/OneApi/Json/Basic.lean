import OneApi.Decimal.Numeral

/-! Documents. Numbers keep the digits they were written with. A string may hold escaped halves of
a character that do not fit together; such a string has no text. -/

namespace OneApi

inductive Json where
  | null
  | bool (value : Bool)
  | number (value : Numeral)
  | string (value : Option String)
  | array (items : List Json)
  | object (members : List (Option String × Json))

namespace Json

def ofText (s : String) : Json := .string (some s)

def ofNat (n : Nat) : Json := .number (.ofNat n)

def ofMembers (members : List (String × Json)) : Json :=
  .object (members.map fun m => (some m.1, m.2))

end Json

end OneApi
