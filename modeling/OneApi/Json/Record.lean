import OneApi.Decimal.Layout
import OneApi.Decimal.Reading
import OneApi.Json.Basic

/-! Records in documents. A record is an object, in which unknown keys are skipped and known ones
stand at most once, or an array of its fields in order, from which the last may be missing. A
missing field has its default; nothing else has, `null` included. -/

namespace OneApi.Json

abbrev Fields := List (String × Json)

/-- The members of an object whose keys all have a text. -/
def named? : List (Option String × Json) → Option Fields
  | [] => some []
  | (none, _) :: _ => none
  | (some k, v) :: ms => (named? ms).map ((k, v) :: ·)

/-- The fields of a record with the given keys. -/
def fields? (keys : List String) : Json → Option Fields
  | .object members => do
    let known := (← named? members).filter fun m => keys.contains m.1
    if (known.map Prod.fst).Nodup then some known else none
  | .array items => if items.length ≤ keys.length then some (keys.zip items) else none
  | _ => none

def field (fields : Fields) (key : String) (missing : Option α) (read : Json → Option α) :
    Option α :=
  match fields.lookup key with
  | none => missing
  | some v => read v

def text? : Json → Option String
  | .string s => s
  | _ => none

def count? (bound : Nat) : Json → Option Nat
  | .number n => n.natural?.filter (· < bound)
  | _ => none

def count32? (v : Json) : Option UInt32 := (count? UInt32.size v).map UInt32.ofNat

def count64? (v : Json) : Option UInt64 := (count? UInt64.size v).map UInt64.ofNat

def real? : Json → Option Binary64
  | .number n => Binary64.ofNumeral n
  | _ => none

def list? (read : Json → Option α) : Json → Option (List α)
  | .array items => items.mapM read
  | _ => none

/-- A name as a string, or as the only key of an object, with nothing under it. -/
def name? : Json → Option String
  | .string s => s
  | .object [(k, .null)] => k
  | _ => none

def ofReal (x : Binary64) : Json := .number (x.numeral .document)

end OneApi.Json
