import OneApi.Json.Basic
import OneApi.Text.Percent

/-! Writing documents, in one line or with each value on a line of its own, two spaces deeper than
what holds it. Strings escape quotes, backslashes and controls and nothing else. -/

namespace OneApi.Json

def lowerHexDigit (n : Nat) : Char := (Text.hexDigit n).toLower

def escape (c : Char) : List Char :=
  match c with
  | '"' => ['\\', '"']
  | '\\' => ['\\', '\\']
  | '\x08' => ['\\', 'b']
  | '\t' => ['\\', 't']
  | '\n' => ['\\', 'n']
  | '\x0c' => ['\\', 'f']
  | '\r' => ['\\', 'r']
  | c =>
    if c < ' ' then
      ['\\', 'u', '0', '0', lowerHexDigit (c.toNat / 16), lowerHexDigit (c.toNat % 16)]
    else [c]

def quote (s : List Char) : List Char := '"' :: s.flatMap escape ++ ['"']

/-- What stands before a value inside an array or object. -/
def gap (pretty : Bool) (depth : Nat) : List Char :=
  if pretty then '\n' :: List.replicate (2 * depth) ' ' else []

def separator (pretty : Bool) : List Char := if pretty then [':', ' '] else [':']

/-- A string that has no text is written as an empty one. -/
def stringText (s : Option String) : List Char := quote (s.getD "").toList

mutual

def write (pretty : Bool) (depth : Nat) : Json → List Char
  | .null => "null".toList
  | .bool b => if b then "true".toList else "false".toList
  | .number n => n.text
  | .string s => stringText s
  | .array [] => ['[', ']']
  | .array (v :: vs) =>
    '[' :: gap pretty (depth + 1) ++ write pretty (depth + 1) v ++
      writeItems pretty (depth + 1) vs ++ gap pretty depth ++ [']']
  | .object [] => ['\x7b', '\x7d']
  | .object ((k, v) :: ms) =>
    '\x7b' :: gap pretty (depth + 1) ++ stringText k ++ separator pretty ++
      write pretty (depth + 1) v ++ writeMembers pretty (depth + 1) ms ++ gap pretty depth ++
      ['\x7d']

/-- All but the first item of an array. -/
def writeItems (pretty : Bool) (depth : Nat) : List Json → List Char
  | [] => []
  | v :: vs => ',' :: gap pretty depth ++ write pretty depth v ++ writeItems pretty depth vs

/-- All but the first member of an object. -/
def writeMembers (pretty : Bool) (depth : Nat) : List (Option String × Json) → List Char
  | [] => []
  | (k, v) :: ms =>
    ',' :: gap pretty depth ++ stringText k ++ separator pretty ++ write pretty depth v ++
      writeMembers pretty depth ms

end

def compact (v : Json) : String := String.ofList (write false 0 v)

def indented (v : Json) : String := String.ofList (write true 0 v)

end OneApi.Json
