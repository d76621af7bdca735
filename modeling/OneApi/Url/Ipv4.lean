import OneApi.Text.Digits
import OneApi.Text.Percent
import OneApi.Url.Fault

/-! IPv4 addresses. A host whose last label is a number must be an address of at most four
numbers, each decimal, octal after a zero, or hexadecimal after `0x` in lower case; the last number fills all
bytes that the others leave open. -/

namespace OneApi.Url

/-- The labels of a host name without the empty one after a final point. -/
def labels (host : List Char) : List (List Char) :=
  let parts := host.splitOn '.'
  if parts.getLast? == some [] then parts.dropLast else parts

def ofHexDigits (s : List Char) : Nat :=
  s.foldl (fun n c => 16 * n + (Text.hexValue c).getD 0) 0

def isOctalDigit (c : Char) : Bool := '0' ≤ c && c ≤ '7'

/-- The value of one label; the prefix of a base alone stands for zero. -/
def labelNumber? : List Char → Option Nat
  | [] => none
  | '0' :: 'x' :: s =>
    if s.all (fun c => (Text.hexValue c).isSome) then some (ofHexDigits s) else none
  | '0' :: c :: s =>
    if (c :: s).all isOctalDigit then some (Nat.ofDigitChars 8 (c :: s) 0) else none
  | s => Text.readDigits s

def endsInNumber (host : List Char) : Bool :=
  match (labels host).getLast? with
  | none => false
  | some l => (!l.isEmpty && l.all Char.isDigit) || (labelNumber? l).isSome

/-- The numbers of an address as one: all but the last are single bytes. -/
def joinNumbers (numbers : List Nat) : Option Nat :=
  match numbers.getLast? with
  | none => none
  | some last =>
    let front := numbers.dropLast
    let room := Nat.pow 256 (4 - front.length)
    if front.length ≤ 3 && front.all (· < 256) && last < room then
      some (front.foldl (fun n b => 256 * n + b) 0 * room + last)
    else none

def readIpv4 (host : List Char) : Except Fault UInt32 :=
  match (labels host).mapM labelNumber? |>.bind joinNumbers with
  | some n => .ok (UInt32.ofNat n)
  | none => .error .invalidIpv4

def ipv4Text (a : UInt32) : List Char :=
  let byte (k : Nat) := Text.decimal (a.toNat / Nat.pow 256 k % 256)
  byte 3 ++ '.' :: byte 2 ++ '.' :: byte 1 ++ '.' :: byte 0

end OneApi.Url
