import OneApi.Text.Percent

/-! Forms, as a server reads them from a query: pairs of a name and a value, joined by ampersands, in
which a plus sign stands for a space. Bytes that are no UTF-8 are replaced; a broken sequence counts
once, up to the first byte that cannot belong to it. -/

namespace OneApi.Text

def replacement : Char := '\uFFFD'

def isContinuation (b : UInt8) : Bool := 0x80 ≤ b && b ≤ 0xbf

/-- The bytes that can stand behind the first byte of a sequence of three or four. -/
def mayFollow (first second : UInt8) : Bool :=
  if first = 0xe0 then 0xa0 ≤ second && second ≤ 0xbf
  else if first = 0xed then 0x80 ≤ second && second ≤ 0x9f
  else if first = 0xf0 then 0x90 ≤ second && second ≤ 0xbf
  else if first = 0xf4 then 0x80 ≤ second && second ≤ 0x8f
  else 0xe1 ≤ first && first ≤ 0xf3 && isContinuation second

/-- How many bytes behind the first one belong to a sequence that is broken off. -/
def brokenLength (first : UInt8) : List UInt8 → Nat
  | [] => 0
  | [second] => if mayFollow first second then 1 else 0
  | second :: third :: _ =>
    if !mayFollow first second then 0
    else if 0xf0 ≤ first && isContinuation third then 2
    else 1

/-- Reads bytes, the first `skip` of which belong to what was read before. -/
def ofUtf8From (skip : Nat) : List UInt8 → List Char
  | [] => []
  | b :: bs =>
    match skip with
    | left + 1 => ofUtf8From left bs
    | 0 =>
      match (b :: bs).toByteArray.utf8DecodeChar? 0 with
      | some c => c :: ofUtf8From (c.utf8Size - 1) bs
      | none => replacement :: ofUtf8From (brokenLength b bs) bs

def ofUtf8 (bs : List UInt8) : List Char := ofUtf8From 0 bs

def plusToSpace (c : Char) : Char := if c == '+' then ' ' else c

/-- Undoes the form encoding. -/
def formDecode (s : List Char) : List Char := ofUtf8 (percentDecode (s.map plusToSpace))

/-- A name and the value behind the first equals sign. -/
def formPair (s : List Char) : String × String :=
  let (name, value) := s.span (· != '=')
  (String.ofList (formDecode name), String.ofList (formDecode (value.drop 1)))

/-- The pairs of a form; empty ones do not count. -/
def formPairs (s : List Char) : List (String × String) :=
  ((s.splitOn '&').filter fun pair => !pair.isEmpty).map formPair

end OneApi.Text
