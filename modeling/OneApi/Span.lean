import OneApi.Text.Digits

/-! Lengths of time in nanoseconds. The longest span is one nanosecond short of 2 ^ 64 seconds, and
every operation that would exceed it stays there. -/

namespace OneApi

structure Span where
  nanos : Nat
  nanos_lt : nanos < UInt64.size * 1000000000
  deriving DecidableEq

namespace Span

def perSecond : Nat := 1000000000

def perMilli : Nat := 1000000

def perMicro : Nat := 1000

def zero : Span := ⟨0, by decide⟩

def longest : Span := ⟨UInt64.size * 1000000000 - 1, by decide⟩

def ofNanos (n : Nat) : Span :=
  if h : n < UInt64.size * 1000000000 then ⟨n, h⟩ else longest

def ofMillis (n : UInt64) : Span := ofNanos (n.toNat * perMilli)

def ofSeconds (n : UInt64) : Span := ofNanos (n.toNat * perSecond)

def seconds (s : Span) : Nat := s.nanos / perSecond

def subsecond (s : Span) : Nat := s.nanos % perSecond

def times (s : Span) (k : Nat) : Span := ofNanos (s.nanos * k)

def atMost (s limit : Span) : Span := if s.nanos ≤ limit.nanos then s else limit

theorem nanos_ofNanos (n : Nat) : (ofNanos n).nanos = min n (UInt64.size * 1000000000 - 1) := by
  unfold ofNanos
  split
  · simp only; omega
  · simp only [longest]; omega

theorem nanos_atMost (s limit : Span) : (s.atMost limit).nanos = min s.nanos limit.nanos := by
  unfold atMost
  split <;> omega

/-- A count of parts with its decimal places, less the zeros at the end. -/
def withPlaces (whole part places : Nat) : List Char :=
  let digits := Text.decimal part
  let padded := List.replicate (places - digits.length) '0' ++ digits
  match Text.dropEnd (· == '0') padded with
  | [] => Text.decimal whole
  | ds => Text.decimal whole ++ '.' :: ds

/-- The span in the largest unit of which it holds at least one, such as `1.5s` or `250ms`. -/
def text (s : Span) : List Char :=
  if perSecond ≤ s.nanos then withPlaces s.seconds s.subsecond 9 ++ ['s']
  else if perMilli ≤ s.nanos then
    withPlaces (s.nanos / perMilli) (s.nanos % perMilli) 6 ++ ['m', 's']
  else if perMicro ≤ s.nanos then
    withPlaces (s.nanos / perMicro) (s.nanos % perMicro) 3 ++ ['µ', 's']
  else Text.decimal s.nanos ++ ['n', 's']

end Span

end OneApi
