import OneApi.Span

/-! Waits between attempts. A wait is the initial span times a factor that grows with the attempt,
cut off at a limit. Factors stop growing at the largest 32-bit number. -/

namespace OneApi

inductive Growth where
  | constant
  | linear
  | exponential
  deriving DecidableEq

namespace Growth

def name : Growth → String
  | constant => "constant"
  | linear => "linear"
  | exponential => "exponential"

def ofName? (s : String) : Option Growth :=
  if s = "constant" then some constant
  else if s = "linear" then some linear
  else if s = "exponential" then some exponential
  else none

theorem ofName?_name (g : Growth) : ofName? g.name = some g := by
  cases g <;> decide

def factorLimit : Nat := UInt32.size - 1

/-- The power is not formed where it would exceed the limit. -/
def factor (g : Growth) (attempt : UInt32) : Nat :=
  match g with
  | constant => 1
  | linear => min (attempt.toNat + 1) factorLimit
  | exponential => if attempt < 32 then Nat.pow 2 attempt.toNat else factorLimit

end Growth

structure Backoff where
  growth : Growth
  initial : Span
  limit : Span
  deriving DecidableEq

namespace Backoff

def delay (b : Backoff) (attempt : UInt32) : Span :=
  (b.initial.times (b.growth.factor attempt)).atMost b.limit

end Backoff

/-- How often an answer is asked for again, and how long to wait before each time. -/
structure RetryPolicy where
  maxRetries : UInt32
  delay : UInt32 → Span

namespace RetryPolicy

def ofBackoff (maxRetries : UInt32) (b : Backoff) : RetryPolicy := ⟨maxRetries, b.delay⟩

def exponential (maxRetries : UInt32) : RetryPolicy :=
  ofBackoff maxRetries ⟨.exponential, .ofSeconds 1, .ofSeconds 60⟩

def constant (maxRetries : UInt32) (delay : Span) : RetryPolicy :=
  ofBackoff maxRetries ⟨.constant, delay, delay⟩

def linear (maxRetries : UInt32) (step limit : Span) : RetryPolicy :=
  ofBackoff maxRetries ⟨.linear, step, limit⟩

def disabled : RetryPolicy := ⟨0, fun _ => .zero⟩

def standard : RetryPolicy := exponential 3

def debugText (p : RetryPolicy) : String :=
  s!"RetryPolicy \x7b max_retries: {p.maxRetries.toNat}, .. \x7d"

end RetryPolicy

end OneApi
