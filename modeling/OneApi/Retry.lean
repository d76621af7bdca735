import OneApi.Backoff
import OneApi.Transport

/-! Asking again. An answer that says the rate limit was hit is asked for again after a pause, as
long as retries are left and the window it announces is not spent. Every other answer, and every
failure of the transport, is handed on at once. -/

namespace OneApi.Retry

variable {σ : Type}

/-- Sends a request with `remaining` retries left, `attempt` pauses having been made. -/
def sendFrom (policy : RetryPolicy) (pause : UInt32 → Span → StateM σ Unit) (inner : Transport σ)
    (request : Request) (remaining : Nat) (attempt : UInt32) : StateM σ Answer :=
  fun s =>
    match inner request s with
    | (.error e, t) => (.error e, t)
    | (.ok response, t) =>
      if !response.isRateLimited then (.ok response, t)
      else if response.window.isExhausted then
        (.error (.rateLimited .windowSpent response.window), t)
      else
        match remaining with
        | 0 =>
          (.error (.rateLimited (.retriesSpent policy.maxRetries.toNat) response.window), t)
        | left + 1 =>
          let paused := pause attempt (policy.delay attempt) t
          sendFrom policy pause inner request left (attempt + 1) paused.2

/-- The transport that retries by a policy; `pause` is told the attempt and the wait. -/
def layer (policy : RetryPolicy) (pause : UInt32 → Span → StateM σ Unit) (inner : Transport σ) :
    Transport σ :=
  fun request => sendFrom policy pause inner request policy.maxRetries.toNat 0

end OneApi.Retry
