import OneApi.Error

/-! Requests, answers and transports. A transport turns a request into an answer and may change a
state of its own while doing so. A script is a transport whose answers are fixed beforehand and
which keeps a record of what it was asked. -/

namespace OneApi

structure Request where
  url : String
  credential : String
  deriving DecidableEq

structure Response where
  status : Nat
  body : String
  headers : Headers := []
  deriving DecidableEq

namespace Response

def isRateLimited (r : Response) : Bool := r.status == 429

def window (r : Response) : RateWindow := .ofHeaders r.headers

end Response

abbrev Answer := Except Error Response

abbrev Transport (σ : Type) := Request → StateM σ Answer

structure Script where
  /-- The answers still to be given. -/
  answers : List Answer
  requests : List Request := []
  /-- The attempts that were waited for. -/
  waits : List UInt32 := []

namespace Script

def exhausted : Error := .transport "no scripted response" "scripted"

def transport : Transport Script := fun request script =>
  let asked := { script with requests := script.requests ++ [request] }
  match script.answers with
  | [] => (.error exhausted, asked)
  | answer :: rest => (answer, { asked with answers := rest })

def recordWait (attempt : UInt32) : StateM Script Unit := fun script =>
  ((), { script with waits := script.waits ++ [attempt] })

end Script

end OneApi
