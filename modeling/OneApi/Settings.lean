import OneApi.Client

/-! Settings of a client. Environment variables override what a file says, in a fixed order up to
the first that cannot be read; the result is checked before a client is built from it. -/

namespace OneApi

instance : Document Growth :=
  { toJson := fun g => Json.ofText g.name, ofJson := fun v => (Json.name? v).bind Growth.ofName? }

structure BackoffSettings where
  growth : Growth := .exponential
  initialMs : UInt64 := 1000
  maxMs : UInt64 := 60000
  deriving DecidableEq

namespace BackoffSettings

def backoff (b : BackoffSettings) : Backoff := ⟨b.growth, .ofMillis b.initialMs, .ofMillis b.maxMs⟩

def keys : List String := ["type", "initial_ms", "max_ms"]

open Json in
def ofJson (v : Json) : Option BackoffSettings := do
  let fields ← fields? keys v
  let d : BackoffSettings := {}
  return { growth := ← field fields "type" (some d.growth) Document.ofJson
           initialMs := ← field fields "initial_ms" (some d.initialMs) count64?
           maxMs := ← field fields "max_ms" (some d.maxMs) count64? }

open Json in
def toJson (b : BackoffSettings) : Json :=
  .ofMembers [("type", Written.toJson b.growth), ("initial_ms", ofNat b.initialMs.toNat),
    ("max_ms", ofNat b.maxMs.toNat)]

end BackoffSettings

structure Settings where
  apiKey : Option String := none
  baseUrl : String := Service.baseUrl
  timeoutSeconds : UInt64 := 10
  maxRetries : UInt32 := Service.maxRetries
  backoff : BackoffSettings := {}
  deriving DecidableEq

namespace Settings

def keys : List String :=
  ["api_key", "base_url", "timeout_seconds", "max_retries", "retry_backoff"]

open Json in
/-- A key that is there but null is no key. -/
def keyOfJson : Json → Option (Option String)
  | .null => some none
  | v => (text? v).map some

open Json in
def ofJson (v : Json) : Option Settings := do
  let fields ← fields? keys v
  let d : Settings := {}
  return { apiKey := ← field fields "api_key" (some d.apiKey) keyOfJson
           baseUrl := ← field fields "base_url" (some d.baseUrl) text?
           timeoutSeconds := ← field fields "timeout_seconds" (some d.timeoutSeconds) count64?
           maxRetries := ← field fields "max_retries" (some d.maxRetries) count32?
           backoff := ← field fields "retry_backoff" (some d.backoff) BackoffSettings.ofJson }

open Json in
def toJson (s : Settings) : Json :=
  .ofMembers [("api_key", (s.apiKey.map ofText).getD .null), ("base_url", ofText s.baseUrl),
    ("timeout_seconds", ofNat s.timeoutSeconds.toNat), ("max_retries", ofNat s.maxRetries.toNat),
    ("retry_backoff", s.backoff.toJson)]

instance : Document BackoffSettings :=
  { toJson := BackoffSettings.toJson, ofJson := BackoffSettings.ofJson }

instance : Document Settings := { toJson, ofJson }

def notACount (v : Variable) (raw : String) : Error := .config (.notACount v raw)

/-- One override by a text that is not blank. -/
def set (s : Settings) (v : Variable) (raw : String) : Except Error Settings :=
  let text := Text.strip raw.toList
  match v with
  | .apiKey => .ok { s with apiKey := some (Text.trim raw) }
  | .baseUrl => .ok { s with baseUrl := raw }
  | .timeoutSeconds =>
    match Text.readCount64 text with
    | some n => .ok { s with timeoutSeconds := n }
    | none => .error (notACount v raw)
  | .maxRetries =>
    match Text.readCount32 text with
    | some n => .ok { s with maxRetries := n }
    | none => .error (notACount v raw)

/-- Applies the given variables in turn and stops at the first that cannot be read. -/
def setAll (lookup : Variable → Option String) : List Variable → Settings → Settings × Option Error
  | [], s => (s, none)
  | v :: vs, s =>
    match lookup v with
    | none => setAll lookup vs s
    | some raw =>
      if Text.isBlank raw.toList then setAll lookup vs s
      else
        match s.set v raw with
        | .ok t => setAll lookup vs t
        | .error e => (s, some e)

/-- The settings with their overrides, and why the rest of these was left out if it was. -/
def overridden (s : Settings) (lookup : Variable → Option String) : Settings × Option Error :=
  setAll lookup Variable.all s

def placeholder : String := "YOUR_API_KEY_HERE"

/-- The key, if it is there and not blank. -/
def key? (s : Settings) : Option String :=
  (s.apiKey.map Text.trim).filter fun k => !k.isEmpty

def validate (s : Settings) : Except Error Unit :=
  match s.key? with
  | none => .error (.missingField "api_key")
  | some k =>
    if k = placeholder then .error (.config .placeholderKey)
    else if s.timeoutSeconds = 0 then .error (.config .zeroTimeout)
    else if s.backoff.initialMs > s.backoff.maxMs then .error (.config .initialAboveLimit)
    else .ok ()

def timeout (s : Settings) : Span := .ofSeconds s.timeoutSeconds

def builder {σ : Type} (s : Settings) : Except Error (Builder σ) := do
  s.validate
  return { apiKey := s.apiKey.map Text.trim, baseUrl := s.baseUrl, timeout := s.timeout
           maxRetries := s.maxRetries, delay := s.backoff.backoff.delay }

end Settings

end OneApi
