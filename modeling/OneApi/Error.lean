import OneApi.RateWindow
import OneApi.Url.Fault
import OneApi.Variable

/-! Everything that can go wrong between settings and a decoded page. A constructor says what kind
of failure it is and holds its cause; the wording is in the message functions alone. What is wrong
with a document is for its decoder to say, which is given to these functions; failures of the
settings file's syntax and of the file system have no wording here. -/

namespace OneApi

inductive ConfigFault where
  | blankKey
  | placeholderKey
  | zeroTimeout
  | initialAboveLimit
  /-- An override that is no whole number of its size. -/
  | notACount (name : Variable) (raw : String)
  /-- A base address whose path cannot be extended. -/
  | opaqueBase (url : String)
  | other (text : String)
  deriving DecidableEq

inductive AbsenceFault where
  | resource
  | invalidId (id : String)
  /-- A page without items where one was asked for. -/
  | item (path id : String)
  | other (text : String)
  deriving DecidableEq

inductive LimitFault where
  | refused
  | windowSpent
  | retriesSpent (retries : Nat)
  | other (text : String)
  deriving DecidableEq

inductive FilterFault where
  | blankField
  | other (text : String)
  deriving DecidableEq

inductive KeyFault where
  | rejected
  | other (text : String)
  deriving DecidableEq

inductive Error where
  | config (fault : ConfigFault)
  | missingField (field : String)
  | settingsSyntax
  | invalidUrl (fault : Url.Fault)
  | invalidFilter (fault : FilterFault)
  | authentication (fault : KeyFault)
  | notFound (fault : AbsenceFault)
  | rateLimited (fault : LimitFault) (window : RateWindow)
  | api (status : Nat) (body : String)
  | transport (message source : String)
  /-- A body that was not the expected document. -/
  | undecodable (body : String)
  | io
  deriving DecidableEq

namespace ConfigFault

def message : ConfigFault → String
  | blankKey => "API key must not be blank"
  | placeholderKey =>
    s!"api_key is still the placeholder; set it or export {Variable.apiKey.name}"
  | zeroTimeout => "timeout_seconds must be greater than zero"
  | initialAboveLimit => "retry_backoff.initial_ms must not exceed retry_backoff.max_ms"
  | notACount v raw => s!"{v.name} must be a non-negative integer, got '{raw}'"
  | opaqueBase url => s!"base URL '{url}' cannot carry a path"
  | other text => text

end ConfigFault

namespace AbsenceFault

def message : AbsenceFault → String
  | resource => "Resource not found"
  | invalidId id => s!"Resource not found: invalid id '{id}'"
  | item path id => s!"Resource not found: {path}/{id}"
  | other text => text

end AbsenceFault

namespace LimitFault

def message : LimitFault → String
  | refused => "Rate limit exceeded"
  | windowSpent => "No more requests remaining in the current rate window"
  | retriesSpent retries => s!"Rate limit exceeded after {retries} retries"
  | other text => text

end LimitFault

namespace FilterFault

def message : FilterFault → String
  | blankField => "field name must not be blank"
  | other text => text

end FilterFault

namespace KeyFault

def message : KeyFault → String
  | rejected => "Invalid or missing API key"
  | other text => text

end KeyFault

namespace Error

/-- The text of an error; `complaint` is what a decoder says of a body that it refuses. -/
def message? (complaint : String → String) : Error → Option String
  | config fault => some s!"Configuration error: {fault.message}"
  | missingField field => some s!"Missing required config field: {field}"
  | settingsSyntax => none
  | invalidUrl fault => some s!"Invalid URL: {fault.message}"
  | invalidFilter fault => some s!"Invalid filter: {fault.message}"
  | authentication fault => some s!"Authentication failed: {fault.message}"
  | notFound fault => some s!"Not found: {fault.message}"
  | rateLimited fault _ => some s!"Rate limited: {fault.message}"
  | api status body => some s!"API error (HTTP {status}): {body}"
  | transport message _ => some s!"HTTP request failed: {message}"
  | undecodable body => some s!"Failed to decode response: {complaint body}"
  | io => none

def status? : Error → Option Nat
  | authentication _ => some 401
  | notFound _ => some 404
  | rateLimited _ _ => some 429
  | api status _ => some status
  | _ => none

def window? : Error → Option RateWindow
  | rateLimited _ window => some window
  | _ => none

def isRateLimited : Error → Bool
  | rateLimited _ _ => true
  | _ => false

/-- What a transport reports as the cause of its failure. -/
def source? : Error → Option String
  | transport _ source => some source
  | _ => none

end Error

end OneApi
