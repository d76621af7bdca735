/-! The environment variables that override settings, in the order in which they are applied. -/

namespace OneApi

inductive Variable where
  | apiKey
  | baseUrl
  | timeoutSeconds
  | maxRetries
  deriving DecidableEq

namespace Variable

def all : List Variable := [apiKey, baseUrl, timeoutSeconds, maxRetries]

def name : Variable → String
  | apiKey => "LOTR_API_KEY"
  | baseUrl => "LOTR_BASE_URL"
  | timeoutSeconds => "LOTR_TIMEOUT_SECONDS"
  | maxRetries => "LOTR_MAX_RETRIES"

end Variable

end OneApi
